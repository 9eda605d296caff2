import RtmpDriver.BaParts
import RtmpDriver.ReorderDrain
import RtmpDriver.ReorderParts
import RtmpDriver.SlotTable
import RtmpDriver.StepMachine

/-! Where the blocks of the reordering pool are. `Accounts lost c c'` says that a part of an operation on one session
keeps both list counters exact and the blocks of both lists, less the blocks `lost`. -/
namespace RtmpDriver.BaBlocks
open StepMachine SlotTable ReorderList ReorderEngine ReorderDrain ReorderParts BaFrames BaSession BaParts List

def blocksOf (c : Ctx) : List Nat := c.freelist.addrs ++ c.entry.list.addrs

structure Exact (c : Ctx) : Prop where
  list : c.entry.list.Counted
  free : c.freelist.Counted

structure Accounts (lost : List Nat) (c c' : Ctx) : Prop where
  exact : Exact c'
  blocks : (lost ++ blocksOf c').Perm (blocksOf c)

section
variable {lost lost' : List Nat} {c c' c'' : Ctx}

theorem Accounts.refl (exact : Exact c) : Accounts [] c c := ⟨exact,Perm.refl _⟩

theorem Accounts.trans (h : Accounts lost c c') (h' : Accounts lost' c' c'') : Accounts (lost ++ lost') c c'' := by
  refine ⟨h'.exact,?_⟩
  rw [append_assoc]
  exact (h'.blocks.append_left lost).trans h.blocks

theorem Accounts.same (h : Accounts lost c c') (list : c''.entry.list = c'.entry.list)
    (free : c''.freelist = c'.freelist) : Accounts lost c c'' := by
  refine ⟨⟨by rw [list]; exact h.exact.list,by rw [free]; exact h.exact.free⟩,?_⟩
  unfold blocksOf
  rw [list,free]
  exact h.blocks

end

theorem accountsParts : Parts fun c c' => Exact c → Accounts [] c c' where
  refl _ := .refl
  trans h h' exact := (h exact).trans (h' (h exact).exact)
  emit _ _ exact := (Accounts.refl exact).same rfl rfl
  last _ _ exact := (Accounts.refl exact).same rfl rfl
  timer _ _ exact := (Accounts.refl exact).same rfl rfl
  counts _ _ _ exact := (Accounts.refl exact).same rfl rfl
  head c exact := by
    cases found : c.entry.list.next with
    | nil =>
      rw [announceHeadNone exact.list found]
      exact .refl exact
    | cons m rest =>
      have free : c.freelist.qlen = c.freelist.next.length := exact.free
      rw [announceHeadSome exact.list found]
      refine ⟨⟨rfl,?_⟩,?_⟩
      · simp [ReorderingList.Counted,handUp,free,Nat.add_comm]
      · simpa [blocksOf,handUp,ReorderingList.addrs,found] using perm_middle.symm

def leaked (c : Ctx) (rx : RxBlk) : List Nat := if rx.eap then c.freelist.addrs.take 1 else []

theorem allocNone {c} (exact : Exact c) (empty : c.freelist.next = []) :
    baMpduBlkAlloc c = (none,c.emit .allocFailed) := by
  simp only [baMpduBlkAlloc,dequeueNone exact.free empty]

theorem allocSome {c} (exact : Exact c) {m rest} (found : c.freelist.next = m :: rest) :
    baMpduBlkAlloc c = (some (zeroed m.addr),{c with freelist := ⟨rest,rest.length⟩}) := by
  simp only [baMpduBlkAlloc,dequeueSome exact.free found]

theorem accountsFallback (p) {lost c b} (h : Accounts lost c b) (rx now) : Accounts lost c
      (indicateLegacyOrAmsdu p ((baIndicateReorderingMpdusLeSeq b rx.sequence).setLast rx.sequence) rx now) := by
  have all := h.trans (accountsParts.fallback p b rx now h.exact)
  rwa [append_nil] at all

theorem Accounts.assert {lost c c'} (h : Accounts lost c c') (holds) : Accounts lost c (c'.assert holds) := by
  have all := h.trans (accountsParts.asserted c' holds h.exact)
  rwa [append_nil] at all

theorem accountsEnqueue (p) {c} (exact : Exact c) (rx now) :
    Accounts (leaked c rx) c (baEnqueueReorderingPacket p c rx now) := by
  unfold baEnqueueReorderingPacket leaked
  cases found : c.freelist.next with
  | nil =>
    have none : (if rx.eap = true then c.freelist.addrs.take 1 else []) = [] := by
      simp [ReorderingList.addrs,found]
    have failed : Accounts [] c (c.emit .allocFailed) := (Accounts.refl exact).same rfl rfl
    rw [allocNone exact found,none]
    cases rx.eap <;> exact accountsFallback p failed rx now
  | cons m rest =>
    rw [allocSome exact found]
    have counted : (⟨rest,rest.length⟩ : ReorderingList).Counted := rfl
    have free : c.freelist.addrs = m.addr :: rest.map Mpdu.addr := by simp [ReorderingList.addrs,found]
    cases rx.eap with
    | true =>
      have forgotten : Accounts (c.freelist.addrs.take 1) c {c with freelist := ⟨rest,rest.length⟩} := by
        refine ⟨⟨exact.list,counted⟩,?_⟩
        simp only [blocksOf,free]
        exact Perm.refl _
      exact accountsFallback p forgotten rx now
    | false =>
      cases scan : baReorderingMpduInsertsorted c.entry.list (fillMpdu (zeroed m.addr) rx) with
      | some l =>
        have queued : Accounts [] c (Ctx.setList {c with freelist := ⟨rest,rest.length⟩} l) := by
          refine ⟨⟨insertedCounted exact.list scan,counted⟩,?_⟩
          have perm := (insertedPerm scan).map Mpdu.addr
          simp only [blocksOf,Ctx.setList,nil_append,free]
          refine (perm.append_left _).trans ?_
          simp only [ReorderingList.addrs,map_cons,cons_append]
          exact perm_middle
        simp only [scan]
        exact queued.assert _
      | none =>
        have freed : Accounts [] c (baMpduBlkFree (Ctx.emit {c with freelist := ⟨rest,rest.length⟩}
            (.freed rx.packet)) (fillMpdu (zeroed m.addr) rx)) := by
          refine ⟨⟨exact.list,countedEnqueue counted _⟩,?_⟩
          simp only [blocksOf,free]
          exact Perm.refl _
        simp only [scan]
        exact freed.assert _

def enqueuePoint (c : Ctx) (rx : RxBlk) (now : Time) : Option Ctx :=
  if c.entry.lastIndSeq = resetRcvSeq then none
  else if seqStepOne rx.sequence c.entry.lastIndSeq maxSeq then none
  else if (rx.sequence : Nat) = c.entry.lastIndSeq then none
  else if seqSmaller rx.sequence c.entry.lastIndSeq maxSeq then none
  else if seqSmaller rx.sequence (cAnd (c.entry.lastIndSeq + c.entry.baWinSize + 1) maxSeq) maxSeq then some c
  else
    let winStart := winStartSeq rx.sequence c.entry.baWinSize
    some (((baIndicateReorderingMpdusLeSeq c winStart).setLast winStart).setTimer now)

def leakedFrom (point : Option Ctx) (rx : RxBlk) : List Nat := (point.map fun b => leaked b rx).getD []

def leakedBy (p : Platform) (c : Ctx) (rx : RxBlk) (now : Time) : List Nat :=
  leakedFrom (enqueuePoint (arrived p c rx now) rx now) rx

theorem accountsSurpassing (p) {c} (exact : Exact c) (rx now now') :
    Accounts (leaked (((baIndicateReorderingMpdusLeSeq c (winStartSeq rx.sequence c.entry.baWinSize)).setLast
      (winStartSeq rx.sequence c.entry.baWinSize)).setTimer now) rx) c (surpassingArrival p c rx now now') := by
  have moved : Accounts [] c (((baIndicateReorderingMpdusLeSeq c
    (winStartSeq rx.sequence c.entry.baWinSize)).setLast
      (winStartSeq rx.sequence c.entry.baWinSize)).setTimer now) := (accountsParts.leSeq _ _ exact).same rfl rfl
  have queue := moved.trans (accountsEnqueue p moved.exact rx now')
  have all : Accounts _ c (surpassingArrival p c rx now now') := queue.trans (accountsParts.drain _ _ queue.exact)
  rwa [append_nil] at all

theorem accountsClassify (p) {c} (exact : Exact c) (rx now now') (set : c.entry.lastIndSeq ≠ resetRcvSeq) :
    Accounts (leakedFrom (enqueuePoint c rx now) rx) c (classify p c rx now now') := by
  have dropped : Accounts [] c (dropPacket c rx) := (Accounts.refl exact).same rfl rfl
  unfold classify enqueuePoint
  rw [if_neg set]
  by_cases one : seqStepOne rx.sequence c.entry.lastIndSeq maxSeq = true
  · rw [if_pos one,if_pos one]
    exact accountsParts.inOrder p c rx now now' exact
  rw [if_neg one,if_neg one]
  by_cases same : (rx.sequence : Nat) = c.entry.lastIndSeq
  · rwa [if_pos same,if_pos same]
  rw [if_neg same,if_neg same]
  by_cases old : seqSmaller rx.sequence c.entry.lastIndSeq maxSeq = true
  · rwa [if_pos old,if_pos old]
  rw [if_neg old,if_neg old]
  by_cases inside : seqSmaller rx.sequence (cAnd (c.entry.lastIndSeq + c.entry.baWinSize + 1) maxSeq) maxSeq = true
  · rw [if_pos inside,if_pos inside]
    exact accountsEnqueue p exact rx now'
  · rw [if_neg inside,if_neg inside]
    exact accountsSurpassing p exact rx now now'

theorem accountsReceive (p) {c} (exact : Exact c) (rx now now') :
    Accounts (leakedBy p c rx now) c (receiveAmpdu p c rx now now') := by
  have start := accountsParts.arrived p c rx now exact
  unfold receiveAmpdu leakedBy
  by_cases reset : (arrived p c rx now).entry.lastIndSeq = resetRcvSeq
  · have point : enqueuePoint (arrived p c rx now) rx now = none := if_pos reset
    rw [if_pos reset,point]
    exact start.trans (accountsParts.first p _ rx now now' start.exact)
  · rw [if_neg reset]
    exact start.trans (accountsClassify p start.exact rx now now' reset)

theorem accountsFill {c} (exact : Exact c) (wcid rxBaWinLimit req) :
    Accounts [] c (fillSession c wcid rxBaWinLimit req) :=
  ((Accounts.refl exact).assert (c.entry.list.qlen == 0)).same rfl rfl

def Adapter.blocks (cfg : Config) (ad : Adapter) : List Nat :=
  ad.freelist.addrs ++ (range cfg.recTableLen).flatMap fun i => (ad.recs i).list.addrs

structure Conserved (cfg : Config) (num : Nat) (ad : Adapter) : Prop where
  total : ad.freelist.qlen + ((range cfg.recTableLen).map fun i => (ad.recs i).list.qlen).sum = num
  distinct : (Adapter.blocks cfg ad).Nodup

structure Pool (cfg : Config) (ad : Adapter) : Prop where
  free : ad.freelist.Counted
  lists : ∀ i, (ad.recs i).list.Counted
  index : ∀ w t, (ad.stations w).baRecWcidArray t < cfg.recTableLen

theorem Pool.conserved {cfg num ad} (h : Pool cfg ad)
    (all : (Adapter.blocks cfg ad).Perm (range num)) : Conserved cfg num ad := by
  refine ⟨?_,all.nodup_iff.mpr nodup_range⟩
  have length := all.length_eq
  have free : ad.freelist.qlen = ad.freelist.addrs.length := by
    rw [ReorderingList.addrs,length_map]
    exact h.free
  have lists : (fun i => (ad.recs i).list.qlen) = fun i => (ad.recs i).list.addrs.length := by
    funext i
    rw [ReorderingList.addrs,length_map]
    exact h.lists i
  simp only [Adapter.blocks,length_append,length_flatMap,length_range] at length
  rwa [lists,free]

structure Keeps (cfg : Config) (lost : List Nat) (ad ad' : Adapter) : Prop where
  pool : Pool cfg ad'
  blocks : (lost ++ Adapter.blocks cfg ad').Perm (Adapter.blocks cfg ad)

section
variable {cfg : Config} {lost lost' : List Nat} {ad ad' ad'' : Adapter}

theorem Keeps.refl (pool : Pool cfg ad) : Keeps cfg [] ad ad := ⟨pool,Perm.refl _⟩

theorem Keeps.trans (h : Keeps cfg lost ad ad') (h' : Keeps cfg lost' ad' ad'') :
    Keeps cfg (lost ++ lost') ad ad'' := by
  refine ⟨h'.pool,?_⟩
  rw [append_assoc]
  exact (h'.blocks.append_left lost).trans h.blocks

theorem Keeps.same (h : Keeps cfg lost ad ad') (lists : ∀ i, (ad''.recs i).list = (ad'.recs i).list)
    (free : ad''.freelist = ad'.freelist)
    (index : ∀ w t, (ad''.stations w).baRecWcidArray t < cfg.recTableLen) : Keeps cfg lost ad ad'' := by
  refine ⟨⟨by rw [free]; exact h.pool.free,fun i => by rw [lists i]; exact h.pool.lists i,index⟩,?_⟩
  unfold Adapter.blocks
  simp only [lists,free]
  exact h.blocks

theorem Pool.exact (pool : Pool cfg ad) (i) : Exact (ad.ctx i) := ⟨pool.lists i,pool.free⟩

theorem keepsOnRec (pool : Pool cfg ad) {i} (inside : i < cfg.recTableLen) {f}
    (accounts : Accounts lost (ad.ctx i) (f (ad.ctx i))) : Keeps cfg lost ad (ad.onRec i f) := by
  refine ⟨⟨accounts.exact.free,?_,pool.index⟩,?_⟩
  · intro j
    by_cases here : j = i
    · subst here
      simpa [Adapter.onRec] using accounts.exact.list
    · simpa [Adapter.onRec,here] using pool.lists j
  · rw [perm_iff_count]
    intro a
    have one := perm_iff_count.mp accounts.blocks a
    have sum := sumUpdate nodup_range (mem_range.mpr inside)
      (f := fun j => (ad.recs j).list.addrs.count a) (g := fun j => ((ad.onRec i f).recs j).list.addrs.count a)
      (by intro j other; simp [Adapter.onRec,other])
    have here : ((ad.onRec i f).recs i).list = (f (ad.ctx i)).entry.list := by simp [Adapter.onRec]
    have free : (ad.onRec i f).freelist = (f (ad.ctx i)).freelist := rfl
    have list : (ad.ctx i).entry.list = (ad.recs i).list := rfl
    have before : (ad.ctx i).freelist = ad.freelist := rfl
    rw [here] at sum
    simp only [Adapter.blocks,blocksOf,free,list,before,count_append,count_flatMap,Function.comp_def] at *
    omega

theorem keepsEmit (pool : Pool cfg ad) (e) : Keeps cfg [] ad (ad.emit e) :=
  (Keeps.refl pool).same (fun _ => rfl) rfl pool.index

theorem Pool.entered (pool : Pool cfg ad) {i} (entered : Entered cfg ad i) : i < cfg.recTableLen := by
  rcases entered with inside | ⟨w,t,rfl⟩
  · exact inside
  · exact pool.index w t

theorem accountsQuit {c} (exact : Exact c) : Accounts [] c (recQuit c) :=
  (accountsParts.refresh _ exact).same rfl rfl

theorem keepsParts (cfg) : Parts cfg (fun _ => True) fun ad ad' => Pool cfg ad → Keeps cfg [] ad ad' where
  refl _ := .refl
  trans first second pool := (first pool).trans (second (first pool).pool)
  touch _ pool := (Keeps.refl pool).same (fun _ => rfl) rfl pool.index
  plain index recs _ free _ pool :=
    (Keeps.refl pool).same (fun i => (recs i).1) free fun w t => pool.entered (index w t)
  refreshed entry pool := keepsOnRec pool (pool.entered entry) (accountsParts.refresh _ (pool.exact _))
  quit entry pool := keepsOnRec pool (pool.entered entry) (accountsQuit (pool.exact _))
  fill _ _ entry _ pool := keepsOnRec pool (pool.entered entry) (accountsFill (pool.exact _) _ _ _)

end

def ampduLeak (cfg : Config) (ad : Adapter) (rx : RxBlk) (now : Time) : List Nat :=
  if oversize rx ∨ cfg.macTableLen ≤ rx.wcid ∨ (ad.stations rx.wcid).baRecWcidArray rx.tid = 0 then []
  else leakedBy cfg.platform (ad.ctx ((ad.stations rx.wcid).baRecWcidArray rx.tid)) rx now

def leakedAt (cfg : Config) (ad : Adapter) : AdapterOp → List Nat
  | .ampdu rx now _ => ampduLeak cfg ad rx now
  | _ => []

theorem keepsAmpdu {cfg ad} (pool : Pool cfg ad) (rx now now') :
    Keeps cfg (ampduLeak cfg ad rx now) ad (indicateAmpduPacket cfg ad rx now now') := by
  unfold indicateAmpduPacket ampduLeak
  by_cases size : oversize rx = true
  · rw [if_pos size,if_pos (Or.inl size)]
    exact keepsEmit pool _
  rw [if_neg size]
  by_cases far : cfg.macTableLen ≤ rx.wcid
  · rw [if_pos far,if_pos (Or.inr (Or.inl far))]
    exact (Keeps.refl pool).same (fun _ => rfl) rfl pool.index
  rw [if_neg far]
  by_cases none : (ad.stations rx.wcid).baRecWcidArray rx.tid = 0
  · simp only [none,if_true,or_true]
    exact keepsEmit pool _
  · simp only [none,if_false,size,far,or_self]
    exact keepsOnRec pool (pool.index _ _) (accountsReceive cfg.platform (pool.exact _) rx now now')

theorem keepsStep {cfg ad} (pool : Pool cfg ad) (op) :
    Keeps cfg (leakedAt cfg ad op) ad (adapterStep cfg ad op) := by
  cases op with
  | ampdu rx now now' => exact keepsAmpdu pool rx now now'
  | legacy rx now =>
    simp only [adapterStep,indicateLegacy,leakedAt]
    split
    · exact keepsEmit pool _
    · exact keepsOnRec pool (pool.index _ _) (accountsParts.legacyPacket cfg.platform _ rx now (pool.exact _))
  | bar w tid startSeq =>
    simp only [adapterStep,cntlEnqueueForRecv,leakedAt]
    split
    · exact keepsOnRec pool (pool.index _ _) (accountsParts.bar _ startSeq (pool.exact _))
    · exact .refl pool
  | idle i now =>
    simp only [adapterStep,leakedAt]
    split
    · rename_i inside
      exact keepsOnRec pool inside (accountsParts.idle _ now (pool.exact _))
    · exact .refl pool
  | setUp w tid timeOut isForced => exact (keepsParts cfg).setUp trivial ad w timeOut isForced pool
  | setupTimeout i monitorOn scanning =>
    simp only [adapterStep,leakedAt]
    split
    · exact (keepsParts cfg).setupTimeout ad i monitorOn scanning pool
    · exact .refl pool
  | addbaReq w msg => exact (keepsParts cfg).peerAddbaReq trivial ad w pool
  | addbaRsp w msg => exact (keepsParts cfg).peerAddbaRsp trivial ad w pool
  | delba w msg => exact (keepsParts cfg).peerDelba trivial ad w pool
  | oriTearDown w tid bPassive bForceSend => exact (keepsParts cfg).oriTearDown trivial w ad bPassive bForceSend pool
  | recTearDown w tid bPassive => exact (keepsParts cfg).recTearDown trivial w ad bPassive pool
  | tearDownAll w => exact (keepsParts cfg).tearDownAll (fun _ _ => trivial) ad w pool

def QueuesEap (cfg : Config) (ad : Adapter) : AdapterOp → Prop
  | .ampdu rx now _ => rx.eap = true ∧ oversize rx = false ∧ rx.wcid < cfg.macTableLen ∧
      (ad.stations rx.wcid).baRecWcidArray rx.tid ≠ 0 ∧
      (enqueuePoint (arrived cfg.platform (ad.ctx ((ad.stations rx.wcid).baRecWcidArray rx.tid)) rx now) rx
        now).any (fun b => !b.freelist.next.isEmpty) = true
  | _ => False

instance (cfg : Config) (ad : Adapter) : ∀ op : AdapterOp, Decidable (QueuesEap cfg ad op)
  | .ampdu .. => inferInstanceAs (Decidable (_ ∧ _))
  | .legacy .. | .bar .. | .idle .. | .setUp .. | .setupTimeout .. | .addbaReq .. | .addbaRsp .. | .delba ..
  | .oriTearDown .. | .recTearDown .. | .tearDownAll .. => isFalse id

theorem leakedFromNone {point rx} :
    leakedFrom point rx = [] ↔ ¬(rx.eap = true ∧ point.any (fun b => !b.freelist.next.isEmpty) = true) := by
  cases point with
  | none => simp [leakedFrom]
  | some b =>
    cases list : b.freelist.next <;> cases eap : rx.eap <;>
      simp [leakedFrom,leaked,ReorderingList.addrs,list,eap]

theorem leakedNone (cfg ad op) : leakedAt cfg ad op = [] ↔ ¬ QueuesEap cfg ad op := by
  cases op with
  | ampdu rx now now' =>
    simp only [leakedAt,ampduLeak,QueuesEap,leakedBy]
    split
    · rename_i skip
      constructor
      · rintro _ ⟨_,size,near,session,_⟩
        rcases skip with long | far | none
        · simp [size] at long
        · omega
        · exact session none
      · exact fun _ => rfl
    · rename_i reach
      simp only [not_or,Bool.not_eq_true,not_le] at reach
      rw [leakedFromNone]
      simp [reach]
  | _ => simp [leakedAt,QueuesEap]

theorem leakedAtMostOne (cfg ad op) : (leakedAt cfg ad op).length ≤ 1 := by
  have point : ∀ (b : Option Ctx) (rx : RxBlk), (leakedFrom b rx).length ≤ 1 := by
    intro b rx
    cases b with
    | none => exact Nat.zero_le 1
    | some b =>
      change (leaked b rx).length ≤ 1
      unfold leaked
      split
      · exact length_take_le 1 _
      · exact Nat.zero_le 1
  cases op with
  | ampdu rx now now' =>
    simp only [leakedAt,ampduLeak,leakedBy]
    split
    · exact Nat.zero_le 1
    · exact point _ rx
  | _ => exact Nat.zero_le 1

theorem Pool.fresh {cfg num ad} (fresh : Fresh num ad) :
    Pool cfg ad ∧ (Adapter.blocks cfg ad).Perm (range num) := by
  refine ⟨⟨?_,?_,?_⟩,?_⟩
  · rw [fresh.freelist]
    exact initCounted num
  · intro i
    rw [fresh.recs i]
    rfl
  · intro w t
    rw [(fresh.stations w).2.1 t]
    exact cfg.recTablePos
  · have lists : (fun i => (ad.recs i).list.addrs) = fun _ => [] := by
      funext i
      rw [fresh.recs i]
      rfl
    have none : ∀ l : List Nat, l.flatMap (fun _ => ([] : List Nat)) = [] := by simp
    rw [Adapter.blocks,fresh.freelist,initAddrs,lists,none,append_nil]
    exact reverse_perm (range num)

theorem blocksConserved (cfg : Config) {num : Nat} {ad : Adapter} {ops : List AdapterOp} (fresh : Fresh num ad)
    (avoid : Meets (adapterStep cfg) (fun ad op => ¬ QueuesEap cfg ad op) ad ops) :
    Always (adapterStep cfg) (Conserved cfg num) ad ops := by
  have start : Pool cfg ad ∧ (Adapter.blocks cfg ad).Perm (List.range num) := Pool.fresh fresh
  have kept : Always (adapterStep cfg) (fun ad => Pool cfg ad ∧ (Adapter.blocks cfg ad).Perm (List.range num))
      ad ops := by
    refine invariant ?_ start avoid
    rintro ad op ⟨pool,all⟩ safe
    have step := keepsStep pool op
    rw [(leakedNone cfg ad op).mpr safe] at step
    exact ⟨step.pool,step.blocks.trans all⟩
  exact alwaysMono (fun _ h => h.1.conserved h.2) kept

theorem blocksConservedOutOfOrder :
    Always (adapterStep sampleConfig) (Conserved sampleConfig 4) (sampleAdapter 4)
      [.addbaReq 1 (actionFrame [3,0,1,2,2,0,0,0,0]),.ampdu (sampleAmpdu 0 100 false) 10 10,
        .ampdu (sampleAmpdu 1 102 false) 11 11,.ampdu (sampleAmpdu 2 102 false) 12 12,
        .ampdu (sampleAmpdu 3 101 true) 13 13,.tearDownAll 1] :=
  blocksConserved sampleConfig (sampleFresh 4) (by decide +kernel)

theorem eapBlockLost {cfg ad op} (pool : Pool cfg ad) (eap : QueuesEap cfg ad op) :
    ∃ addr, (addr :: Adapter.blocks cfg (adapterStep cfg ad op)).Perm (Adapter.blocks cfg ad) := by
  have kept := (keepsStep pool op).blocks
  have short : (leakedAt cfg ad op).length ≤ 1 := leakedAtMostOne cfg ad op
  match lost : leakedAt cfg ad op with
  | [] => exact absurd eap ((leakedNone cfg ad op).mp lost)
  | [addr] =>
    rw [lost] at kept
    exact ⟨addr,kept⟩
  | _ :: _ :: _ => simp [lost] at short

theorem eapBlockLeaks :
    (run (adapterStep sampleConfig) (sampleAdapter 4)
      [.addbaReq 1 (actionFrame [3,0,1,2,2,0,0,0,0]),.ampdu (sampleAmpdu 0 100 false) 10 10,
        .ampdu (sampleAmpdu 1 102 true) 11 11]).log = [.up 0 100 false,.up 1 102 false] ∧
    ¬ Always (adapterStep sampleConfig) (Conserved sampleConfig 4) (sampleAdapter 4)
      [.addbaReq 1 (actionFrame [3,0,1,2,2,0,0,0,0]),.ampdu (sampleAmpdu 0 100 false) 10 10,
        .ampdu (sampleAmpdu 1 102 true) 11 11] := by
  refine ⟨by decide +kernel,?_⟩
  intro h
  exact absurd (alwaysLast h).total (by decide +kernel)

end RtmpDriver.BaBlocks
