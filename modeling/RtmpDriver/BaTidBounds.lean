import RtmpDriver.BaTable

/-! The TIDs the Block-Ack handlers index the per-station arrays with: an access goes to a TID that the operation
brings in or to one that an entry of the table carries. -/
namespace RtmpDriver.BaTidBounds
open StepMachine ReorderList ReorderEngine BaFrames BaSession BaParts BaTable List

def Stored (ad : Adapter) (t : Nat) : Prop := (∃ i, (ad.recs i).tid = t) ∨ ∃ i, (ad.oris i).tid = t

structure Touches (tids : List Nat) (ad ad' : Adapter) : Prop where
  accesses : ∃ new, ad'.touched = ad.touched ++ new ∧ ∀ t ∈ new, t ∈ tids ∨ Stored ad t
  stored : ∀ t, Stored ad' t → t ∈ tids ∨ Stored ad t

section
variable {tids : List Nat} {ad ad' ad'' : Adapter} {t : Nat}

theorem Touches.same (touched : ad'.touched = ad.touched) (recs : ∀ i, (ad'.recs i).tid = (ad.recs i).tid)
    (oris : ∀ i, (ad'.oris i).tid = (ad.oris i).tid) : Touches tids ad ad' := by
  refine ⟨⟨[],by simp [touched],by simp⟩,?_⟩
  rintro t (⟨i,eq⟩ | ⟨i,eq⟩)
  · exact Or.inr (Or.inl ⟨i,(recs i).symm.trans eq⟩)
  · exact Or.inr (Or.inr ⟨i,(oris i).symm.trans eq⟩)

theorem Touches.refl (tids ad) : Touches tids ad ad :=
  .same rfl (fun _ => rfl) (fun _ => rfl)

theorem Touches.trans (h : Touches tids ad ad') (h' : Touches tids ad' ad'') : Touches tids ad ad'' := by
  have back : ∀ t, (t ∈ tids ∨ Stored ad' t) → t ∈ tids ∨ Stored ad t :=
    fun t either => either.elim Or.inl (h.stored t)
  obtain ⟨new,grown,here⟩ := h.accesses
  obtain ⟨more,grown',there⟩ := h'.accesses
  refine ⟨⟨new ++ more,by rw [grown',grown,append_assoc],?_⟩,fun t s => back t (h'.stored t s)⟩
  intro t mem
  rcases mem_append.mp mem with first | second
  · exact here t first
  · exact back t (there t second)

theorem Touches.touch (ad) (from' : t ∈ tids ∨ Stored ad t) : Touches tids ad (ad.touch t) := by
  refine ⟨⟨[t],rfl,?_⟩,fun _ => Or.inr⟩
  intro s mem
  rwa [mem_singleton.mp mem]

theorem Touches.onRec (ad i) {f}
    (from' : (f (ad.ctx i)).entry.tid ∈ tids ∨ (f (ad.ctx i)).entry.tid = (ad.recs i).tid) :
    Touches tids ad (ad.onRec i f) := by
  refine ⟨⟨[],by simp [Adapter.onRec],by simp⟩,?_⟩
  rintro t (⟨j,eq⟩ | ori)
  · by_cases same : j = i
    · subst same
      have tid : (f (ad.ctx j)).entry.tid = t := by simpa [Adapter.onRec] using eq
      rw [tid] at from'
      exact from'.imp id fun own => Or.inl ⟨j,own.symm⟩
    · exact Or.inr (Or.inl ⟨j,by simpa [Adapter.onRec,same] using eq⟩)
  · exact Or.inr (Or.inr ori)

theorem tidOfId {e e'} (same : entryId e' = entryId e) : e'.tid = e.tid := congrArg (·.2.2) same

theorem touchesParts (cfg tids) : Parts cfg (· ∈ tids) (Touches tids) where
  refl := .refl tids
  trans := .trans
  touch := .touch _
  plain _ recs oris _ touched := by
    refine ⟨⟨[],by simp [touched],by simp⟩,?_⟩
    rintro t (⟨i,eq⟩ | ⟨i,rfl⟩)
    · exact Or.inr (Or.inl ⟨i,(recs i).2.symm.trans eq⟩)
    · exact (oris i).imp id fun same => Or.inr ⟨i,same.symm⟩
  refreshed _ := .onRec _ _ (Or.inr (tidOfId (entryParts.refresh _)))
  quit {ad i} _ := .onRec _ _ (Or.inr (tidOfId (entryParts.refresh (ad.ctx i))))
  fill _ _ _ own := .onRec _ _ (Or.inl own)

end

inductive BaAction where | addbaReq | addbaRsp | delba
  deriving DecidableEq, Repr

def BaAction.op (w : Nat) (msg : Bytes) : BaAction → AdapterOp
  | .addbaReq => .addbaReq w msg
  | .addbaRsp => .addbaRsp w msg
  | .delba => .delba w msg

def BaAction.sanity (cfg : Config) (w : Nat) (msg : Bytes) : BaAction → Bool
  | .addbaReq => peerAddbaReqActionSanity msg
  | .addbaRsp => peerAddbaRspActionSanity msg
  | .delba => peerDelbaActionSanity cfg.macTableLen w msg

def BaAction.tid (msg : Bytes) : BaAction → Nat
  | .addbaReq => (frameAddbaReq msg).parm.tid
  | .addbaRsp => (frameAddbaRsp msg).parm.tid
  | .delba => (frameDelbaReq msg).tid

def BaAction.refused (cfg : Config) (ad : Adapter) (w : Nat) : BaAction → Prop
  | .addbaReq => cfg.macTableLen ≤ w ∨ cfg.bBADecline = true ∨ (ad.stations w).mode < modeHtMix
  | .addbaRsp => cfg.macTableLen ≤ w
  | .delba => False

def accesses (cfg : Config) (ad : Adapter) (op : AdapterOp) : List Nat :=
  (adapterStep cfg ad op).touched.drop ad.touched.length

theorem actionTouches (cfg ad w msg) {kind : BaAction}
    (accepted : kind.sanity cfg w msg = true) (taken : ¬ kind.refused cfg ad w) :
    Touches [kind.tid msg] (ad.touch (kind.tid msg)) (adapterStep cfg ad (kind.op w msg)) := by
  cases kind with
  | addbaReq =>
    obtain ⟨near,accepts,ht⟩ : w < cfg.macTableLen ∧ cfg.bBADecline = false ∧ modeHtMix ≤ (ad.stations w).mode := by
      simpa [BaAction.refused,not_or] using taken
    have sane : peerAddbaReqActionSanity msg = true := accepted
    have added := (touchesParts cfg [_]).recAdded (addbaReqOf msg) (mem_singleton_self _) ad w
    simp only [BaAction.op,adapterStep,peerAddbaReqAction,not_le.mpr near,sane,accepts,ht,if_true,if_false,
      Bool.not_false,decide_true,Bool.and_self]
    split <;> rename_i eq <;> rw [eq] at added
    · exact added.trans (.same rfl (fun _ => rfl) (fun _ => rfl))
    · exact added.trans (.same rfl (fun _ => rfl) (fun _ => rfl))
  | addbaRsp =>
    have near : w < cfg.macTableLen := not_le.mp taken
    have sane : peerAddbaRspActionSanity msg = true := accepted
    have answered : Touches [(frameAddbaRsp msg).parm.tid] (ad.touch (frameAddbaRsp msg).parm.tid)
        (addbaAnswer cfg ad w (frameAddbaRsp msg)) := by
      unfold addbaAnswer
      split
      · exact (touchesParts ..).oriAdded (mem_singleton_self _) ad w
      · exact (touchesParts ..).oriTorn near ad true false
    simp only [BaAction.op,adapterStep,peerAddbaRspAction,not_le.mpr near,sane,if_true,if_false]
    exact answered.trans (.same rfl (fun _ => rfl) (fun _ => rfl))
  | delba =>
    have sane : peerDelbaActionSanity cfg.macTableLen w msg = true := accepted
    have near : w < cfg.macTableLen := by
      simp only [peerDelbaActionSanity,Bool.and_eq_true,decide_eq_true_eq] at sane
      exact sane.2
    simp only [BaAction.op,adapterStep,peerDelbaAction,sane,if_true]
    split
    · exact (touchesParts ..).recTorn (mem_singleton_self _) near ad true
    · exact (touchesParts ..).oriTorn near ad true false

theorem turnedAway (cfg ad w msg) {kind : BaAction} (away : kind.sanity cfg w msg = false ∨ kind.refused cfg ad w) :
    ∃ frames, adapterStep cfg ad (kind.op w msg) = ad.send frames := by
  have silent : ad = ad.send [] := by simp [Adapter.send]
  cases kind with
  | addbaReq =>
    simp only [BaAction.op,adapterStep,peerAddbaReqAction]
    split
    · exact ⟨[],silent⟩
    · rename_i near
      split
      · rename_i sane
        have declined : (!cfg.bBADecline && decide (modeHtMix ≤ (ad.stations w).mode)) = false := by
          rcases away with insane | far | off | legacy
          · exact absurd (insane.symm.trans sane) Bool.false_ne_true
          · exact absurd far near
          · simp [off]
          · simp [not_le.mpr legacy]
        rw [declined]
        exact ⟨_,rfl⟩
      · exact ⟨_,rfl⟩
  | addbaRsp =>
    simp only [BaAction.op,adapterStep,peerAddbaRspAction]
    split
    · exact ⟨[],silent⟩
    · rename_i near
      have insane : peerAddbaRspActionSanity msg = false := away.resolve_right near
      rw [insane]
      exact ⟨[],silent⟩
  | delba =>
    have insane : peerDelbaActionSanity cfg.macTableLen w msg = false := away.resolve_right id
    simp only [BaAction.op,adapterStep,peerDelbaAction,insane]
    exact ⟨[],silent⟩

theorem baActionTidInRange (cfg : Config) (ad : Adapter) (w : Nat) (msg : Bytes) (kind : BaAction)
    (accepted : kind.sanity cfg w msg = true) (stored : ∀ t, Stored ad t → t < numOfTid) :
    (∀ t ∈ accesses cfg ad (kind.op w msg), t < numOfTid) ↔
      kind.tid msg < numOfTid ∨ kind.refused cfg ad w := by
  by_cases refused : kind.refused cfg ad w
  · obtain ⟨frames,eq⟩ := turnedAway cfg ad w msg (Or.inr refused)
    have none : accesses cfg ad (kind.op w msg) = [] := by simp [accesses,eq,Adapter.send]
    rw [none]
    simp [refused]
  · obtain ⟨new,grown,origin⟩ := (actionTouches cfg ad w msg accepted refused).accesses
    have all : accesses cfg ad (kind.op w msg) = kind.tid msg :: new := by
      simp [accesses,grown,Adapter.touch]
    rw [all]
    constructor
    · exact fun bounded => Or.inl (bounded _ mem_cons_self)
    · rintro (small | never)
      · intro t mem
        rcases mem_cons.mp mem with rfl | later
        · exact small
        · rcases origin t later with own | held
          · rw [mem_singleton.mp own]
            exact small
          · exact stored t held
      · exact absurd never refused

theorem freshStored {num ad} (fresh : Fresh num ad) (t) (held : Stored ad t) : t < numOfTid := by
  rcases held with ⟨i,eq⟩ | ⟨i,eq⟩
  · rw [fresh.recs i] at eq
    rw [← eq]
    decide
  · rw [fresh.oris i] at eq
    rw [← eq]
    decide

theorem addbaReqTidInRange :
    accesses sampleConfig (sampleAdapter 4) (BaAction.addbaReq.op 1 (actionFrame [3,0,1,30,2,0,0,0,0])) = [7,7] ∧
    ∀ t ∈ accesses sampleConfig (sampleAdapter 4) (BaAction.addbaReq.op 1 (actionFrame [3,0,1,30,2,0,0,0,0])),
      t < numOfTid :=
  ⟨by decide +kernel,(baActionTidInRange sampleConfig (sampleAdapter 4) 1 (actionFrame [3,0,1,30,2,0,0,0,0])
    .addbaReq (by decide) (freshStored (sampleFresh 4))).mpr (Or.inl (by decide))⟩

theorem addbaReqTidEight : peerAddbaReqActionSanity (actionFrame [3,0,1,34,2,0,0,0,0]) = true ∧
    accesses sampleConfig (sampleAdapter 4) (.addbaReq 1 (actionFrame [3,0,1,34,2,0,0,0,0])) = [8,8] ∧
    ¬ ∀ t ∈ accesses sampleConfig (sampleAdapter 4) (.addbaReq 1 (actionFrame [3,0,1,34,2,0,0,0,0])),
      t < numOfTid := by
  decide +kernel

def broughtIn : AdapterOp → List Nat
  | .setUp _ tid _ _ | .oriTearDown _ tid _ _ | .recTearDown _ tid _ => [tid]
  | .addbaReq _ msg => [BaAction.addbaReq.tid msg]
  | .addbaRsp _ msg => [BaAction.addbaRsp.tid msg]
  | .delba _ msg => [BaAction.delba.tid msg]
  | .tearDownAll _ => range numOfTid
  | .ampdu .. | .legacy .. | .bar .. | .idle .. | .setupTimeout .. => []

theorem touchesStep (cfg ad op) : Touches (broughtIn op) ad (adapterStep cfg ad op) := by
  have parts := touchesParts cfg (broughtIn op)
  cases op with
  | ampdu rx now now' =>
    simp only [adapterStep,indicateAmpduPacket]
    split
    · exact .same rfl (fun _ => rfl) (fun _ => rfl)
    · split
      · exact .same rfl (fun _ => rfl) (fun _ => rfl)
      · split
        · exact .same rfl (fun _ => rfl) (fun _ => rfl)
        · exact .onRec ad _ (Or.inr (tidOfId (entryReceived ..)))
  | legacy rx now =>
    simp only [adapterStep,indicateLegacy]
    split
    · exact .same rfl (fun _ => rfl) (fun _ => rfl)
    · exact .onRec ad _ (Or.inr (tidOfId (entryParts.legacyPacket ..)))
  | bar w tid startSeq =>
    simp only [adapterStep,cntlEnqueueForRecv]
    split
    · exact .onRec ad _ (Or.inr (tidOfId (entryParts.bar ..)))
    · exact .refl ..
  | idle i now =>
    simp only [adapterStep]
    split
    · exact .onRec ad _ (Or.inr (tidOfId (entryParts.idle ..)))
    · exact .refl ..
  | setUp w tid timeOut isForced => exact parts.setUp (mem_singleton_self tid) ad w timeOut isForced
  | setupTimeout i monitorOn scanning =>
    simp only [adapterStep]
    split
    · exact parts.setupTimeout ad i monitorOn scanning
    · exact .refl ..
  | addbaReq w msg => exact parts.peerAddbaReq (mem_singleton_self _) ad w
  | addbaRsp w msg => exact parts.peerAddbaRsp (mem_singleton_self _) ad w
  | delba w msg => exact parts.peerDelba (mem_singleton_self _) ad w
  | oriTearDown w tid bPassive bForceSend => exact parts.oriTearDown (mem_singleton_self tid) w ad bPassive bForceSend
  | recTearDown w tid bPassive => exact parts.recTearDown (mem_singleton_self tid) w ad bPassive
  | tearDownAll w => exact parts.tearDownAll (fun _ mem => mem) ad w

theorem orderlyTouchesInRange (cfg) {num ad ops} (fresh : Fresh num ad)
    (clean : ad.touched = []) (orderly : Meets (adapterStep cfg) Orderly ad ops) :
    Always (adapterStep cfg) (fun ad => ∀ t ∈ ad.touched, t < numOfTid) ad ops := by
  have start : (∀ t ∈ ad.touched, t < numOfTid) ∧ ∀ t, Stored ad t → t < numOfTid :=
    ⟨by simp [clean],freshStored fresh⟩
  have kept : Always (adapterStep cfg)
      (fun ad => (∀ t ∈ ad.touched, t < numOfTid) ∧ ∀ t, Stored ad t → t < numOfTid) ad ops := by
    refine invariant ?_ start orderly
    rintro ad op ⟨touched,stored⟩ ok
    have small : ∀ t, t ∈ broughtIn op ∨ Stored ad t → t < numOfTid := by
      rintro t (own | held)
      · cases op <;> simp only [broughtIn,mem_singleton,mem_range,not_mem_nil] at own <;>
          first | exact own | (rw [own]; exact ok)
      · exact stored t held
    obtain ⟨new,grown,origin⟩ := (touchesStep cfg ad op).accesses
    refine ⟨?_,fun t held => small t ((touchesStep cfg ad op).stored t held)⟩
    intro t mem
    rw [grown] at mem
    rcases mem_append.mp mem with old | later
    · exact touched t old
    · exact small t (origin t later)
  exact alwaysMono (fun _ both => both.1) kept

end RtmpDriver.BaTidBounds
