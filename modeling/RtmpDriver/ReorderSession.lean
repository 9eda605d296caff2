import RtmpDriver.ReorderWindow

/-! One recipient session over a whole run. `Session 2` is what holds between operations, and `Session 1` the same in
the middle of one. -/
namespace RtmpDriver.ReorderSession
open SerialNumber StepMachine ReorderList ReorderEngine ReorderDrain ReorderHeld ReorderWindow List

structure Session (gap : Int) (c : Ctx) : Prop where
  winLow : 1 ≤ c.entry.baWinSize
  winHigh : c.entry.baWinSize ≤ 255
  quiet : Event.assertFailed ∉ c.log
  shape : Reset c ∨ ∃ last, Window gap last c

theorem Session.counted {gap c} (h : Session gap c) : c.entry.list.Counted := by
  rcases h.shape with ⟨_,empty⟩ | ⟨_,window⟩
  · rw [empty]
    rfl
  · exact window.counted

theorem quietHandUp {c} (quiet : Event.assertFailed ∉ c.log) (out keep) :
    Event.assertFailed ∉ (handUp c out keep).log := by
  simp [handUp,upOf,quiet]

theorem quietEmit {c : Ctx} (quiet : Event.assertFailed ∉ c.log) {e}
    (other : e ≠ .assertFailed) : Event.assertFailed ∉ (c.emit e).log := by
  simp [Ctx.emit,quiet,Ne.symm other]

theorem Session.emit {gap c} (h : Session gap c) {e : Event} (other : e ≠ .assertFailed) : Session gap (c.emit e) :=
  ⟨h.winLow,h.winHigh,quietEmit h.quiet other,h.shape.imp (fun r => r) fun ⟨last,w⟩ => ⟨last,w.1,w.2,w.3⟩⟩

theorem Session.setTimer {gap c} (h : Session gap c) (now) : Session gap (c.setTimer now) :=
  ⟨h.winLow,h.winHigh,h.quiet,h.shape.imp (fun r => r) fun ⟨last,w⟩ => ⟨last,w.1,w.2,w.3⟩⟩

theorem Session.refresh {gap gap' c} (h : Session gap c) : Session gap' (baRefreshReorderingMpdus c) := by
  rw [refreshEq h.counted]
  exact ⟨h.winLow,h.winHigh,quietHandUp (quietEmit h.quiet (by decide)) c.entry.list.next [],Or.inl ⟨rfl,rfl⟩⟩

theorem flushReset (p) {c} (reset : Reset c) (now) : baFlushReorderingTimeoutMpdus p c now = c := by
  simp [baFlushReorderingTimeoutMpdus,reset.2,ReorderingList.empty]

theorem Session.flush (p) {gap c} (h : Session gap c) (low : 1 ≤ gap) (high : gap ≤ 2)
    (now) : Session gap (baFlushReorderingTimeoutMpdus p c now) := by
  rcases h.shape with reset | ⟨last,window⟩
  · rwa [flushReset p reset]
  · rcases flushCases p now (window.mono low) h.winHigh with same | refreshed | ⟨out,keep,w,up,_,cut,held,eq⟩
    · rwa [same]
    · rw [refreshed]
      exact h.refresh.setTimer now
    · rw [eq]
      refine ⟨h.winLow,h.winHigh,quietHandUp h.quiet out keep,Or.inr ⟨w,?_⟩⟩
      have shifted : Window 2 w (shift c out keep w now) :=
        ⟨rfl,handUpCounted c out keep,held.mono (le_refl _) (by simp [shift,Ctx.setTimer,Ctx.setLast]; omega)⟩
      exact shifted.mono high

theorem Session.legacyPacket (p) {gap c} (h : Session gap c) (low : 1 ≤ gap) (high : gap ≤ 2)
    (rx now) : Session gap (indicateLegacyPacket p c rx now) := by
  unfold indicateLegacyPacket legacyFlush
  split
  · exact h.emit (by simp)
  · split
    · exact (h.flush p low high now).emit (by simp)
    · exact h.emit (by simp)

theorem Session.legacy (p) {gap c} (h : Session gap c) (low : 1 ≤ gap) (high : gap ≤ 2)
    (rx now) : Session gap (indicateLegacyOrAmsdu p c rx now) := by
  unfold indicateLegacyOrAmsdu indicateEapolPacket
  split
  · exact h.emit (by simp)
  · split
    · split
      · exact h.legacyPacket p low high rx now
      · exact h.emit (by simp)
    · exact h.legacyPacket p low high rx now

theorem drainReset {c} (reset : Reset c) (startSeq) : drainInOrder c startSeq = c := by
  have counted : c.entry.list.Counted := by
    rw [reset.2]
    rfl
  have none := handUpNone counted
  have empty : c.entry.list.next = [] := by rw [reset.2]; rfl
  rw [empty] at none
  simp [drainInOrder,inOrderEq counted,empty,runSplit,none,lastOf]

theorem Session.drain {c} (h : Session 1 c) : Session 2 (drainInOrder c c.entry.lastIndSeq) := by
  rcases h.shape with reset | ⟨v,window⟩
  · rw [drainReset reset]
    exact ⟨h.winLow,h.winHigh,h.quiet,Or.inl reset⟩
  · have win := h.winHigh
    obtain ⟨out,keep,v',le,_,cut,held,eq⟩ := drainShift window.lastIs window.counted window.held (by omega)
    rw [eq]
    refine ⟨h.winLow,h.winHigh,quietHandUp h.quiet out keep,Or.inr ⟨v',rfl,handUpCounted c out keep,?_⟩⟩
    exact held.mono (le_refl _) (by simp [Ctx.setLast]; omega)

theorem Session.enqueue (p) {gap} {c : Ctx} {v} (rx : RxBlk) (now)
    (h : Session gap c) (window : Window gap v c) (low : 1 ≤ gap)
    (fromGap : v + gap ≤ lift 4096 v rx.sequence) (toEnd : lift 4096 v rx.sequence ≤ v + c.entry.baWinSize)
    (eap : rx.eap = false) (alloc : Event.allocFailed ∉ (baEnqueueReorderingPacket p c rx now).log) :
    Session gap (baEnqueueReorderingPacket p c rx now) := by
  have win := h.winHigh
  obtain ⟨addr,free,next',held,⟨scan,eq⟩ | ⟨scan,same,eq⟩⟩ := enqueueCases p rx now window.counted
    window.held fromGap toEnd (by omega) (by omega) eap alloc
  · rw [eq]
    exact ⟨h.winLow,h.winHigh,h.quiet,Or.inr ⟨v,window.lastIs,rfl,held⟩⟩
  · rw [eq]
    exact ⟨h.winLow,h.winHigh,quietEmit h.quiet (by simp),Or.inr ⟨v,window.lastIs,rfl,held⟩⟩

theorem Session.inOrder (p) {c last} (rx now now')
    (h : Session 2 c) (window : Window 2 last c) (next : lift 4096 last rx.sequence = last + 1) :
    Session 2 (inOrderArrival p c rx now now') := by
  have moved : Session 1 (c.setLast rx.sequence) :=
    ⟨h.winLow,h.winHigh,h.quiet,Or.inr ⟨_,window.advanced rx next⟩⟩
  exact (moved.legacy p (le_refl _) (by decide) rx now').drain.setTimer now

theorem Session.surpassing (p : Platform) {c last} (rx : RxBlk) (now now')
    (h : Session 2 c) (window : Window 2 last c) (past : last + c.entry.baWinSize < lift 4096 last rx.sequence)
    (ahead : lift 4096 last rx.sequence < last + 2048) (eap : rx.eap = false)
    (alloc : Event.allocFailed ∉ (surpassingArrival p c rx now now').log) :
    Session 2 (surpassingArrival p c rx now now') := by
  have low := h.winLow
  obtain ⟨out,keep,w,_,_,cut,loose,number,eq⟩ := surpassShift p now now' window low h.winHigh past ahead
  rw [eq] at alloc ⊢
  have moved : Session 1 (shift c out keep w now) :=
    ⟨low,h.winHigh,quietHandUp h.quiet out keep,Or.inr ⟨w,loose⟩⟩
  have queued := extendsQueued p _ rx now' moved.counted
  have alloc' := fun mem => alloc ((extendsParts.drain _ _ queued.counted).grows.subset mem)
  refine (Session.enqueue p rx now' moved loose (le_refl _) ?_ ?_ eap alloc').drain
  · rw [number]
    omega
  · rw [number]
    exact le_refl _

theorem Session.classify (p : Platform) {c last} (rx : RxBlk) (now now')
    (h : Session 2 c) (window : Window 2 last c) (eap : rx.eap = false)
    (alloc : Event.allocFailed ∉ (classify p c rx now now').log) : Session 2 (classify p c rx now now') := by
  rcases classifyCases p rx now now' window.lastIs h.winHigh with
    ⟨one,eq⟩ | ⟨_,eq⟩ | ⟨low,high,eq⟩ | ⟨_,past,ahead,eq⟩
  · rw [eq]
    exact h.inOrder p rx now now' window one
  · rw [eq]
    exact ⟨h.winLow,h.winHigh,quietEmit h.quiet (by simp),Or.inr ⟨last,window.1,window.2,window.3⟩⟩
  · rw [eq] at alloc ⊢
    exact h.enqueue p rx now' window (by decide) low high eap alloc
  · rw [eq] at alloc ⊢
    exact h.surpassing p rx now now' window past ahead eap alloc

theorem Session.arrived (p) {c} (h : Session 2 c) (rx now) : Session 2 (arrived p c rx now) := by
  have start : Session 2 {c with entry.rcvSeq := rx.sequence} :=
    ⟨h.winLow,h.winHigh,h.quiet,h.shape.imp (fun r => r) fun ⟨last,w⟩ => ⟨last,w.1,w.2,w.3⟩⟩
  exact (start.flush p (by decide) (le_refl _) now).setTimer now

theorem Session.first (p) {c} (h : Session 2 c) (reset : Reset c) (rx now now') :
    Session 2 (firstArrival p c rx now now') := by
  have list : c.entry.list = .empty := reset.2
  have pass : c.assert (c.entry.list.qlen == 0 && c.entry.list.next.isEmpty) = c := by
    simp [Ctx.assert,list,ReorderingList.empty]
  have fresh : Session 2 ((c.setLast rx.sequence).setTimer now) := by
    refine ⟨h.winLow,h.winHigh,h.quiet,Or.inr ⟨rx.sequence,?_,?_,?_⟩⟩
    · exact (seqOfNat rx.sequence.isLt).symm
    · simp only [Ctx.setLast,Ctx.setTimer,list]
      rfl
    · simp only [Ctx.setLast,Ctx.setTimer,list]
      exact Held.nil _ _ _
  simp only [firstArrival,pass]
  exact fresh.legacy p (by decide) (le_refl _) rx now'

theorem Session.receive (p : Platform) {c} (h : Session 2 c) (rx : RxBlk) (now now')
    (eap : rx.eap = false) (alloc : Event.allocFailed ∉ (receiveAmpdu p c rx now now').log) :
    Session 2 (receiveAmpdu p c rx now now') := by
  have flushed := h.arrived p rx now
  unfold receiveAmpdu at alloc ⊢
  rcases flushed.shape with reset | ⟨last,window⟩
  · rw [if_pos reset.1]
    exact flushed.first p reset rx now now'
  · have set : (ReorderEngine.arrived p c rx now).entry.lastIndSeq ≠ resetRcvSeq := by
      rw [window.lastIs]
      exact seqOfNotReset last
    rw [if_neg set] at alloc ⊢
    exact flushed.classify p rx now now' window eap alloc

theorem barCases {c last} (window : Window 2 last c) (win : c.entry.baWinSize ≤ 255) (startSeq : Fin 4096) :
    let w := lift 4096 last startSeq
    ((w = last ∨ last + 2048 < w) ∧ blockAckReq c startSeq = c) ∨
    (last < w ∧ w ≤ last + 2048 ∧ ∃ out keep, Cut last w c.entry.list.next out keep ∧
      Held last (w + 1) (last + c.entry.baWinSize) keep ∧
      blockAckReq c startSeq = (handUp c out keep).setLast (seqOf (w - 1))) := by
  intro w
  have lower : last ≤ w := liftLower (by decide) last startSeq
  have upper : w < last + 4096 := liftUpper (by decide) last startSeq
  have s := startSeq.isLt
  have residue : w % 4096 = startSeq := by
    rw [show w % 4096 = (startSeq : Int) % 4096 from liftResidue 4096 last startSeq]
    omega
  have ahead : seqSmaller c.entry.lastIndSeq startSeq maxSeq = true ↔ last < w ∧ w ≤ last + 2048 := by
    rw [seqSmallerIff,window.lastIs,seqOfCast]
    omega
  unfold blockAckReq
  by_cases h : last < w ∧ w ≤ last + 2048
  · rw [if_pos (ahead.mpr h)]
    refine Or.inr ⟨h.1,h.2,?_⟩
    obtain ⟨out,keep,cut,held,eq⟩ := leSeqShift (w := w) window.counted window.held (by omega) (by omega)
    have here : (startSeq : Nat) = seqOf w := by
      have := seqOfCast w
      omega
    have before : (if (startSeq : Nat) = 0 then maxSeq else startSeq - 1) = seqOf (w - 1) := by
      have limit : maxSeq = 4095 := rfl
      unfold seqOf
      split <;> omega
    rw [before,here,eq]
    exact ⟨out,keep,cut,held,rfl⟩
  · rw [if_neg (mt ahead.mp h)]
    exact Or.inl ⟨by omega,rfl⟩

theorem Session.bar {c} (h : Session 2 c) (startSeq : Fin 4096) : Session 2 (blockAckReq c startSeq) := by
  rcases h.shape with reset | ⟨last,window⟩
  · -- RESET_RCV_SEQ counts as 4095 in the comparison; there is nothing to flush
    unfold blockAckReq
    split
    · have list : c.entry.list = .empty := reset.2
      have small : (if (startSeq : Nat) = 0 then maxSeq else startSeq - 1) < 4096 := by
        have := startSeq.isLt
        unfold maxSeq
        split <;> omega
      rw [leSeqEq h.counted,list]
      exact ⟨h.winLow,h.winHigh,quietHandUp h.quiet [] [],
        Or.inr ⟨_,(seqOfNat small).symm,rfl,Held.nil _ _ _⟩⟩
    · exact h
  · rcases barCases window h.winHigh startSeq with ⟨_,eq⟩ | ⟨low,high,out,keep,cut,held,eq⟩
    · rwa [eq]
    · rw [eq]
      refine ⟨h.winLow,h.winHigh,quietHandUp h.quiet out keep,Or.inr ⟨_,rfl,handUpCounted c out keep,?_⟩⟩
      exact (held.rebase (by omega) (by omega)).mono (by omega) (by simp only [Ctx.setLast,handUp]; omega)

theorem recWinSizeBounds (bufSize rxBaWinLimit) :
    1 ≤ recWinSize bufSize rxBaWinLimit ∧ recWinSize bufSize rxBaWinLimit ≤ 255 := by
  simp only [recWinSize]
  split <;> omega

theorem Session.fill {c} (quiet : Event.assertFailed ∉ c.log) (empty : c.entry.list = .empty)
    (wcid rxBaWinLimit req) : Session 2 (fillSession c wcid rxBaWinLimit req) := by
  have win := recWinSizeBounds req.bufSize rxBaWinLimit
  simp only [fillSession,Ctx.assert,empty,ReorderingList.empty,beq_self_eq_true,if_true]
  exact ⟨win.1,win.2,quiet,Or.inl ⟨rfl,rfl⟩⟩

theorem Session.reAddba {c} (h : Session 2 c) (wcid rxBaWinLimit req) :
    Session 2 (reAddba c wcid rxBaWinLimit req) := by
  have refreshed : Session 2 (baRefreshReorderingMpdus c) := h.refresh
  refine Session.fill refreshed.quiet ?_ wcid rxBaWinLimit req
  rw [refreshEq h.counted]
  rfl

theorem Session.idle {c} (h : Session 2 c) (now) : Session 2 (baRecSessionIdleTimeout c now) := by
  unfold baRecSessionIdleTimeout
  split
  · exact h.refresh
  · exact h

inductive SessionOp where
  | ampdu (rx : RxBlk) (now now' : Time)
  | legacy (rx : RxBlk) (now : Time)
  | bar (startSeq : Fin 4096)
  | idle (now : Time)
  | addba (wcid rxBaWinLimit : Nat) (req : AddbaReq)
  | pool (free : ReorderingList)

def sessionStep (p : Platform) (c : Ctx) : SessionOp → Ctx
  | .ampdu rx now now' => indicateAmpdu p c rx now now'
  | .legacy rx now => indicateLegacyPacket p c rx now
  | .bar startSeq => blockAckReq c startSeq
  | .idle now => baRecSessionIdleTimeout c now
  | .addba wcid rxBaWinLimit req => reAddba c wcid rxBaWinLimit req
  | .pool free => {c with freelist := free}

def SessionOp.eap : SessionOp → Bool
  | .ampdu rx _ _ => rx.eap
  | _ => false

def Undisturbed (p : Platform) (c : Ctx) (op : SessionOp) : Prop :=
  op.eap = false ∧ Event.allocFailed ∉ (sessionStep p c op).log

instance (p : Platform) (c : Ctx) (op : SessionOp) : Decidable (Undisturbed p c op) := by
  unfold Undisturbed; infer_instance

theorem Session.step (p : Platform) {c} (h : Session 2 c) {op}
    (ok : Undisturbed p c op) : Session 2 (sessionStep p c op) := by
  obtain ⟨eap,alloc⟩ := ok
  cases op with
  | ampdu rx now now' =>
    simp only [sessionStep,indicateAmpdu] at alloc ⊢
    split
    · exact h.emit (by simp)
    · rename_i size
      rw [if_neg size] at alloc
      exact h.receive p rx now now' eap alloc
  | legacy rx now =>
    simp only [sessionStep,indicateLegacyPacket,legacyFlush]
    split
    · exact h.emit (by simp)
    · split
      · exact (h.flush p (by decide) (le_refl _) now).emit (by simp)
      · exact h.emit (by simp)
  | bar startSeq => exact h.bar startSeq
  | idle now => exact h.idle now
  | addba wcid rxBaWinLimit req => exact h.reAddba wcid rxBaWinLimit req
  | pool free =>
    exact ⟨h.winLow,h.winHigh,h.quiet,h.shape.imp (fun r => r) fun ⟨last,w⟩ => ⟨last,w.1,w.2,w.3⟩⟩

def distance (e : RecEntry) (m : Mpdu) : Int := ((m.sequence : Int) - e.lastIndSeq) % 4096

structure WindowInvariant (e : RecEntry) : Prop where
  counted : e.list.qlen = e.list.next.length
  bounded : e.list.qlen ≤ e.baWinSize
  shape : (e.lastIndSeq = resetRcvSeq ∧ e.list.next = []) ∨
    (e.lastIndSeq ≤ maxSeq ∧ e.list.next.Pairwise (fun a b => distance e a < distance e b) ∧
      ∀ m ∈ e.list.next, m.sequence ≤ maxSeq ∧ 2 ≤ distance e m ∧ distance e m ≤ e.baWinSize)

theorem distanceKey {e last} (lastIs : e.lastIndSeq = seqOf last) (m) : distance e m = key last m - last := by
  have cast := seqOfCast last
  simp only [distance,key,lift,lastIs,cast]
  omega

theorem Session.invariant {c} (h : Session 2 c) : WindowInvariant c.entry := by
  rcases h.shape with ⟨last,empty⟩ | ⟨last,window⟩
  · exact ⟨h.counted,by rw [empty]; exact Nat.zero_le _,Or.inl ⟨last,by rw [empty]; rfl⟩⟩
  · refine ⟨window.counted,window.room (by decide),Or.inr ⟨?_,?_,?_⟩⟩
    · rw [window.lastIs]
      exact Nat.le_of_lt_succ (seqOfLt last)
    · refine window.held.sorted.imp ?_
      intro a b less
      rw [distanceKey window.lastIs,distanceKey window.lastIs]
      omega
    · intro m mem
      have seq := window.held.seq m mem
      have low := window.held.low m mem
      have high := window.held.high m mem
      rw [distanceKey window.lastIs]
      exact ⟨Nat.le_of_lt_succ seq,by omega,by omega⟩

structure Opened (c : Ctx) : Prop where
  reset : c.entry.lastIndSeq = resetRcvSeq
  empty : c.entry.list = .empty
  window : 1 ≤ c.entry.baWinSize ∧ c.entry.baWinSize ≤ 255
  quiet : Event.assertFailed ∉ c.log

theorem openedFill {c} (quiet : Event.assertFailed ∉ c.log) (empty : c.entry.list = .empty)
    (wcid rxBaWinLimit req) : Opened (fillSession c wcid rxBaWinLimit req) := by
  have h := Session.fill quiet empty wcid rxBaWinLimit req
  refine ⟨rfl,?_,⟨h.winLow,h.winHigh⟩,h.quiet⟩
  simp only [fillSession,Ctx.assert,empty,ReorderingList.empty,beq_self_eq_true,if_true]

theorem reorderingWindow (p : Platform) {c : Ctx} {ops : List SessionOp} (opened : Opened c)
    (undisturbed : Meets (sessionStep p) (Undisturbed p) c ops) :
    Always (sessionStep p) (fun c => WindowInvariant c.entry ∧ Event.assertFailed ∉ c.log) c ops := by
  have start : Session 2 c :=
    ⟨opened.window.1,opened.window.2,opened.quiet,Or.inl ⟨opened.reset,opened.empty⟩⟩
  exact alwaysMono (fun _ h => ⟨h.invariant,h.quiet⟩)
    (invariant (fun _ _ h ok => h.step p ok) start undisturbed)

def sampleFrame (packet : Nat) (sequence : Fin 4096) : RxBlk :=
  ⟨packet,1,0,sequence,false,false,0,100,false⟩

def sampleSession : Ctx :=
  fillSession ⟨⟨0,0,0,0,0,0,0,0,.none,.empty⟩,baReorderingResourceInit 4,[]⟩ 1 8 ⟨0,8,0⟩

theorem reorderingWindowAcrossWrap :
    Always (sessionStep samplePlatform) (fun c => WindowInvariant c.entry ∧ Event.assertFailed ∉ c.log)
      sampleSession [.ampdu (sampleFrame 0 4095) 10 10,.ampdu (sampleFrame 1 3) 11 11,
        .ampdu (sampleFrame 2 1) 12 12,.ampdu (sampleFrame 3 0) 13 13,.bar 6,.idle 5000] :=
  reorderingWindow samplePlatform (openedFill (by decide) rfl 1 8 ⟨0,8,0⟩) (by decide +kernel)

def Rejected (lastIndSeq seq : Nat) : Prop :=
  ((seq : Int) - lastIndSeq) % 4096 = 0 ∨ 2048 ≤ ((seq : Int) - lastIndSeq) % 4096

instance (lastIndSeq seq : Nat) : Decidable (Rejected lastIndSeq seq) := by
  unfold Rejected; infer_instance

structure NoRedelivery (c : Ctx) (startSeq : Fin 4096) (delivered : List (Fin 4096)) : Prop where
  flushed : ∀ packet seq amsdu,
    Event.up packet seq amsdu ∈ (blockAckReq c startSeq).log.drop c.log.length →
      Rejected (blockAckReq c startSeq).entry.lastIndSeq seq
  before : ∀ y ∈ delivered, Rejected c.entry.lastIndSeq y →
    Rejected (blockAckReq c startSeq).entry.lastIndSeq y

def BarSafe (e : RecEntry) (startSeq : Fin 4096) (delivered : List (Fin 4096)) : Prop :=
  ((startSeq : Int) - e.lastIndSeq) % 4096 = 0 ∨ 2048 < ((startSeq : Int) - e.lastIndSeq) % 4096 ∨
  ((∀ m ∈ e.list.next, m.sequence ≠ startSeq) ∧
    ∀ y ∈ delivered, Rejected e.lastIndSeq y →
      ((e.lastIndSeq : Int) - y) % 4096 + ((startSeq : Int) - e.lastIndSeq) % 4096 ≤ 2049)

theorem windowOfInvariant {c} (h : WindowInvariant c.entry) (set : c.entry.lastIndSeq ≤ maxSeq) :
    Window 2 c.entry.lastIndSeq c := by
  have lastIs : c.entry.lastIndSeq = seqOf c.entry.lastIndSeq := (seqOfNat (Nat.lt_succ_of_le set)).symm
  rcases h.shape with ⟨reset,_⟩ | ⟨_,sorted,bounds⟩
  · rw [reset] at set
    exact absurd set (by decide)
  · refine ⟨lastIs,h.counted,fun m mem => Nat.lt_succ_of_le (bounds m mem).1,sorted.imp ?_,?_,?_⟩
    · intro a b less
      rw [distanceKey lastIs,distanceKey lastIs] at less
      omega
    · intro m mem
      have := (bounds m mem).2.1
      rw [distanceKey lastIs] at this
      omega
    · intro m mem
      have := (bounds m mem).2.2
      rw [distanceKey lastIs] at this
      omega

theorem rejectedKey {w : Int} {seq : Nat} {k : Int} (residue : k % 4096 = seq) (below : w - k < 2048)
    (above : k ≤ w) : Rejected (seqOf (w - 1)) seq ↔ k ≠ w := by
  unfold Rejected
  rw [seqOfCast]
  omega

theorem flushedRejected {last w hi next out keep} {startSeq : Nat}
    (held : Held last (last + 2) hi next) (cut : Cut last w next out keep) (kept : Held last (w + 1) hi keep)
    (residue : w % 4096 = startSeq) (near : w ≤ last + 2048) (close : hi < w + 2048) :
    (∀ m ∈ out, Rejected (seqOf (w - 1)) m.sequence) ↔ ∀ m ∈ next, m.sequence ≠ startSeq := by
  have rejected (m : Mpdu) (mem : m ∈ out) : Rejected (seqOf (w - 1)) m.sequence ↔ key last m ≠ w := by
    have inside : m ∈ next := by rw [cut.parts]; exact mem_append_left _ mem
    have low := held.low m inside
    exact rejectedKey (keyResidue (held.seq m inside) last) (by omega) (cut.upTo m mem)
  constructor
  · intro all m mem same
    have number := keyResidue (held.seq m mem) last
    rw [cut.parts] at mem
    rcases mem_append.mp mem with up | stay
    · have low := held.low m (by rw [cut.parts]; exact mem)
      have high := cut.upTo m up
      exact (rejected m up).mp (all m up) (equalOfResidue (m := 4096) (by omega) (by omega) (by omega))
    · have low := kept.low m stay
      have high := kept.high m stay
      omega
  · intro absent m mem
    refine (rejected m mem).mpr fun same => ?_
    have inside : m ∈ next := by rw [cut.parts]; exact mem_append_left _ mem
    have number := keyResidue (held.seq m inside) last
    exact absent m inside (by omega)

theorem beforeRejected {last w y} (low : last < w) (high : w ≤ last + 2048) (rejected : Rejected (seqOf last) y) :
    Rejected (seqOf (w - 1)) y ↔ ((seqOf last : Int) - y) % 4096 + (w - last) ≤ 2049 := by
  have cast := seqOfCast last
  have cast' := seqOfCast (w - 1)
  unfold Rejected at *
  omega

theorem barNoRedelivery {c : Ctx} (invariant : WindowInvariant c.entry)
    (set : c.entry.lastIndSeq ≤ maxSeq) (win : c.entry.baWinSize ≤ 255) (startSeq : Fin 4096)
    (delivered : List (Fin 4096)) :
    NoRedelivery c startSeq delivered ↔ BarSafe c.entry startSeq delivered := by
  have window := windowOfInvariant invariant set
  have offset : ((startSeq : Int) - c.entry.lastIndSeq) % 4096 =
    lift 4096 c.entry.lastIndSeq startSeq - c.entry.lastIndSeq := by simp [lift]
  have residue := liftResidue 4096 c.entry.lastIndSeq startSeq
  unfold BarSafe
  rw [offset]
  rcases barCases window win startSeq with ⟨place,eq⟩ | ⟨low,high,out,keep,cut,kept,eq⟩
  · -- the BAR is ignored: nothing goes up and LastIndSeq stays
    constructor
    · intro _
      omega
    · intro _
      refine ⟨?_,?_⟩ <;> rw [eq]
      · simp
      · exact fun y _ rejected => rejected
  · generalize lift 4096 c.entry.lastIndSeq startSeq = w at *
    have start : w % 4096 = (startSeq : Nat) := by omega
    have up := flushedRejected window.held cut kept start high (by omega)
    have lastIs := window.lastIs
    have log : (blockAckReq c startSeq).log.drop c.log.length = out.map upOf := by
      rw [eq]
      exact drop_left
    have last : (blockAckReq c startSeq).entry.lastIndSeq = seqOf (w - 1) := by rw [eq]; rfl
    have old (y : Fin 4096) (rejected : Rejected c.entry.lastIndSeq y) :
        Rejected (seqOf (w - 1)) y ↔
          ((c.entry.lastIndSeq : Int) - y) % 4096 + (w - c.entry.lastIndSeq) ≤ 2049 := by
      have h := beforeRejected (y := y) low high (by rw [← lastIs]; exact rejected)
      rwa [← lastIs] at h
    constructor
    · intro h
      refine Or.inr (Or.inr ⟨up.mp ?_,?_⟩)
      · intro m mem
        rw [← last]
        exact h.flushed m.packet m.sequence m.bAmsdu (by rw [log]; exact mem_map_of_mem mem)
      · intro y mem rejected
        exact (old y rejected).mp (by rw [← last]; exact h.before y mem rejected)
    · intro safe
      have safe := safe.resolve_left (by omega) |>.resolve_left (by omega)
      refine ⟨?_,?_⟩
      · intro packet seq amsdu mem
        rw [log] at mem
        obtain ⟨m,inside,same⟩ := mem_map.mp mem
        cases same
        rw [last]
        exact up.mpr safe.1 m inside
      · intro y mem rejected
        rw [last]
        exact (old y rejected).mpr (safe.2 y mem rejected)

def sampleBuffered : Ctx :=
  run (sessionStep samplePlatform) sampleSession
    [.ampdu (sampleFrame 0 100) 10 10,.ampdu (sampleFrame 1 102) 11 11]

theorem sampleBufferedSession : Session 2 sampleBuffered := by
  have start : Session 2 sampleSession := Session.fill (by decide) rfl 1 8 ⟨0,8,0⟩
  exact alwaysLast (invariant (fun _ _ h ok => h.step samplePlatform ok) start (by decide +kernel))

theorem barBeforeBuffered : NoRedelivery sampleBuffered 101 [100] := by
  refine (barNoRedelivery sampleBufferedSession.invariant (by decide +kernel) (by decide +kernel) 101
    [100]).mpr (Or.inr (Or.inr ⟨by decide +kernel,?_⟩))
  intro y mem _
  rw [mem_singleton.mp mem]
  decide +kernel

theorem barRedelivers : WindowInvariant sampleBuffered.entry ∧ sampleBuffered.entry.lastIndSeq ≤ maxSeq ∧
    ¬ NoRedelivery sampleBuffered 102 [] ∧
    (run (sessionStep samplePlatform) sampleBuffered [.bar 102,.ampdu (sampleFrame 2 102) 12 12]).log =
      [.up 0 100 false,.up 1 102 false,.up 2 102 false] := by
  refine ⟨sampleBufferedSession.invariant,by decide +kernel,?_,by decide +kernel⟩
  intro h
  have rejected := h.flushed 1 102 false (by decide +kernel)
  exact absurd rejected (by decide +kernel)

end RtmpDriver.ReorderSession
