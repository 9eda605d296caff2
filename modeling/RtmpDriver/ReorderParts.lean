import RtmpDriver.ReorderEngine

/-! The parts that the handlers of one recipient session are made of. A relation that holds across each part holds
across every handler, so that a fact about the handlers is proved about the parts only. -/
namespace RtmpDriver.ReorderParts
open ReorderList ReorderEngine

structure Parts (R : Ctx → Ctx → Prop) : Prop where
  refl : ∀ c, R c c
  trans : ∀ {a b c}, R a b → R b c → R a c
  emit : ∀ c e, R c (c.emit e)
  last : ∀ c seq, R c (c.setLast seq)
  timer : ∀ c now, R c (c.setTimer now)
  counts : ∀ c drops rcv, R c {c with entry.nDropPacket := drops, entry.rcvSeq := rcv}
  head : ∀ c, R c (announceHead c).2

section
variable {R : Ctx → Ctx → Prop} (parts : Parts R)
include parts

theorem Parts.asserted (c holds) : R c (c.assert holds) := by
  unfold Ctx.assert
  split
  · exact parts.refl c
  · exact parts.emit c _

theorem Parts.leSeq (c sequence) : R c (baIndicateReorderingMpdusLeSeq c sequence) := by
  unfold baIndicateReorderingMpdusLeSeq
  generalize c.entry.list.next.length = fuel
  induction fuel generalizing c with
  | zero => exact parts.refl c
  | succ fuel ih =>
    have head := parts.head c
    unfold leSeqLoop
    split
    · exact parts.refl c
    · split
      · split <;> rename_i eq <;> rw [eq] at head
        · exact parts.trans head (ih _)
        · exact head
      · exact parts.refl c

theorem Parts.drain (c startSeq) : R c (drainInOrder c startSeq) := by
  have loop (fuel start lastIndSeq : Nat) (c : Ctx) : R c (inOrderLoop fuel c start lastIndSeq).1 := by
    induction fuel generalizing c start lastIndSeq with
    | zero => exact parts.refl c
    | succ fuel ih =>
      have head := parts.head c
      unfold inOrderLoop
      split
      · exact parts.refl c
      · split
        · split <;> rename_i eq <;> rw [eq] at head
          · exact parts.trans head (ih ..)
          · exact head
        · exact parts.refl c
  have drained := loop c.entry.list.next.length startSeq resetRcvSeq c
  simp only [drainInOrder]
  split
  · exact drained
  · exact parts.trans drained (parts.last ..)

theorem Parts.refresh (c) : R c (baRefreshReorderingMpdus c) := by
  have loop (fuel : Nat) (c : Ctx) : R c (refreshLoop fuel c) := by
    induction fuel generalizing c with
    | zero => exact parts.refl c
    | succ fuel ih =>
      have head := parts.head c
      unfold refreshLoop
      split <;> rename_i eq <;> rw [eq] at head
      · exact parts.trans head (parts.trans (parts.last ..) (ih _))
      · exact head
  exact parts.trans (parts.emit c _) (parts.trans (loop ..) (parts.trans (parts.asserted ..) (parts.last ..)))

theorem Parts.flush (p c now) : R c (baFlushReorderingTimeoutMpdus p c now) := by
  unfold baFlushReorderingTimeoutMpdus
  split
  · exact parts.refl c
  · split
    · exact parts.trans (parts.refresh c) (parts.timer ..)
    · split
      · have shifted := parts.trans (parts.leSeq c (cAnd (c.entry.lastIndSeq + 1) maxSeq)) (parts.timer _ now)
        exact parts.trans shifted (parts.trans (parts.last ..) (parts.drain ..))
      · exact parts.refl c

theorem Parts.legacyPacket (p c rx now) : R c (indicateLegacyPacket p c rx now) := by
  unfold indicateLegacyPacket legacyFlush
  split
  · exact parts.emit c _
  · split
    · exact parts.trans (parts.flush p c now) (parts.emit ..)
    · exact parts.emit c _

theorem Parts.legacy (p c rx now) : R c (indicateLegacyOrAmsdu p c rx now) := by
  unfold indicateLegacyOrAmsdu indicateEapolPacket
  split
  · exact parts.emit c _
  · split
    · split
      · exact parts.legacyPacket p c rx now
      · exact parts.emit c _
    · exact parts.legacyPacket p c rx now

theorem Parts.fallback (p c rx now) :
    R c (indicateLegacyOrAmsdu p ((baIndicateReorderingMpdusLeSeq c rx.sequence).setLast rx.sequence) rx now) :=
  parts.trans (parts.leSeq ..) (parts.trans (parts.last ..) (parts.legacy ..))

theorem Parts.arrived (p c rx now) : R c (arrived p c rx now) :=
  parts.trans (parts.counts c c.entry.nDropPacket rx.sequence) (parts.trans (parts.flush ..) (parts.timer ..))

theorem Parts.first (p c rx now now') : R c (firstArrival p c rx now now') := by
  have set := parts.trans (parts.asserted c (c.entry.list.qlen == 0 && c.entry.list.next.isEmpty))
    (parts.last _ rx.sequence)
  exact parts.trans set (parts.trans (parts.timer _ now) (parts.legacy ..))

theorem Parts.inOrder (p c rx now now') : R c (inOrderArrival p c rx now now') :=
  parts.trans (parts.trans (parts.last ..) (parts.legacy ..)) (parts.trans (parts.drain ..) (parts.timer ..))

theorem Parts.bar (c startSeq) : R c (blockAckReq c startSeq) := by
  unfold blockAckReq
  split
  · exact parts.trans (parts.leSeq ..) (parts.last ..)
  · exact parts.refl c

theorem Parts.idle (c now) : R c (baRecSessionIdleTimeout c now) := by
  unfold baRecSessionIdleTimeout
  split
  · exact parts.refresh c
  · exact parts.refl c

variable (queued : ∀ p c rx now, R c (baEnqueueReorderingPacket p c rx now))
include queued

theorem Parts.classified (p c rx now now') : R c (classify p c rx now now') := by
  have dropped : R c (dropPacket c rx) := parts.trans (parts.counts c _ c.entry.rcvSeq) (parts.emit ..)
  unfold classify
  split
  · exact parts.inOrder ..
  · split
    · exact dropped
    · split
      · exact dropped
      · split
        · exact queued ..
        · have moved := parts.trans (parts.leSeq c (winStartSeq rx.sequence c.entry.baWinSize))
            (parts.trans (parts.last _ (winStartSeq rx.sequence c.entry.baWinSize)) (parts.timer _ now))
          exact parts.trans moved (parts.trans (queued ..) (parts.drain ..))

theorem Parts.received (p c rx now now') : R (ReorderEngine.arrived p c rx now) (receiveAmpdu p c rx now now') := by
  unfold receiveAmpdu
  split
  · exact parts.first ..
  · exact parts.classified queued ..

end

end RtmpDriver.ReorderParts
