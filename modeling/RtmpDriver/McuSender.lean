import RtmpDriver.McuLife

/-! The steps of the sender in andes_send_cmd_msg, each as a step of the life of the message it works for. -/
namespace RtmpDriver.McuSender
open McuCommand (CmdMsgState Kind)
open McuQueues McuLife
open Function (update update_of_ne update_self)

section SenderSteps
variable {s : McuCtrl} {stage : Nat → Stage} {m n : Nat}

section
variable (lives : Lives s stage)
include lives

theorem kickedOut (pc : s.sender = .loop m) (empty : s.queues .txq = []) :
    Follows stage (dequeue s m) := by
  have notWaiting : stage m ≠ .waiting := by
    intro waiting
    have member := lives.onTxq.mpr waiting
    rw [empty] at member
    cases member
  have fits := lives.sender
  have life := lives.life m
  rw [pc] at fits life
  refine ⟨stage,?_,fun _ => .inl rfl⟩
  simp only [dequeue,empty,afterKick]
  refine ⟨lives.queues,lives.freed,lives.placed,lives.unborn,fun k => ?_,?_,lives.tasklet⟩
  · by_cases same : k = m
    · subst same
      cases kind : (s.msgs k).kind <;> simp only [Kind.needWait,if_true] <;> cases now : stage k <;>
        simp_all [Life,Returned,SenderFits,Stage.out]
    · refine lifeSender ?_ (lives.life k)
      rw [pc]
      simpa [Sender.current] using Ne.symm same
  · cases kind : (s.msgs m).kind
    · simpa [SenderFits,kind,Kind.needWait] using fits.2.resolve_left notWaiting kind
    · simp [SenderFits,Kind.needWait]

theorem dequeued (pc : s.sender = .loop m) : Follows stage (dequeue s m) := by
  cases txq : s.queues .txq with
  | nil => exact kickedOut lives pc txq
  | cons n rest =>
    have member : n ∈ s.queues .txq := by simp [txq]
    have before := lives.onTxq.mp member
    have life := lives.life n
    rw [before,pc] at life
    obtain ⟨same,quiet,fresh⟩ := life
    cases same
    simp only [dequeue,txq]
    rw [unlinkOn member]
    exact lives.movedBySender before (b := .picked) (by rw [pc]; rfl) (fun _ _ => rfl) rfl (.taken .txq) rfl (by decide)
      ⟨.inl rfl,quiet,fresh⟩ ⟨rfl,update_self ..⟩

theorem livesInHand (pc : s.sender = .taken m n ∨ s.sender = .blocked m n ∨ s.sender = .cleared m n ∨
      s.sender = .numbered m n) :
    m = n ∧ stage n = .picked ∧ Sender.current s.sender = some n ∧ Quiet (s.msgs n) ∧ Fresh (s.msgs n) := by
  have fits := lives.sender
  have life := lives.life n
  rcases pc with pc | pc | pc | pc
  all_goals
    rw [pc] at fits
    obtain ⟨rfl,before⟩ := fits
    rw [before] at life
    exact ⟨rfl,before,by rw [pc]; rfl,life.2⟩

theorem tested (pc : s.sender = .taken m n) (ready) :
    Follows stage (taken s m n ready) := by
  obtain ⟨rfl,before,current,fresh⟩ := livesInHand lives (.inl pc)
  cases ready with
  | false =>
    cases kind : (s.msgs m).kind with
    | answered =>
      simp only [taken,kind,Kind.needRsp,if_true,Bool.false_eq_true,if_false]
      exact lives.movedBySender before (b := .returned) current (fun _ _ => rfl) rfl (.same none) rfl (by decide)
        ⟨kind,fresh.1,.inl ⟨fresh.2,.inl rfl⟩⟩ (by simp [SenderFits,Stage.out])
    | posted =>
      simp only [taken,kind,Kind.needRsp,Bool.false_eq_true,if_false,andesFreeCmdMsg]
      exact lives.movedBySender before (b := .freed) current (fun _ _ => rfl) rfl (.same none) rfl (by decide) fresh.1
        (by simp [SenderFits,kind])
  | true =>
    simp only [taken,if_true]
    split
    next =>
      exact lives.movedBySender before (b := .picked) current (fun _ _ => rfl) rfl (.same none) rfl (by decide)
        ⟨.inr (.inr (.inl rfl)),fresh⟩ ⟨rfl,update_self ..⟩
    next =>
      exact lives.movedBySender before (b := .picked) current (fun _ _ => rfl) rfl (.same none) rfl (by decide)
        ⟨.inr (.inl rfl),fresh⟩ ⟨rfl,update_self ..⟩

theorem blockedAgain (pc : s.sender = .blocked m n) :
    Follows stage { andesQueueHeadCmdMsg s .txq n (s.msgs n).state with sender := .loop m } := by
  obtain ⟨rfl,before,current,quiet,fresh⟩ := livesInHand lives (.inr (.inl pc))
  refine lives.movedBySender before (b := .waiting) current (fun k other => update_of_ne other _ _) ?_ (.head .txq) rfl
    (by decide) ?_ ?_
  · simp [andesQueueHeadCmdMsg,change]
  · simpa [andesQueueHeadCmdMsg,change,Life] using ⟨quiet,fresh⟩
  · simp [SenderFits]

theorem numberGiven (pc : s.sender = .cleared m n) : Follows stage (cleared s m n) := by
  obtain ⟨rfl,before,current,quiet,fresh⟩ := livesInHand lives (.inr (.inr (.inl pc)))
  have life (tasklet : Tasklet) (msg : CmdMsg) (urb : msg.urb = (s.msgs m).urb) (state : msg.state = (s.msgs m).state)
      (done : msg.ackDone = (s.msgs m).ackDone) : Life (.numbered m m) tasklet m msg .picked := by
    refine ⟨by simp,?_,?_⟩
    · rwa [Quiet,urb]
    · rwa [Fresh,state,done]
  have fits (msgs : Nat → CmdMsg) : SenderFits msgs (update stage m .picked) (.numbered m m) :=
    ⟨rfl,update_self ..⟩
  unfold cleared
  split
  · exact lives.movedBySender before (b := .picked) current (fun _ _ => rfl) rfl (.same none) rfl (by decide)
      (life _ _ rfl rfl rfl) (fits _)
  split <;> exact lives.movedBySender before (b := .picked) current (fun k other => update_of_ne other _ _)
    (by simp [change]) (.same none) rfl (by decide) (life _ _ (by simp [change]) (by simp [change]) (by simp [change]))
    (fits _)

theorem kickedOff (pc : s.sender = .numbered m n) : Follows stage (numbered s m n) := by
  obtain ⟨rfl,before,current,quiet,fresh⟩ := livesInHand lives (.inr (.inr (.inr pc)))
  refine lives.movedBySender before (b := .armed) current (fun k other => ?_) ?_ (.tail (queueOf (s.msgs m).kind)) rfl
    (by decide) ⟨.inl rfl,?_,?_⟩ ⟨rfl,update_self ..⟩
  · simp [numbered,andesQueueTailCmdMsg,change,other]
  · simp [numbered,andesQueueTailCmdMsg,change]
  · simp [numbered,andesQueueTailCmdMsg,change]
  · intro answered
    simp only [numbered,andesQueueTailCmdMsg,change,update_self] at answered
    simp [numbered,andesQueueTailCmdMsg,change,answered,Kind.needRsp,Pending,fresh.2]

theorem livesArmed (pc : s.sender = .queued m n ∨ s.sender = .failed m n) :
    m = n ∧ stage n = .armed ∧ Sender.current s.sender = some n ∧ (s.msgs n).urb = .unsent ∧
      ((s.msgs n).kind = .answered → Pending (s.msgs n)) := by
  have fits := lives.sender
  have life := lives.life n
  rcases pc with pc | pc
  all_goals
    rw [pc] at fits
    obtain ⟨rfl,before⟩ := fits
    rw [before] at life
    exact ⟨rfl,before,by rw [pc]; rfl,life.2⟩

theorem submitted (pc : s.sender = .queued m n) (submits) :
    Follows stage (queued s m n submits) := by
  obtain ⟨rfl,before,current,urb,pending⟩ := livesArmed lives (.inl pc)
  cases submits with
  | true =>
    refine lives.movedBySender before (b := .flying) current (fun k other => update_of_ne other _ _) ?_ (.same _) rfl
      (by decide) ?_ ?_
    · simp [queued,change]
    · simpa [queued,change,Life,Pending] using pending
    · simp [queued,SenderFits,Stage.out]
  | false =>
    exact lives.movedBySender before (b := .armed) current (fun _ _ => rfl) rfl (.same _) rfl (by decide)
      ⟨.inr rfl,urb,pending⟩ ⟨rfl,update_self ..⟩

theorem refusedUnlinked (pc : s.sender = .failed m n) :
    Follows stage { andesUnlinkCmdMsg s n (queueOf (s.msgs n).kind) with sender := .unlinked m n } := by
  obtain ⟨rfl,before,current,urb,pending⟩ := livesArmed lives (.inr pc)
  have member : m ∈ s.queues (queueOf (s.msgs m).kind) := by
    rw [lives.onQueue,before]
    rfl
  rw [unlinkOn member]
  exact lives.movedBySender before (b := .refused) current (fun _ _ => rfl) rfl (.taken _) rfl (by decide)
    ⟨rfl,by rw [Quiet,urb]; rfl⟩ ⟨rfl,update_self ..⟩

theorem refusedEnds (pc : s.sender = .unlinked m n) :
    Follows stage { kickoutFailed s n with sender := afterKick s m } := by
  have fits := lives.sender
  have life := lives.life n
  rw [pc] at fits
  obtain ⟨rfl,before⟩ := fits
  rw [before] at life
  have quiet : Quiet (s.msgs m) := life.2
  have current : Sender.current s.sender = some m := by rw [pc]; rfl
  cases kind : (s.msgs m).kind with
  | answered =>
    refine lives.movedBySender before (b := .returned) current (fun k other => ?_) ?_ ?_ ?_ (by decide)
      ⟨?_,?_,.inr (.inl ⟨?_,?_,?_⟩)⟩ ?_
    · simp [kickoutFailed,kind,Kind.needRsp,complete,change,other]
    all_goals simp [kickoutFailed,afterKick,kind,Kind.needRsp,Kind.needWait,complete,change,SenderFits,Stage.out]
    · exact .same none
    · exact quiet
  | posted =>
    refine lives.movedBySender before (b := .finished) current (fun k other => ?_) ?_ ?_ ?_ (by decide) ⟨?_,?_⟩ ?_
    · simp [kickoutFailed,kind,Kind.needRsp,andesQueueTailCmdMsg,change,other]
    all_goals
      simp [kickoutFailed,afterKick,kind,Kind.needRsp,Kind.needWait,andesQueueTailCmdMsg,change,SenderFits,final]
    · exact .tail .txDoneq
    · exact quiet

theorem livesCounted (before : stage m = .returned)
    (current : Sender.current s.sender = some m)
    {f} (kind : (f (s.msgs m)).kind = (s.msgs m).kind) (urb : (f (s.msgs m)).urb = (s.msgs m).urb)
    {state} (ends : final state = true) : Follows stage { change s m f with sender := .putAway m state } := by
  have life := lives.life m
  rw [before] at life
  obtain ⟨answered,quiet,_⟩ := life
  refine lives.movedBySender before (b := .spent) current (fun k other => update_of_ne other _ _) ?_ (.same none) rfl
    (by decide) ⟨?_,?_,state,rfl,ends⟩ (update_self ..)
  · simpa [change] using kind
  · simpa [change,kind] using answered
  · simpa [change,Quiet,urb] using quiet

theorem livesWakes (pc : s.sender = .waiting m) (done : (s.msgs m).ackDone = true) :
    stage m = .returned := by
  have fits := lives.sender
  have life := lives.life m
  rw [pc] at fits life
  obtain ⟨answered,out⟩ := fits
  cases now : stage m <;> simp_all [Stage.out,Life,Pending]

theorem waitEnds (pc : s.sender = .waiting m) (done : (s.msgs m).ackDone = true) :
    Follows stage (woken s m) := by
  have before := livesWakes lives pc done
  have current : Sender.current s.sender = some m := by rw [pc]; rfl
  have both (f : CmdMsg → CmdMsg) : change (change s m fun msg => { msg with ackDone := false }) m f =
      change s m fun msg => f { msg with ackDone := false } := by simp [change]
  unfold woken
  simp only [both]
  split
  · exact livesCounted lives before current rfl rfl rfl
  · exact livesCounted lives before current rfl rfl rfl

end

theorem timeoutSame (msg : CmdMsg) (times) :
    (if 0 < msg.retransmitTimes then { msg with retransmitTimes := times } else msg).kind = msg.kind ∧
      (if 0 < msg.retransmitTimes then { msg with retransmitTimes := times } else msg).urb = msg.urb := by
  split <;> exact ⟨rfl,rfl⟩

section
variable (lives : Lives s stage)
include lives

theorem timeoutSeen (pc : s.sender = .timedOut m) : Follows stage (timedOut s m) := by
  have fits := lives.sender
  have life := lives.life m
  rw [pc] at fits life
  obtain ⟨answered,out⟩ := fits
  have current : Sender.current s.sender = some m := by rw [pc]; rfl
  unfold timedOut
  split
  next pending =>
    have air : stage m = .flying ∨ stage m = .landing := by
      cases now : stage m <;> simp_all [Stage.out,Life,Returned,Fresh]
    rcases air with before | before
    all_goals
      rw [before] at life
      refine lives.movedBySender before current (fun _ _ => rfl) rfl (.same _) rfl ⟨by decide,.inl rfl⟩ ?_
        ⟨answered,by simp [Stage.out]⟩
      simp_all [Life]
  next =>
    split
    next acked =>
      have before : stage m = .sent := by
        cases now : stage m <;> simp_all [Stage.out,Life,Returned,Fresh,Pending]
      rw [before] at life
      refine lives.movedBySender before current (fun _ _ => rfl) rfl (.same _) rfl ⟨by decide,.inl rfl⟩ ?_
        (update_self ..)
      simp_all [Life]
    next =>
      have before : stage m = .returned := by
        cases now : stage m <;> simp_all [Stage.out,Life,Pending]
      exact livesCounted lives before current (timeoutSame _ _).1 (timeoutSame _ _).2 rfl

theorem killed (pc : s.sender = .killing m) (idle : ¬ (s.msgs m).urb.busy = true) :
    Follows stage (timeoutCounted s m) := by
  have fits := lives.sender
  have life := lives.life m
  rw [pc] at fits life
  obtain ⟨answered,out⟩ := fits
  have before : stage m = .returned := by
    cases now : stage m <;> simp_all [Stage.out,Life,Urb.busy]
  exact livesCounted lives before (by rw [pc]; rfl) (timeoutSame _ _).1 (timeoutSame _ _).2 rfl

theorem unlinkedInTime (pc : s.sender = .unlinking m) :
    Follows stage (timeoutCounted (andesUnlinkCmdMsg s m .ackq) m) := by
  have before := lives.sender
  rw [pc] at before
  have life := lives.life m
  rw [before] at life
  have member : m ∈ s.queues .ackq := by
    rw [lives.onQueue,before]
    rfl
  have same := timeoutSame (s.msgs m) ((s.msgs m).retransmitTimes - 1)
  rw [unlinkOn member]
  refine lives.movedBySender before (b := .spent) (by rw [pc]; rfl) (fun k other => update_of_ne other _ _) ?_
    (.taken .ackq) rfl (by decide) ⟨?_,?_,.txTimeoutFail,rfl,rfl⟩ (update_self ..)
  · simpa [timeoutCounted,change] using same.1
  · simpa [timeoutCounted,change] using same.1.trans life.1
  · simp only [timeoutCounted,change,update_self,Quiet]
    rw [same.2,life.2.1]
    rfl

theorem putAwayFollows {state} (pc : s.sender = .putAway m state) :
    Follows stage (putAway s m state) := by
  have before := lives.sender
  rw [pc] at before
  have life := lives.life m
  rw [before] at life
  obtain ⟨answered,quiet,last,same,ends⟩ := life
  rw [pc] at same
  cases same
  have current : Sender.current s.sender = some m := by rw [pc]; rfl
  unfold putAway
  split
  · refine lives.movedBySender before (b := .waiting) current (fun k other => ?_) ?_ (.head .txq) rfl (by decide)
      ⟨rfl,?_,?_⟩ ?_
    · simp [andesQueueHeadCmdMsg,change,other]
    all_goals simp [andesQueueHeadCmdMsg,change,SenderFits,Fresh]
    exact quiet
  · refine lives.movedBySender before (b := .finished) current (fun k other => ?_) ?_ (.tail .txDoneq) rfl (by decide)
      ⟨?_,?_⟩ ?_
    · simp [andesQueueTailCmdMsg,change,other]
    all_goals simp [andesQueueTailCmdMsg,change,SenderFits,ends]
    exact quiet

theorem senderFollows (ok) : Follows stage (senderStep s ok) := by
  have stays : Follows stage s := ⟨stage,lives,fun _ => .inl rfl⟩
  unfold senderStep
  split
  next => exact stays
  next m pc => exact dequeued lives pc
  next m n pc => exact tested lives pc ok
  next m n pc => exact blockedAgain lives pc
  next m n pc => exact numberGiven lives pc
  next m n pc => exact kickedOff lives pc
  next m n pc => exact submitted lives pc ok
  next m n pc => exact refusedUnlinked lives pc
  next m n pc => exact refusedEnds lives pc
  next m pc =>
    split
    next done => exact waitEnds lives pc done
    next => exact stays
  next m pc => exact timeoutSeen lives pc
  next m pc =>
    split
    next => exact stays
    next idle => exact killed lives pc idle
  next m pc => exact unlinkedInTime lives pc
  next m state pc => exact putAwayFollows lives pc

end

end SenderSteps

end RtmpDriver.McuSender
