import RtmpDriver.McuSender

/-! The completion and the tasklet, and the runs in which the messages keep to their lives: those in which no response
and no completion comes between the timeout of a wait and the end of its clean-up. -/
namespace RtmpDriver.McuLinear
open McuCommand (CmdMsgState Kind)
open Custody McuQueues McuLife McuSender StepMachine
open Function (update update_of_ne update_self)

section Elsewhere
variable {s t : McuCtrl} {stage : Nat → Stage} {n : Nat} {a b : Stage}

def others : Stage → Bool
  | .flying => true
  | .landing => true
  | .sent => true
  | .answering => true
  | .finished => true
  | .reaped => true
  | _ => false

theorem senderElsewhere {sender} (fits : SenderFits s.msgs stage sender) (before : stage n = a)
    (moves : Moves s t n a b) (loose : others a = true)
    (keeps : (s.msgs n).kind = .answered → a.out = true → b.out = true) (unlinking : sender ≠ .unlinking n) :
    SenderFits t.msgs (update stage n b) sender := by
  have kinds (k : Nat) : (t.msgs k).kind = (s.msgs k).kind := by
    by_cases same : k = n
    · rw [same,moves.kind]
    · rw [moves.msgs k same]
  have born := bornBefore moves.alive.1 moves.along
  cases sender <;> simp only [SenderFits,kinds,Function.update_apply] at fits ⊢
  all_goals grind [others]

theorem livesElsewhere (lives : Lives s stage) (before : stage n = a) (moves : Moves s t n a b)
    (same : t.sender = s.sender) (free : t.tasklet = s.tasklet ∨ ∀ k, k ≠ n → Tasklet.current s.tasklet ≠ some k)
    (life : Life t.sender t.tasklet n (t.msgs n) b) (loose : others a = true)
    (keeps : (s.msgs n).kind = .answered → a.out = true → b.out = true) (unlinking : s.sender ≠ .unlinking n)
    (tasklet : TaskletFits (update stage n b) t.tasklet) : Follows stage t := by
  refine lives.moved before moves life (fun k other alive => ?_) ?_ tasklet
  · rw [same]
    rcases free with still | idle
    · rwa [still]
    · exact lifeTasklet (idle k other) alive
  · rw [same]
    exact senderElsewhere lives.sender before moves loose keeps unlinking

end Elsewhere

section Completion
variable {s : McuCtrl} {stage : Nat → Stage} {n : Nat}

theorem livesFlying (lives : Lives s stage) (urb : (s.msgs n).urb = .submitted) : stage n = .flying := by
  have life := lives.life n
  cases now : stage n <;> simp_all [Life,Quiet,Urb.busy]

theorem livesLanding (lives : Lives s stage) {ok} (urb : (s.msgs n).urb = .finishing ok) : stage n = .landing := by
  have life := lives.life n
  cases now : stage n <;> simp_all [Life,Quiet,Urb.busy]

theorem needsRsp {kind : Kind} : kind.needRsp = true ↔ kind = .answered := by cases kind <;> simp [Kind.needRsp]

theorem completionFollows (lives : Lives s stage) (ok) (calm : ok = true → s.sender ≠ .killing n) :
    Follows stage (usbKickOutCmdMsgComplete s n ok) := by
  unfold usbKickOutCmdMsgComplete
  split
  next => exact ⟨stage,lives,fun _ => .inl rfl⟩
  next submitted =>
    have before := livesFlying lives (not_not.mp submitted)
    have life := lives.life n
    rw [before] at life
    have elsewhere : s.sender ≠ .unlinking n := by
      intro pc
      have fits := lives.sender
      rw [pc] at fits
      cases before.symm.trans fits
    split
    next out =>
      obtain ⟨pending,senders⟩ := life.2 (needsRsp.mp out.1)
      refine livesElsewhere lives before (b := .sent)
        ⟨fun k other => update_of_ne other _ _,by simp [change],?_,rfl,rfl,rfl,by decide,by decide⟩ rfl
        (.inl rfl) ?_ rfl (fun _ _ => rfl) elsewhere
        (taskletElsewhere lives.tasklet (by simp [before]) (by simp [before]))
      · simp only [Stage.queue,needsRsp.mp out.1]
        exact .same (some .ackq)
      · refine ⟨?_,?_,?_,?_,?_⟩
        · simpa [change] using needsRsp.mp out.1
        · simp [change]
        · simpa [change] using pending.1
        · simp [change]
        · have running := calm out.2
          simp only [change]
          tauto
    next back =>
      have member : n ∈ s.queues (queueOf (s.msgs n).kind) := by
        rw [lives.onQueue,before]
        rfl
      rw [unlinkOn member]
      refine livesElsewhere lives before (b := .landing)
        ⟨fun k other => update_of_ne other _ _,by simp [change],.taken _,rfl,rfl,rfl,by decide,by decide⟩ rfl
        (.inl rfl) ⟨ok,by simp [change],fun answered => ?_⟩ rfl (fun _ _ => rfl) elsewhere
        (taskletElsewhere lives.tasklet (by simp [before]) (by simp [before]))
      simp only [change,update_self] at answered ⊢
      have failed : ok = false := by
        rw [needsRsp] at back
        simpa [answered] using back
      exact ⟨failed,life.2 answered⟩

theorem completedFollows (lives : Lives s stage) : Follows stage (completed s n) := by
  unfold completed
  split
  next ok urb =>
    have before := livesLanding lives urb
    have life := lives.life n
    rw [before] at life
    obtain ⟨other,same,rest⟩ := life
    cases urb.symm.trans same
    have elsewhere : s.sender ≠ .unlinking n := by
      intro pc
      have fits := lives.sender
      rw [pc] at fits
      cases before.symm.trans fits
    have tasklet (b : Stage) : TaskletFits (update stage n b) s.tasklet :=
      taskletElsewhere lives.tasklet (by simp [before]) (by simp [before])
    cases kind : (s.msgs n).kind with
    | answered =>
      obtain ⟨failed,pending,senders⟩ := rest kind
      subst failed
      refine livesElsewhere lives before (b := .returned)
        ⟨fun k other => ?_,?_,?_,?_,?_,?_,by decide,by decide⟩ ?_ (.inl ?_) ⟨?_,?_,.inr (.inl ⟨?_,?_,?_⟩)⟩ rfl
        (fun _ _ => rfl) elsewhere ?_
      · simp [kickoutFailed,change,kind,Kind.needRsp,complete,other]
      all_goals simp [kickoutFailed,change,kind,Kind.needRsp,complete,Quiet,Urb.busy]
      · exact .same none
      · exact senders
      · exact tasklet _
    | posted =>
      have posts (state : CmdMsgState) (ends : final state = true) : Follows stage (andesQueueTailCmdMsg
          (change s n fun msg => { msg with urb := .done }) .txDoneq n state) := by
        refine livesElsewhere lives before (b := .finished)
          ⟨fun k other => ?_,?_,?_,?_,?_,?_,by decide,by decide⟩ ?_ (.inl ?_) ⟨?_,?_⟩ rfl
          (fun answered => by simp [kind] at answered) elsewhere ?_
        · simp [andesQueueTailCmdMsg,change,other]
        all_goals simp [andesQueueTailCmdMsg,change,Quiet,Urb.busy,ends]
        · exact .tail .txDoneq
        · exact tasklet _
      cases ok with
      | true => exact posts .txDone rfl
      | false =>
        simp only [Bool.false_eq_true,if_false,kickoutFailed]
        rw [if_neg (by simp [change,kind,Kind.needRsp])]
        exact posts .txKickoutFail rfl
  next => exact ⟨stage,lives,fun _ => .inl rfl⟩

end Completion

section TaskletSteps
variable {s : McuCtrl} {stage : Nat → Stage} {n : Nat}

theorem livesOnAckq (lives : Lives s stage) (member : n ∈ s.queues .ackq) (urb : (s.msgs n).urb = .done) :
    stage n = .sent := by
  rw [lives.onQueue] at member
  have life := lives.life n
  cases now : stage n <;> simp_all [Stage.queue,Life]

theorem respondFollows (lives : Lives s stage) (seq) (ordered : ∀ n ∈ answers s seq, (s.msgs n).urb = .done)
    (calm : ∀ n ∈ answers s seq, s.sender ≠ .timedOut n ∧ s.sender ≠ .unlinking n) :
    Follows stage (andesRxProcessCmdMsg s seq) := by
  have stays : Follows stage s := ⟨stage,lives,fun _ => .inl rfl⟩
  unfold andesRxProcessCmdMsg
  split
  next idle =>
    split
    next => exact stays
    next n found =>
      have member : n ∈ s.queues .ackq := List.mem_of_find?_eq_some found
      have before := livesOnAckq lives member (ordered n found)
      have life := lives.life n
      rw [before] at life
      obtain ⟨answered,urb,done,state,senders⟩ := life
      rw [unlinkOn member]
      refine livesElsewhere lives before (b := .answering)
        ⟨fun _ _ => rfl,rfl,.taken .ackq,rfl,rfl,rfl,by decide,by decide⟩ rfl (.inr fun k _ => ?_)
        ⟨answered,urb,done,state,rfl,?_⟩ rfl (fun _ _ => rfl) (calm n found).2 (update_self ..)
      · simp [idle,Tasklet.current]
      · have away := calm n found
        tauto
  next => exact stays

theorem reapFollows (lives : Lives s stage) : Follows stage (reap s) := by
  have stays : Follows stage s := ⟨stage,lives,fun _ => .inl rfl⟩
  unfold reap
  split
  next idle =>
    split
    next => exact stays
    next n rest txDoneq =>
      have member : n ∈ s.queues .txDoneq := by simp [txDoneq]
      have before := lives.onTxDoneq.mp member
      have life := lives.life n
      rw [before] at life
      rw [unlinkOn member]
      refine livesElsewhere lives before (b := .reaped)
        ⟨fun _ _ => rfl,rfl,.taken .txDoneq,rfl,rfl,rfl,by decide,by decide⟩ rfl (.inr fun k _ => ?_)
        ⟨life.1,life.2,rfl⟩ rfl (fun _ out => absurd out (by decide)) (fun pc => ?_) (update_self ..)
      · rw [idle]
        exact nofun
      · have fits := lives.sender
        rw [pc] at fits
        cases before.symm.trans fits
  next => exact stays

theorem taskletFollows (lives : Lives s stage) : Follows stage (taskletStep s) := by
  have fits := lives.tasklet
  unfold taskletStep
  split
  next => exact ⟨stage,lives,fun _ => .inl rfl⟩
  next n busy =>
    rw [busy] at fits
    have before : stage n = .answering := fits
    have life := lives.life n
    rw [before] at life
    obtain ⟨answered,urb,done,state,_,senders⟩ := life
    simp only [answered,Kind.needWait,if_true]
    refine livesElsewhere lives before (b := .returned)
      ⟨fun k other => update_of_ne other _ _,by simp [complete,change],.same none,rfl,rfl,rfl,by decide,
        by decide⟩ rfl (.inr fun k other => ?_) ⟨?_,?_,.inr (.inr ⟨?_,?_,senders⟩)⟩ rfl (fun _ _ => rfl) (fun pc => ?_)
      trivial
    · rw [busy]
      simpa [Tasklet.current] using Ne.symm other
    · simpa [complete,change] using answered
    · simp [complete,change,Quiet,urb,Urb.busy]
    · simp [complete,change]
    · simpa [complete,change] using state
    · simp [pc] at senders
  next n busy =>
    rw [busy] at fits
    have before : stage n = .reaped := fits
    have life := lives.life n
    rw [before] at life
    obtain ⟨quiet,ends,_⟩ := life
    simp only [ends,if_true]
    refine livesElsewhere lives before (b := .freed)
      ⟨fun _ _ => rfl,rfl,.same none,rfl,rfl,rfl,by decide,by decide⟩ rfl (.inr fun k other => ?_) quiet rfl
      (fun _ out => absurd out (by decide)) (fun pc => ?_) trivial
    · rw [busy]
      simpa [Tasklet.current] using Ne.symm other
    · have place := lives.sender
      rw [pc] at place
      cases before.symm.trans place

end TaskletSteps

section Runs
variable {s t : McuCtrl} {stage : Nat → Stage} {b : Stage}

theorem livesBegun (lives : Lives s stage) (idle : s.sender = .idle)
    (msgs : ∀ k, k ≠ s.count → t.msgs k = s.msgs k)
    (queues : Requeued s.count s.queues none (b.queue (t.msgs s.count).kind) t.queues)
    (freed : t.freed = if b = .freed then s.count :: s.freed else s.freed) (placed : t.misplaced = s.misplaced)
    (count : t.count = s.count + 1) (same : t.tasklet = s.tasklet) (along : b ∈ Stage.unborn.next)
    (life : Life t.sender t.tasklet s.count (t.msgs s.count) b)
    (sender : SenderFits t.msgs (update stage s.count b) t.sender) : Follows stage t := by
  have before : stage s.count = .unborn := (lives.unborn _).mpr (Nat.le_refl _)
  refine lives.shifted msgs (by rw [before]; exact queues) (by simp [before]) freed placed (fun k => ?_) life ?_ sender
    ?_ (.inr (by rwa [before]))
  · rw [count]
    by_cases here : k = s.count
    · subst here
      rw [update_self]
      refine ⟨fun none => ?_,fun less => absurd less (by omega)⟩
      subst none
      cases along with | tail _ there => cases there with | tail _ there => cases there
    · rw [update_of_ne here,lives.unborn k]
      omega
  · intro k _ alive
    rw [same]
    exact lifeSender (by rw [idle]; exact nofun) alive
  · rw [same]
    exact taskletElsewhere lives.tasklet (by simp [before]) (by simp [before])

theorem sendFollows (lives : Lives s stage) (kind ready) : Follows stage (send s kind ready) := by
  unfold send
  split
  next idle =>
    have quiet : Quiet (andesInitCmdMsg kind) := rfl
    cases ready with
    | true =>
      refine livesBegun lives (b := .waiting) idle (fun k other => ?_) (.tail .txq) rfl rfl rfl rfl (by decide)
        ⟨rfl,?_,?_⟩ ?_
      · simp [andesQueueTailCmdMsg,change,other]
      · simp [andesQueueTailCmdMsg,change,andesInitCmdMsg,Quiet,Urb.busy]
      · simp [andesQueueTailCmdMsg,change,andesInitCmdMsg,Fresh]
      · simp [SenderFits]
    | false =>
      refine livesBegun lives (b := .freed) idle (fun k other => update_of_ne other _ _) (.same none) rfl rfl rfl
        rfl (by decide) ?_ ?_
      · simpa [andesFreeCmdMsg,Life] using quiet
      · simp [andesFreeCmdMsg,SenderFits,idle]
  next => exact ⟨stage,lives,fun _ => .inl rfl⟩

def waitsFor : Sender → Option Nat
  | .waiting m => some m
  | _ => none

theorem timeoutFollows (lives : Lives s stage) (calm : ∀ m ∈ waitsFor s.sender, s.tasklet ≠ .acked m) :
    Follows stage (timeout s) := by
  have stays : Follows stage s := ⟨stage,lives,fun _ => .inl rfl⟩
  unfold timeout
  split
  next m pc =>
    split
    next => exact stays
    next unanswered =>
      have fits := lives.sender
      have life := lives.life m
      rw [pc] at fits life
      have elsewhere : stage m = .flying ∨ stage m = .landing ∨ stage m = .sent ∨ stage m = .returned := by
        have away := calm m (by rw [pc]; rfl)
        have out := fits.2
        cases now : stage m <;> simp_all [Stage.out,Life]
      rcases elsewhere with before | before | before | before
      all_goals
        rw [before] at life
        refine lives.movedBySender before (by rw [pc]; rfl) (fun _ _ => rfl) rfl (.same _) rfl ⟨by decide,.inl rfl⟩ ?_
          ⟨fits.1,by simp [Stage.out]⟩
        simp_all [Life,Returned]
  next => exact stays

/- The USB core runs the completion of a message before its response is delivered. That it never runs one after
usb_kill_urb has returned is part of the model. -/
def UsbOrdered (s : McuCtrl) : Event → Prop
  | .respond seq => ∀ n ∈ answers s seq, (s.msgs n).urb = .done
  | _ => True

/- No wait times out while the tasklet has the message off ackq and not completed yet; from the timeout until the sender
has taken the message off ackq the tasklet does not take it; and a URB that is being killed does not succeed. -/
def Calm (s : McuCtrl) : Event → Prop
  | .timeout => ∀ m ∈ waitsFor s.sender, s.tasklet ≠ .acked m
  | .respond seq => ∀ n ∈ answers s seq, s.sender ≠ .timedOut n ∧ s.sender ≠ .unlinking n
  | .complete n ok => ok = true → s.sender ≠ .killing n
  | _ => True

instance decidableUsbOrdered (s : McuCtrl) : ∀ e, Decidable (UsbOrdered s e)
  | .respond seq => inferInstanceAs (Decidable (∀ n ∈ answers s seq, (s.msgs n).urb = .done))
  | .send .. | .sender _ | .timeout | .complete .. | .completed _ | .reap | .tasklet => isTrue trivial

instance decidableCalm (s : McuCtrl) : ∀ e, Decidable (Calm s e)
  | .timeout => inferInstanceAs (Decidable (∀ m ∈ waitsFor s.sender, s.tasklet ≠ .acked m))
  | .respond seq =>
    inferInstanceAs (Decidable (∀ n ∈ answers s seq, s.sender ≠ .timedOut n ∧ s.sender ≠ .unlinking n))
  | .complete n ok => inferInstanceAs (Decidable (ok = true → s.sender ≠ .killing n))
  | .send .. | .sender _ | .completed _ | .reap | .tasklet => isTrue trivial

theorem stepFollows (lives : Lives s stage) (e) (ordered : UsbOrdered s e) (calm : Calm s e) :
    Follows stage (step s e) := by
  cases e with
  | send kind ready => exact sendFollows lives kind ready
  | sender ok => exact senderFollows lives ok
  | timeout => exact timeoutFollows lives calm
  | complete n ok => exact completionFollows lives ok calm
  | completed n => exact completedFollows lives
  | respond seq => exact respondFollows lives seq ordered calm
  | reap => exact reapFollows lives
  | tasklet => exact taskletFollows lives

theorem initLives : Lives McuCtrl.init fun _ => .unborn :=
  ⟨fun _ => .empty nofun,.empty nofun,rfl,fun _ => ⟨fun _ => Nat.zero_le _,fun _ => rfl⟩,fun _ => rfl,trivial,trivial⟩

def InHand (s : McuCtrl) (n : Nat) : Prop :=
  Sender.current s.sender = some n ∨ Tasklet.current s.tasklet = some n ∨ ∃ ok, (s.msgs n).urb = .finishing ok

structure Linear (s : McuCtrl) : Prop where
  oneQueue : ∀ q r n, n ∈ s.queues q → n ∈ s.queues r → q = r
  once : ∀ q, (s.queues q).Nodup
  placed : s.misplaced = []
  gone : ∀ n ∈ s.freed, ∀ q, n ∉ s.queues q
  freedOnce : s.freed.Nodup
  kept : ∀ n < s.count, (∃ q, n ∈ s.queues q) ∨ InHand s n ∨ s.freed.count n = 1

theorem livesLinear (lives : Lives s stage) : Linear s := by
  refine ⟨fun q r n left right => ?_,fun q => (lives.queues q).nodup,lives.placed,fun n freed q on => ?_,
    lives.freed.nodup,fun n given => ?_⟩
  · exact Option.some.inj ((lives.queues q).onePlace (lives.queues r) left right)
  · rw [lives.onQueue,(lives.freed.mem n).mp freed] at on
    cases on
  · have born : stage n ≠ .unborn := fun unborn => absurd ((lives.unborn n).mp unborn) (by omega)
    have life := lives.life n
    have queue (q : Queue) (here : (stage n).queue (s.msgs n).kind = some q) : ∃ q, n ∈ s.queues q :=
      ⟨q,(lives.onQueue q).mpr here⟩
    cases now : stage n with
    | unborn => exact absurd now born
    | waiting => exact .inl (queue .txq (by rw [now]; rfl))
    | armed => exact .inl (queue _ (by rw [now]; rfl))
    | flying => exact .inl (queue _ (by rw [now]; rfl))
    | sent => exact .inl (queue .ackq (by rw [now]; rfl))
    | finished => exact .inl (queue .txDoneq (by rw [now]; rfl))
    | freed =>
      exact .inr (.inr (List.count_eq_one_of_mem lives.freed.nodup ((lives.freed.mem n).mpr now)))
    | landing =>
      rw [now] at life
      obtain ⟨ok,urb,_⟩ := life
      exact .inr (.inl (.inr (.inr ⟨ok,urb⟩)))
    | reaped =>
      rw [now] at life
      refine .inr (.inl (.inr (.inl ?_)))
      rw [life.2.2]
      rfl
    | picked | refused | answering | returned | spent =>
      rw [now] at life
      refine .inr (.inl (.inl ?_))
      simp only [Life,Returned] at life
      grind [Sender.current]

theorem commandsLinear (events : List Event) (ordered : Meets step UsbOrdered McuCtrl.init events)
    (calm : Meets step Calm McuCtrl.init events) : Always step Linear McuCtrl.init events := by
  have lives : Always step (fun s => ∃ stage, Lives s stage) McuCtrl.init events := by
    refine invariant ?_ ⟨_,initLives⟩ (meetsAnd ordered calm)
    rintro s e ⟨stage,now⟩ ⟨inOrder,quiet⟩
    obtain ⟨later,follows,_⟩ := stepFollows now e inOrder quiet
    exact ⟨later,follows⟩
  exact alwaysMono (fun s ⟨stage,now⟩ => livesLinear now) lives

end Runs

def kickOut : List Event := .send .answered true :: List.replicate 6 (.sender true)

def secondAnswered : List Event :=
  kickOut ++ [.complete 0 true,.timeout] ++ List.replicate 9 (.sender true) ++
    [.complete 0 true,.respond 1,.tasklet,.sender true,.sender true,.reap,.tasklet]

theorem commandsLinearAnswered :
    (run step McuCtrl.init secondAnswered).freed = [0] ∧ Always step Linear McuCtrl.init secondAnswered :=
  ⟨by decide +kernel,commandsLinear secondAnswered (by decide +kernel) (by decide +kernel)⟩

def lateResponse : List Event := kickOut ++ [.complete 0 true,.timeout,.sender true,.respond 1,.sender true]

def lateCompletion : List Event := kickOut ++ [.timeout,.sender true,.complete 0 true,.sender true,.sender true]

theorem commandsTangled :
    (Meets step UsbOrdered McuCtrl.init lateResponse ∧ ¬ Always step Linear McuCtrl.init lateResponse ∧
      (run step McuCtrl.init lateResponse).misplaced = [(0,.ackq)]) ∧
    (Meets step UsbOrdered McuCtrl.init lateCompletion ∧ ¬ Always step Linear McuCtrl.init lateCompletion ∧
      0 ∈ (run step McuCtrl.init lateCompletion).queues .txq ∧
      0 ∈ (run step McuCtrl.init lateCompletion).queues .ackq) := by
  have twice : (run step McuCtrl.init lateResponse).misplaced = [(0,.ackq)] := by decide +kernel
  have onBoth : 0 ∈ (run step McuCtrl.init lateCompletion).queues .txq ∧
      0 ∈ (run step McuCtrl.init lateCompletion).queues .ackq := by decide +kernel
  refine ⟨⟨by decide +kernel,fun linear => ?_,twice⟩,⟨by decide +kernel,fun linear => ?_,onBoth⟩⟩
  · cases twice.symm.trans (alwaysLast linear).placed
  · cases (alwaysLast linear).oneQueue .txq .ackq 0 onBoth.1 onBoth.2

end RtmpDriver.McuLinear
