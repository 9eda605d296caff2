import RtmpDriver.AuthMachine

/-! The association state machine of `sta/assoc.c`, with its three timers and the messages queued for it. The log of a
state holds the requests taken in ASSOC_IDLE and the confirms. -/
namespace RtmpDriver.AssocMachine
open LlcSnap StepMachine ConfirmLog List
open AuthMachine (mlmeSuccess mlmeRejTimeout mlmeInvalidFormat mlmeFailNoResource mlmeStateMachineReject sampleAddr)

inductive Kind where
  | assoc
  | reassoc
  | disassoc
  deriving DecidableEq, Repr

inductive AssocState where
  | assocIdle
  | assocWaitRsp
  | reassocWaitRsp
  | disassocWaitRsp
  deriving DecidableEq, Repr

inductive CntlState where
  | cntlIdle
  | cntlWaitDisassoc
  | cntlWaitJoin
  | cntlWaitReassoc
  | cntlWaitStart
  | cntlWaitAuth
  | cntlWaitAssoc
  | cntlWaitAuth2
  | cntlWaitOidListScan
  | cntlWaitOidDisassoc
  | cntlWaitScanForConnect
  deriving DecidableEq, Repr

structure AssocReq where
  addr : Addr
  timeout : Nat

structure DisassocReq where
  addr : Addr
  reason : UInt16

structure PeerDisassoc where
  addr2 : Addr
  reason : UInt16

structure AssocRsp where
  addr2 : Addr
  status : UInt16
  ieType : UInt8
  supRateLen : UInt8

inductive Elem where
  | mlmeAssocReq (req : AssocReq)
  | mlmeReassocReq (req : AssocReq)
  | mlmeDisassocReq (req : DisassocReq)
  | peerDisassocReq (frame : PeerDisassoc)
  | peerAssocRsp (frame : AssocRsp)
  | peerReassocRsp (frame : AssocRsp)
  | assocTimeout
  | reassocTimeout
  | disassocTimeout

structure Env where
  blockAssoc : Bool
  outBuffer : Bool
  ieList : Bool
  infraOn : Bool
  commonBssid : Addr
  cntlState : CntlState

structure State where
  currState : AssocState
  bssid : Addr
  assocTimer : Option Nat
  reassocTimer : Option Nat
  disassocTimer : Option Nat
  queue : List Elem
  log : List (Entry Kind UInt16)

def State.conf (s : State) (k : Kind) (status : UInt16) : State := { s with log := s.log ++ [.confirm k status] }

def State.accept (s : State) (k : Kind) : State := { s with log := s.log ++ [.accepted k] }

def State.cancelTimer (s : State) : Kind → State
  | .assoc => { s with assocTimer := none }
  | .reassoc => { s with reassocTimer := none }
  | .disassoc => { s with disassocTimer := none }

def reset (k : Kind) (status : UInt16) (s : State) : State := { s with currState := .assocIdle }.conf k status

def mlmeAssocReqSanity (_ : AssocReq) : Bool := true

def mlmeAssocReqAction (env : Env) (req : AssocReq) (s : State) : State :=
  if env.blockAssoc then reset .assoc mlmeStateMachineReject s
  else if mlmeAssocReqSanity req then
    let s := { s with assocTimer := none, bssid := req.addr }
    if !env.outBuffer then reset .assoc mlmeFailNoResource s
    else { s with assocTimer := some req.timeout, currState := .assocWaitRsp }
  else reset .assoc mlmeInvalidFormat s

-- MlmeAux.Bssid is only set once there is a buffer
def mlmeReassocReqAction (env : Env) (req : AssocReq) (s : State) : State :=
  if env.blockAssoc then reset .reassoc mlmeStateMachineReject s
  else if mlmeAssocReqSanity req then
    let s := { s with reassocTimer := none }
    if !env.outBuffer then reset .reassoc mlmeFailNoResource s
    else { s with bssid := req.addr, reassocTimer := some (req.timeout * 2), currState := .reassocWaitRsp }
  else reset .reassoc mlmeInvalidFormat s

-- there is no check of bBlockAssoc
def mlmeDisassocReqAction (env : Env) (_ : DisassocReq) (s : State) : State :=
  if !env.outBuffer then reset .disassoc mlmeFailNoResource s
  else { s with disassocTimer := some 500, currState := .disassocWaitRsp }

def peerAssocRspSanity (frame : AssocRsp) : Bool :=
  frame.status != mlmeSuccess || (frame.ieType == 1 && decide (frame.supRateLen ≤ 12))

def peerRspAction (k : Kind) (env : Env) (frame : AssocRsp) (s : State) : State :=
  if !env.ieList then s
  else if peerAssocRspSanity frame then
    if frame.addr2 = s.bssid then reset k frame.status (s.cancelTimer k) else s
  else s

def peerAssocRspAction : Env → AssocRsp → State → State := peerRspAction .assoc

def peerReassocRspAction : Env → AssocRsp → State → State := peerRspAction .reassoc

/- LinkDown leaves this machine, its timers and its queue alone. -/
def peerDisassocAction (env : Env) (frame : PeerDisassoc) (s : State) : State :=
  if env.infraOn ∧ env.commonBssid = frame.addr2 then
    if env.cntlState = .cntlWaitDisassoc then { s.conf .disassoc mlmeSuccess with currState := .assocIdle }
    else { s with currState := .assocIdle }
  else s

def assocTimeoutAction : State → State := reset .assoc mlmeRejTimeout
def reassocTimeoutAction : State → State := reset .reassoc mlmeRejTimeout
def disassocTimeoutAction : State → State := reset .disassoc mlmeSuccess
def invalidStateWhenAssoc : State → State := reset .assoc mlmeStateMachineReject
def invalidStateWhenReassoc : State → State := reset .reassoc mlmeStateMachineReject
def invalidStateWhenDisassociate : State → State := reset .disassoc mlmeStateMachineReject

/- StateMachinePerformAction with the table of AssocStateMachineInit; the rest of the table is Drop. -/
def performAction (env : Env) (elem : Elem) (s : State) : State :=
  match s.currState,elem with
  | .assocIdle,.mlmeAssocReq req => mlmeAssocReqAction env req (s.accept .assoc)
  | .assocIdle,.mlmeReassocReq req => mlmeReassocReqAction env req (s.accept .reassoc)
  | .assocIdle,.mlmeDisassocReq req => mlmeDisassocReqAction env req (s.accept .disassoc)
  | _,.mlmeAssocReq _ => invalidStateWhenAssoc s
  | _,.mlmeReassocReq _ => invalidStateWhenReassoc s
  | _,.mlmeDisassocReq _ => invalidStateWhenDisassociate s
  | _,.peerDisassocReq frame => peerDisassocAction env frame s
  | .assocWaitRsp,.peerAssocRsp frame => peerAssocRspAction env frame s
  | .assocWaitRsp,.peerReassocRsp frame => peerAssocRspAction env frame s
  | .assocWaitRsp,.assocTimeout => assocTimeoutAction s
  | .reassocWaitRsp,.peerReassocRsp frame => peerReassocRspAction env frame s
  | .reassocWaitRsp,.peerAssocRsp frame => peerReassocRspAction env frame s
  | .reassocWaitRsp,.reassocTimeout => reassocTimeoutAction s
  | .disassocWaitRsp,.disassocTimeout => disassocTimeoutAction s
  | _,_ => s

def waitState : Kind → AssocState
  | .assoc => .assocWaitRsp
  | .reassoc => .reassocWaitRsp
  | .disassoc => .disassocWaitRsp

def timeoutElem : Kind → Elem
  | .assoc => .assocTimeout
  | .reassoc => .reassocTimeout
  | .disassoc => .disassocTimeout

def State.timer (s : State) : Kind → Option Nat
  | .assoc => s.assocTimer
  | .reassoc => s.reassocTimer
  | .disassoc => s.disassocTimer

inductive Event where
  | assocRequest (req : AssocReq)
  | reassocRequest (req : AssocReq)
  | disassocRequest (req : DisassocReq)
  | peerDisassoc (frame : PeerDisassoc)
  | assocResponse (frame : AssocRsp)
  | reassocResponse (frame : AssocRsp)
  | expire (k : Kind)
  | handle (env : Env)

def State.enqueue (s : State) (elem : Elem) : State := { s with queue := s.queue ++ [elem] }

def step (s : State) : Event → State
  | .assocRequest req => s.enqueue (.mlmeAssocReq req)
  | .reassocRequest req => s.enqueue (.mlmeReassocReq req)
  | .disassocRequest req => s.enqueue (.mlmeDisassocReq req)
  | .peerDisassoc frame => s.enqueue (.peerDisassocReq frame)
  | .assocResponse frame => s.enqueue (.peerAssocRsp frame)
  | .reassocResponse frame => s.enqueue (.peerReassocRsp frame)
  | .expire k => if (s.timer k).isSome then (s.cancelTimer k).enqueue (timeoutElem k) else s
  | .handle env =>
    match s.queue with
    | [] => s
    | elem :: rest => performAction env elem { s with queue := rest }

def initial (bssid : Addr) : State := ⟨.assocIdle,bssid,none,none,none,[],[]⟩

structure Sound (s : State) : Prop where
  idle : s.currState = .assocIdle → EachAnswered s.log
  waiting : ∀ k, s.currState = waitState k → Outstanding k s.log
  timed : ∀ k, s.currState = waitState k → (s.timer k).isSome ∨ timeoutElem k ∈ s.queue

def Answerable (env : Env) (s : State) : Elem → Prop
  | .mlmeAssocReq _ => s.currState = .assocIdle ∨ s.currState = waitState .assoc
  | .mlmeReassocReq _ => s.currState = .assocIdle ∨ s.currState = waitState .reassoc
  | .mlmeDisassocReq _ => s.currState = .assocIdle ∨ s.currState = waitState .disassoc
  | .peerDisassocReq frame => env.infraOn = true ∧ env.commonBssid = frame.addr2 →
      (s.currState = .assocIdle ∧ (env.cntlState = .cntlWaitDisassoc → .accepted .disassoc ∉ s.log)) ∨
        (s.currState = waitState .disassoc ∧ env.cntlState = .cntlWaitDisassoc)
  | _ => True

def Timely (s : State) : Event → Prop
  | .handle env => ∀ elem rest, s.queue = elem :: rest → Answerable env s elem
  | _ => True

def Confirmed (j : Kind) (s s' : State) : Prop :=
  s'.currState = .assocIdle ∧ ∃ status, s'.log = s.log ++ [.confirm j status]

def Abandoned (s s' : State) : Prop := s'.currState = .assocIdle ∧ s'.log = s.log

variable {s s' : State} {env : Env} {elem : Elem} {rest : List Elem} {k j : Kind}

theorem waitStateInj (same : waitState k = waitState j) : k = j := by
  cases k <;> cases j <;> first | rfl | cases same

theorem waitNotIdle (k) : waitState k ≠ .assocIdle := by cases k <;> decide

theorem idleSound (idle : s.currState = .assocIdle) (each : EachAnswered s.log) : Sound s := by
  have never : ∀ k, s.currState ≠ waitState k := by
    intro k
    rw [idle]
    exact (waitNotIdle k).symm
  exact ⟨fun _ => each,fun k wait => absurd wait (never k),fun k wait => absurd wait (never k)⟩

theorem resetConfirmed (k status s) : Confirmed k s (reset k status s) := ⟨rfl,status,rfl⟩

theorem confirmedSound (waits : Outstanding k s.log) (confirmed : Confirmed j s s') : Sound s' ↔ j = k := by
  obtain ⟨idle,status,log⟩ := confirmed
  rw [← waits.confirmed j status,← log]
  exact ⟨fun sound => sound.idle idle,idleSound idle⟩

theorem abandonedUnsound (waits : Outstanding k s.log) (abandoned : Abandoned s s') : ¬Sound s' := by
  intro sound
  have all := sound.idle abandoned.1
  rw [abandoned.2] at all
  exact waits.unanswered all

theorem stillSound (sound : Sound s) (wait : s.currState = waitState k) (shape : s.queue = elem :: rest)
    (other : elem ≠ timeoutElem k) : Sound { s with queue := rest } := by
  refine ⟨sound.idle,sound.waiting,fun j wait' => ?_⟩
  have same : j = k := waitStateInj (wait'.symm.trans wait)
  subst same
  rcases sound.timed j wait with armed | queued
  · exact .inl (by cases j <;> exact armed)
  · rw [shape] at queued
    exact .inr ((mem_cons.mp queued).resolve_left other.symm)

theorem rspCases (j env frame s) :
    peerRspAction j env frame s = s ∨ Confirmed j s (peerRspAction j env frame s) := by
  have same : (s.cancelTimer j).log = s.log := by cases j <;> rfl
  unfold peerRspAction
  split_ifs
  all_goals first | exact .inl rfl | exact .inr ⟨rfl,frame.status,by rw [← same]; rfl⟩

theorem waitingResponse (env frame) (wait : s.currState = waitState k)
    (response : elem = .peerAssocRsp frame ∨ elem = .peerReassocRsp frame) :
    performAction env elem s = s ∨ Confirmed k s (performAction env elem s) := by
  have action : performAction env elem s = if k = .disassoc then s else peerRspAction k env frame s := by
    rcases response with rfl | rfl <;> cases k <;>
      simp [performAction,wait,waitState,peerAssocRspAction,peerReassocRspAction]
  rw [action]
  split
  · exact .inl rfl
  · exact rspCases k env frame s

theorem waitingTimeout (env) (wait : s.currState = waitState k) (j) :
    (performAction env (timeoutElem j) s = s ∧ j ≠ k) ∨ Confirmed k s (performAction env (timeoutElem j) s) := by
  rcases eq_or_ne j k with rfl | other
  · refine .inr ?_
    cases j <;> simp [performAction,wait,waitState,timeoutElem,Confirmed,assocTimeoutAction,reassocTimeoutAction,
      disassocTimeoutAction,reset,State.conf]
  · refine .inl ⟨?_,other⟩
    cases j <;> cases k <;> first | exact absurd rfl other | simp [performAction,wait,waitState,timeoutElem]

theorem waitingRequest (env) (wait : s.currState = waitState k) :
    (∀ req, Confirmed .assoc s (performAction env (.mlmeAssocReq req) s)) ∧
      (∀ req, Confirmed .reassoc s (performAction env (.mlmeReassocReq req) s)) ∧
      ∀ req, Confirmed .disassoc s (performAction env (.mlmeDisassocReq req) s) := by
  have busy : s.currState ≠ .assocIdle := by
    rw [wait]
    exact waitNotIdle k
  refine ⟨fun req => ?_,fun req => ?_,fun req => ?_⟩ <;> simp only [performAction] <;> exact resetConfirmed _ _ s

theorem disassocAction (env frame s) :
    performAction env (.peerDisassocReq frame) s = peerDisassocAction env frame s := by
  unfold performAction
  cases s.currState <;> rfl

theorem busyWith (wait : s.currState = waitState k) (j) :
    s.currState = .assocIdle ∨ s.currState = waitState j ↔ j = k := by
  rw [wait]
  constructor
  · rintro (idle | same)
    · exact absurd idle (waitNotIdle k)
    · exact (waitStateInj same).symm
  · rintro rfl
    exact .inr rfl

theorem waitingDisassoc (env frame) (waits : Outstanding k s.log)
    (wait : s.currState = waitState k) (unchanged : Sound s) :
    Sound (peerDisassocAction env frame s) ↔ Answerable env s (.peerDisassocReq frame) := by
  simp only [peerDisassocAction,Answerable]
  split
  next ours =>
    rw [imp_iff_right ours,wait]
    split
    next asked =>
      have confirmed : Confirmed .disassoc s { s.conf .disassoc mlmeSuccess with currState := .assocIdle } :=
        ⟨rfl,_,rfl⟩
      rw [confirmedSound waits confirmed]
      constructor
      · rintro rfl
        exact .inr ⟨rfl,asked⟩
      · rintro (⟨idle,_⟩ | ⟨same,_⟩)
        · exact absurd idle (waitNotIdle k)
        · exact (waitStateInj same).symm
    next unasked =>
      refine iff_of_false (abandonedUnsound waits ⟨rfl,rfl⟩) ?_
      rintro (⟨idle,_⟩ | ⟨_,asked⟩)
      · exact waitNotIdle k idle
      · exact unasked asked
  next other => exact iff_of_true unchanged fun ours => absurd ours other

theorem waitingSound (env) (sound : Sound s) (wait : s.currState = waitState k) (shape : s.queue = elem :: rest) :
    Sound (performAction env elem { s with queue := rest }) ↔ Answerable env s elem := by
  have waits := sound.waiting k wait
  obtain ⟨assocReq,reassocReq,disassocReq⟩ := waitingRequest (s := { s with queue := rest }) env wait
  have response : ∀ frame, elem = .peerAssocRsp frame ∨ elem = .peerReassocRsp frame →
      Sound (performAction env elem { s with queue := rest }) := by
    intro frame is
    rcases waitingResponse (s := { s with queue := rest }) env frame wait is with same | confirmed
    · rw [same]
      refine stillSound sound wait shape ?_
      rcases is with rfl | rfl <;> cases k <;> simp [timeoutElem]
    · exact (confirmedSound waits confirmed).mpr rfl
  have timeout : ∀ j, elem = timeoutElem j → Sound (performAction env elem { s with queue := rest }) := by
    rintro j rfl
    rcases waitingTimeout (s := { s with queue := rest }) env wait j with ⟨same,other⟩ | confirmed
    · rw [same]
      refine stillSound sound wait shape ?_
      cases j <;> cases k <;> simp_all [timeoutElem]
    · exact (confirmedSound waits confirmed).mpr rfl
  cases elem with
  | mlmeAssocReq req => exact (confirmedSound waits (assocReq req)).trans (busyWith wait .assoc).symm
  | mlmeReassocReq req => exact (confirmedSound waits (reassocReq req)).trans (busyWith wait .reassoc).symm
  | mlmeDisassocReq req => exact (confirmedSound waits (disassocReq req)).trans (busyWith wait .disassoc).symm
  | peerDisassocReq frame =>
    have unchanged : Sound { s with queue := rest } := by
      refine stillSound sound wait shape ?_
      cases k <;> simp [timeoutElem]
    rw [disassocAction]
    exact waitingDisassoc (s := { s with queue := rest }) env frame waits wait unchanged
  | peerAssocRsp frame => exact iff_of_true (response frame (.inl rfl)) trivial
  | peerReassocRsp frame => exact iff_of_true (response frame (.inr rfl)) trivial
  | assocTimeout => exact iff_of_true (timeout .assoc rfl) trivial
  | reassocTimeout => exact iff_of_true (timeout .reassoc rfl) trivial
  | disassocTimeout => exact iff_of_true (timeout .disassoc rfl) trivial

def Taken (k : Kind) (s s' : State) : Prop :=
  (s'.currState = waitState k ∧ s'.log = s.log ++ [.accepted k] ∧ (s'.timer k).isSome = true) ∨
    (s'.currState = .assocIdle ∧ ∃ status, s'.log = s.log ++ [.accepted k,.confirm k status])

theorem takenSound (each : EachAnswered s.log) (taken : Taken k s s') : Sound s' := by
  rcases taken with ⟨wait,log,armed⟩ | ⟨idle,status,log⟩
  · refine ⟨fun idle => absurd (wait.symm.trans idle) (waitNotIdle k),fun j wait' => ?_,fun j wait' => ?_⟩
    · have same := waitStateInj (wait.symm.trans wait')
      subst same
      exact ⟨s.log,each,log⟩
    · have same := waitStateInj (wait.symm.trans wait')
      subst same
      exact .inl armed
  · refine idleSound idle ?_
    rw [log]
    exact (eachConfirmed each k k status).mpr rfl

theorem resetTaken (k status) (accepted : s'.log = s.log ++ [.accepted k]) : Taken k s (reset k status s') := by
  refine .inr ⟨rfl,status,?_⟩
  simp only [reset,State.conf,accepted,append_assoc,cons_append,nil_append]

theorem assocTaken (env req s) : Taken .assoc s (mlmeAssocReqAction env req (s.accept .assoc)) := by
  unfold mlmeAssocReqAction
  dsimp only
  split_ifs <;> first | exact resetTaken _ _ rfl | exact .inl ⟨rfl,rfl,rfl⟩

theorem reassocTaken (env req s) : Taken .reassoc s (mlmeReassocReqAction env req (s.accept .reassoc)) := by
  unfold mlmeReassocReqAction
  dsimp only
  split_ifs <;> first | exact resetTaken _ _ rfl | exact .inl ⟨rfl,rfl,rfl⟩

theorem disassocTaken (env req s) : Taken .disassoc s (mlmeDisassocReqAction env req (s.accept .disassoc)) := by
  unfold mlmeDisassocReqAction
  split
  · exact resetTaken _ _ rfl
  · exact .inl ⟨rfl,rfl,rfl⟩

theorem idleDisassoc (env frame) (idle : s.currState = .assocIdle) (each : EachAnswered s.log) :
    Sound (peerDisassocAction env frame s) ↔ Answerable env s (.peerDisassocReq frame) := by
  simp only [peerDisassocAction,Answerable]
  split
  next ours =>
    rw [imp_iff_right ours,idle]
    split
    next asked =>
      have unasked := eachUnasked each .disassoc mlmeSuccess
      constructor
      · intro sound
        exact .inl ⟨rfl,fun _ => unasked.mp (sound.idle rfl)⟩
      · rintro (⟨_,first⟩ | ⟨wait,_⟩)
        · exact idleSound rfl (unasked.mpr (first asked))
        · exact absurd wait.symm (waitNotIdle .disassoc)
    next other => exact iff_of_true (idleSound rfl each) (.inl ⟨rfl,fun asked => absurd asked other⟩)
  next other => exact iff_of_true (idleSound idle each) fun ours => absurd ours other

theorem handleIdle (env) (idle : s.currState = .assocIdle) (each : EachAnswered s.log) (elem) :
    Sound (performAction env elem s) ↔ Answerable env s elem := by
  have drop : performAction env elem s = s → (Answerable env s elem) →
      (Sound (performAction env elem s) ↔ Answerable env s elem) := by
    intro same condition
    rw [same]
    exact iff_of_true (idleSound idle each) condition
  have take {k s'} (action : performAction env elem s = s') (taken : Taken k s s') (ok : Answerable env s elem) :
      Sound (performAction env elem s) ↔ Answerable env s elem := by
    rw [action]
    exact iff_of_true (takenSound each taken) ok
  cases elem with
  | mlmeAssocReq req => exact take (by simp [performAction,idle]) (assocTaken env req s) (.inl idle)
  | mlmeReassocReq req => exact take (by simp [performAction,idle]) (reassocTaken env req s) (.inl idle)
  | mlmeDisassocReq req => exact take (by simp [performAction,idle]) (disassocTaken env req s) (.inl idle)
  | peerDisassocReq frame =>
    rw [disassocAction]
    exact idleDisassoc env frame idle each
  | peerAssocRsp frame => exact drop (by simp [performAction,idle]) trivial
  | peerReassocRsp frame => exact drop (by simp [performAction,idle]) trivial
  | assocTimeout => exact drop (by simp [performAction,idle]) trivial
  | reassocTimeout => exact drop (by simp [performAction,idle]) trivial
  | disassocTimeout => exact drop (by simp [performAction,idle]) trivial

theorem idleOrWaiting (s : State) : s.currState = .assocIdle ∨ ∃ k, s.currState = waitState k := by
  cases state : s.currState with
  | assocIdle => exact .inl rfl
  | assocWaitRsp => exact .inr ⟨.assoc,rfl⟩
  | reassocWaitRsp => exact .inr ⟨.reassoc,rfl⟩
  | disassocWaitRsp => exact .inr ⟨.disassoc,rfl⟩

theorem enqueueSound (sound : Sound s) (elem) : Sound (s.enqueue elem) := by
  refine ⟨sound.idle,sound.waiting,fun k wait => ?_⟩
  rcases sound.timed k wait with armed | queued
  · exact .inl (by cases k <;> exact armed)
  · exact .inr (mem_append_left _ queued)

theorem expireSound (sound : Sound s) (j) : Sound ((s.cancelTimer j).enqueue (timeoutElem j)) := by
  have state : ((s.cancelTimer j).enqueue (timeoutElem j)).currState = s.currState := by cases j <;> rfl
  have log : ((s.cancelTimer j).enqueue (timeoutElem j)).log = s.log := by cases j <;> rfl
  have queue : ((s.cancelTimer j).enqueue (timeoutElem j)).queue = s.queue ++ [timeoutElem j] := by cases j <;> rfl
  refine ⟨?_,?_,fun k wait => ?_⟩
  · rw [state,log]
    exact sound.idle
  · rw [state,log]
    exact sound.waiting
  · rw [state] at wait
    rw [queue]
    rcases eq_or_ne j k with rfl | other
    · exact .inr (mem_append_right _ (mem_singleton_self _))
    · rcases sound.timed k wait with armed | queued
      · refine .inl ?_
        cases j <;> cases k <;> first | exact absurd rfl other | exact armed
      · exact .inr (mem_append_left _ queued)

theorem stepSound (sound : Sound s) (event) : Sound (step s event) ↔ Timely s event := by
  cases event with
  | assocRequest req => exact iff_of_true (enqueueSound sound _) trivial
  | reassocRequest req => exact iff_of_true (enqueueSound sound _) trivial
  | disassocRequest req => exact iff_of_true (enqueueSound sound _) trivial
  | peerDisassoc frame => exact iff_of_true (enqueueSound sound _) trivial
  | assocResponse frame => exact iff_of_true (enqueueSound sound _) trivial
  | reassocResponse frame => exact iff_of_true (enqueueSound sound _) trivial
  | expire k =>
    refine iff_of_true ?_ trivial
    simp only [step]
    split
    · exact expireSound sound k
    · exact sound
  | handle env =>
    cases shape : s.queue with
    | nil => simpa [step,Timely,shape] using sound
    | cons elem rest =>
      have handled : step s (.handle env) = performAction env elem { s with queue := rest } := by simp [step,shape]
      have timely : Timely s (.handle env) ↔ Answerable env s elem := by simp [Timely,shape]
      rw [handled,timely]
      rcases idleOrWaiting s with idle | ⟨k,wait⟩
      · have popped := handleIdle (s := { s with queue := rest }) env idle (sound.idle idle) elem
        cases elem <;> exact popped
      · exact waitingSound env sound wait shape

theorem oneAssocConfirm (bssid : Addr) (events : List Event) :
    Always step Sound (initial bssid) events ↔ Meets step Timely (initial bssid) events :=
  alwaysIffMeets (fun _ sound => sound) (fun _ event sound _ condition => (stepSound sound event).mpr condition)
    (fun _ event sound _ after => (stepSound sound event).mp after) (idleSound rfl trivial) meetsTrue

def associated (cntlState : CntlState) : Env := ⟨false,true,true,true,sampleAddr,cntlState⟩

def disassociatedRun : State := run step (initial sampleAddr)
  [.assocRequest ⟨sampleAddr,300⟩,.handle (associated .cntlWaitAssoc),.peerDisassoc ⟨sampleAddr,8⟩,
    .handle (associated .cntlWaitAssoc)]

def oidDisassocRun : State := run step (initial sampleAddr)
  [.disassocRequest ⟨sampleAddr,8⟩,.handle (associated .cntlWaitOidDisassoc),.peerDisassoc ⟨sampleAddr,8⟩,
    .handle (associated .cntlWaitOidDisassoc)]

def crossedRun : State := run step (initial sampleAddr)
  [.assocRequest ⟨sampleAddr,300⟩,.handle (associated .cntlWaitAssoc),.reassocRequest ⟨sampleAddr,300⟩,
    .handle (associated .cntlWaitAssoc)]

theorem assocConfirmLost :
    (disassociatedRun.currState = .assocIdle ∧ disassociatedRun.log = [.accepted .assoc]) ∧
      (oidDisassocRun.currState = .assocIdle ∧ oidDisassocRun.log = [.accepted .disassoc]) ∧
      crossedRun.currState = .assocIdle ∧
        crossedRun.log = [.accepted .assoc,.confirm .reassoc mlmeStateMachineReject] :=
  ⟨⟨rfl,rfl⟩,⟨rfl,rfl⟩,rfl,rfl⟩

end RtmpDriver.AssocMachine
