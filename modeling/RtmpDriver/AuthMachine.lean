import RtmpDriver.ConfirmLog
import RtmpDriver.LlcSnap
import RtmpDriver.StepMachine

/-! The authentication state machine of `sta/auth.c`, with its timer and the messages queued for it. The log of a state
holds the requests taken in AUTH_REQ_IDLE and the confirms. MlmeEnqueue succeeds: the flags under which AuthTimeout
returns early are those under which it would not. -/
namespace RtmpDriver.AuthMachine
open LlcSnap StepMachine ConfirmLog

def mlmeSuccess : UInt16 := 0
def mlmeRejTimeout : UInt16 := 16
def mlmeInvalidFormat : UInt16 := 0x51
def mlmeFailNoResource : UInt16 := 0x52
def mlmeStateMachineReject : UInt16 := 0x53
def authModeOpen : UInt16 := 0
def authModeKey : UInt16 := 1
def authTimeoutValue : Nat := 300

inductive AuthState where
  | authReqIdle
  | authWaitSeq2
  | authWaitSeq4
  deriving DecidableEq, Repr

structure AuthReq where
  addr : Addr
  timeout : Nat
  alg : UInt16

structure PeerAuth where
  addr2 : Addr
  alg : UInt16
  seq : UInt16
  status : UInt16

inductive Elem where
  | mlmeAuthReq (req : AuthReq)
  | peerAuthEven (frame : PeerAuth)
  | authTimeout

structure Env where
  blockAssoc : Bool
  outBuffer : Bool
  chlgText : Bool
  cyperChlgText : Bool
  encrypted : Bool

structure State where
  currState : AuthState
  bssid : Addr
  alg : UInt16
  authTimer : Option Nat
  queue : List Elem
  log : List (Entry Unit UInt16)

def State.authConf (s : State) (status : UInt16) : State := { s with log := s.log ++ [.confirm () status] }

def State.accept (s : State) : State := { s with log := s.log ++ [.accepted ()] }

def mlmeAuthReqSanity (req : AuthReq) : Bool :=
  (req.alg == authModeKey || req.alg == authModeOpen) && req.addr.1.getD 0 0 &&& 0x01 == 0

def peerAuthSanity (frame : PeerAuth) : Bool :=
  if frame.alg = authModeOpen then frame.seq == 1 || frame.seq == 2
  else if frame.alg = authModeKey then frame.seq == 1 || frame.seq == 4 || frame.seq == 2 || frame.seq == 3
  else false

def authReqSend (env : Env) (req : AuthReq) (s : State) : Bool × State :=
  if env.blockAssoc then
    (true,{ s with currState := .authReqIdle }.authConf mlmeStateMachineReject)
  else if mlmeAuthReqSanity req then
    let s := { s with authTimer := none, bssid := req.addr, alg := req.alg }
    if !env.outBuffer then (false,{ s with currState := .authReqIdle }.authConf mlmeFailNoResource)
    else (true,{ s with authTimer := some req.timeout })
  else (false,s)

def mlmeAuthReqAction (env : Env) (req : AuthReq) (s : State) : State :=
  match authReqSend env req s with
  | (true,s) => { s with currState := .authWaitSeq2 }
  | (false,s) => { s with currState := .authReqIdle }.authConf mlmeInvalidFormat

def peerAuthRspAtSeq2Action (env : Env) (frame : PeerAuth) (s : State) : State :=
  if !env.chlgText then s
  else if !env.cyperChlgText then s
  else if peerAuthSanity frame then
    if s.bssid = frame.addr2 ∧ frame.seq = 2 then
      let s := { s with authTimer := none }
      if frame.status = mlmeSuccess then
        if s.alg = authModeOpen then { s with currState := .authReqIdle }.authConf frame.status
        else if !env.outBuffer then { s with currState := .authReqIdle }.authConf mlmeFailNoResource
        else if !env.encrypted then { s with currState := .authReqIdle }.authConf mlmeFailNoResource
        else { s with authTimer := some authTimeoutValue, currState := .authWaitSeq4 }
      else { s with currState := .authReqIdle }.authConf frame.status
    else s
  else s

def peerAuthRspAtSeq4Action (env : Env) (frame : PeerAuth) (s : State) : State :=
  if !env.chlgText then s
  else if peerAuthSanity frame then
    if s.bssid = frame.addr2 ∧ frame.seq = 4 then
      { s with authTimer := none, currState := .authReqIdle }.authConf frame.status
    else s
  else s

def authTimeoutAction (s : State) : State := { s with currState := .authReqIdle }.authConf mlmeRejTimeout

def invalidStateWhenAuth (s : State) : State :=
  { s with currState := .authReqIdle }.authConf mlmeStateMachineReject

/- StateMachinePerformAction with the table of AuthStateMachineInit; the rest of the table is Drop. -/
def performAction (env : Env) (elem : Elem) (s : State) : State :=
  match s.currState,elem with
  | .authReqIdle,.mlmeAuthReq req => mlmeAuthReqAction env req s.accept
  | .authWaitSeq2,.mlmeAuthReq _ => invalidStateWhenAuth s
  | .authWaitSeq2,.peerAuthEven frame => peerAuthRspAtSeq2Action env frame s
  | .authWaitSeq2,.authTimeout => authTimeoutAction s
  | .authWaitSeq4,.mlmeAuthReq _ => invalidStateWhenAuth s
  | .authWaitSeq4,.peerAuthEven frame => peerAuthRspAtSeq4Action env frame s
  | .authWaitSeq4,.authTimeout => authTimeoutAction s
  | _,_ => s

inductive Event where
  | request (req : AuthReq)
  | peer (frame : PeerAuth)
  | expire
  | handle (env : Env)

def step (s : State) : Event → State
  | .request req => { s with queue := s.queue ++ [.mlmeAuthReq req] }
  | .peer frame => { s with queue := s.queue ++ [.peerAuthEven frame] }
  | .expire => if s.authTimer.isSome then { s with authTimer := none, queue := s.queue ++ [.authTimeout] } else s
  | .handle env =>
    match s.queue with
    | [] => s
    | elem :: rest => performAction env elem { s with queue := rest }

def initial (bssid : Addr) (alg : UInt16) : State := ⟨.authReqIdle,bssid,alg,none,[],[]⟩

structure Sound (s : State) : Prop where
  idle : s.currState = .authReqIdle → EachAnswered s.log
  waiting : s.currState ≠ .authReqIdle → Outstanding () s.log
  timed : s.currState ≠ .authReqIdle → s.authTimer.isSome ∨ .authTimeout ∈ s.queue

def Unhindered (s : State) : Event → Prop
  | .handle env => ∀ req rest, s.queue = .mlmeAuthReq req :: rest → s.currState = .authReqIdle →
      env.blockAssoc = false ∧ (mlmeAuthReqSanity req = true → env.outBuffer = true)
  | _ => True

def Confirmed (s s' : State) : Prop :=
  s'.currState = .authReqIdle ∧ ∃ status, s'.log = s.log ++ [.confirm () status]

def Rearmed (s s' : State) : Prop :=
  s'.currState ≠ .authReqIdle ∧ s'.log = s.log ∧ s'.authTimer.isSome = true

variable {s s' : State} {env : Env} {req : AuthReq} {frame : PeerAuth} {elem : Elem} {rest : List Elem}

theorem seq2Cases (env frame s) :
    peerAuthRspAtSeq2Action env frame s = s ∨ Confirmed s (peerAuthRspAtSeq2Action env frame s) ∨
      Rearmed s (peerAuthRspAtSeq2Action env frame s) := by
  unfold peerAuthRspAtSeq2Action
  dsimp only
  split_ifs
  all_goals first | exact .inl rfl | exact .inr (.inl ⟨rfl,_,rfl⟩) | exact .inr (.inr ⟨by simp,rfl,rfl⟩)

theorem seq4Cases (env frame s) :
    peerAuthRspAtSeq4Action env frame s = s ∨ Confirmed s (peerAuthRspAtSeq4Action env frame s) := by
  unfold peerAuthRspAtSeq4Action
  split_ifs <;> first | exact .inl rfl | exact .inr ⟨rfl,_,rfl⟩

theorem waitingCases (env elem) (waits : s.currState ≠ .authReqIdle) :
    (performAction env elem s = s ∧ elem ≠ .authTimeout) ∨ Confirmed s (performAction env elem s) ∨
      Rearmed s (performAction env elem s) := by
  unfold performAction
  cases state : s.currState with
  | authReqIdle => exact absurd state waits
  | authWaitSeq2 =>
    cases elem with
    | mlmeAuthReq req => exact .inr (.inl ⟨rfl,_,rfl⟩)
    | peerAuthEven frame =>
      rcases seq2Cases env frame s with same | rest
      · exact .inl ⟨same,by simp⟩
      · exact .inr rest
    | authTimeout => exact .inr (.inl ⟨rfl,_,rfl⟩)
  | authWaitSeq4 =>
    cases elem with
    | mlmeAuthReq req => exact .inr (.inl ⟨rfl,_,rfl⟩)
    | peerAuthEven frame =>
      rcases seq4Cases env frame s with same | confirmed
      · exact .inl ⟨same,by simp⟩
      · exact .inr (.inl confirmed)
    | authTimeout => exact .inr (.inl ⟨rfl,_,rfl⟩)

theorem idleSound (idle : s.currState = .authReqIdle) (each : EachAnswered s.log) : Sound s :=
  ⟨fun _ => each,fun other => absurd idle other,fun other => absurd idle other⟩

theorem outstandingConfirmed (waits : Outstanding () s.log) (confirmed : Confirmed s s') : Sound s' := by
  obtain ⟨idle,status,log⟩ := confirmed
  refine idleSound idle ?_
  rw [log]
  exact (waits.confirmed () status).mpr rfl

theorem idleDrops (env) (idle : s.currState = .authReqIdle) (other : ∀ req, elem ≠ .mlmeAuthReq req) :
    performAction env elem s = s := by
  cases elem with
  | mlmeAuthReq req => exact absurd rfl (other req)
  | peerAuthEven frame => simp [performAction,idle]
  | authTimeout => simp [performAction,idle]

theorem waitingKeeps (sound : Sound s) (waits : s.currState ≠ .authReqIdle) (shape : s.queue = elem :: rest) :
    Sound (performAction env elem { s with queue := rest }) := by
  rcases waitingCases (s := { s with queue := rest }) env elem waits with ⟨same,other⟩ | confirmed | rearmed
  · rw [same]
    refine ⟨fun idle => absurd idle waits,fun _ => sound.waiting waits,fun _ => ?_⟩
    rcases sound.timed waits with armed | queued
    · exact .inl armed
    · rw [shape] at queued
      exact .inr ((List.mem_cons.mp queued).resolve_left other.symm)
  · exact outstandingConfirmed (s := { s with queue := rest }) (sound.waiting waits) confirmed
  · obtain ⟨still,log,armed⟩ := rearmed
    refine ⟨fun idle => absurd idle still,fun _ => ?_,fun _ => .inl armed⟩
    rw [log]
    exact sound.waiting waits

theorem requestBlocked (env : Env) (req) (s : State) (blocked : env.blockAssoc = true) :
    (mlmeAuthReqAction env req s.accept).currState = .authWaitSeq2 ∧ (mlmeAuthReqAction env req s.accept).log =
        s.log ++ [.accepted (),.confirm () mlmeStateMachineReject] := by
  simp [mlmeAuthReqAction,authReqSend,blocked,State.authConf,State.accept]

theorem requestInsane (env : Env) (req) (s : State) (free : env.blockAssoc = false)
    (insane : mlmeAuthReqSanity req = false) : (mlmeAuthReqAction env req s.accept).currState = .authReqIdle ∧
      (mlmeAuthReqAction env req s.accept).log = s.log ++ [.accepted (),.confirm () mlmeInvalidFormat] := by
  simp [mlmeAuthReqAction,authReqSend,free,insane,State.authConf,State.accept]

theorem requestNoBuffer (env : Env) (req) (s : State) (free : env.blockAssoc = false)
    (sane : mlmeAuthReqSanity req = true) (none : env.outBuffer = false) :
    (mlmeAuthReqAction env req s.accept).currState = .authReqIdle ∧ (mlmeAuthReqAction env req s.accept).log =
        s.log ++ [.accepted (),.confirm () mlmeFailNoResource,.confirm () mlmeInvalidFormat] := by
  simp [mlmeAuthReqAction,authReqSend,free,sane,none,State.authConf,State.accept]

theorem requestSent (env : Env) (req : AuthReq) (s : State) (free : env.blockAssoc = false)
    (sane : mlmeAuthReqSanity req = true) (buffer : env.outBuffer = true) :
    (mlmeAuthReqAction env req s.accept).currState = .authWaitSeq2 ∧
      (mlmeAuthReqAction env req s.accept).log = s.log ++ [.accepted ()] ∧
      (mlmeAuthReqAction env req s.accept).authTimer = some req.timeout := by
  simp [mlmeAuthReqAction,authReqSend,free,sane,buffer,State.accept]

theorem requestSound (env : Env) (req) (each : EachAnswered s.log) : Sound (mlmeAuthReqAction env req s.accept) ↔
      env.blockAssoc = false ∧ (mlmeAuthReqSanity req = true → env.outBuffer = true) := by
  cases blocked : env.blockAssoc with
  | true =>
    obtain ⟨state,log⟩ := requestBlocked env req s blocked
    refine iff_of_false (fun sound => ?_) (by simp)
    have waits := sound.waiting (by simp [state])
    rw [log,List.append_cons] at waits
    exact notOutstanding () () _ _ waits
  | false =>
    cases sane : mlmeAuthReqSanity req with
    | false =>
      obtain ⟨state,log⟩ := requestInsane env req s blocked sane
      refine iff_of_true (idleSound state ?_) (by simp)
      rw [log]
      exact (eachConfirmed each () () _).mpr rfl
    | true =>
      cases buffer : env.outBuffer with
      | false =>
        obtain ⟨state,log⟩ := requestNoBuffer env req s blocked sane buffer
        refine iff_of_false (fun sound => ?_) (by simp)
        have answered := sound.idle state
        rw [log] at answered
        exact notEachTwice each () _ _ answered
      | true =>
        obtain ⟨state,log,timer⟩ := requestSent env req s blocked sane buffer
        refine iff_of_true ⟨fun idle => ?_,fun _ => ⟨s.log,each,log⟩,fun _ => .inl ?_⟩ (by simp)
        · rw [state] at idle
          cases idle
        · rw [timer]
          rfl

theorem handleSound (sound : Sound s) (shape : s.queue = elem :: rest) :
    Sound (performAction env elem { s with queue := rest }) ↔ Unhindered s (.handle env) := by
  unfold Unhindered
  rcases Decidable.em (s.currState = .authReqIdle) with idle | waits
  · have each := sound.idle idle
    rcases Classical.em (∃ req, elem = .mlmeAuthReq req) with ⟨req,rfl⟩ | other
    · have action : performAction env (.mlmeAuthReq req) { s with queue := rest } =
          mlmeAuthReqAction env req ({ s with queue := rest } : State).accept := by
        simp [performAction,idle]
      rw [action,requestSound (s := { s with queue := rest }) env req each]
      constructor
      · intro condition req' rest' shape' _
        rw [shape] at shape'
        cases shape'
        exact condition
      · intro condition
        exact condition req rest shape idle
    · have drop := idleDrops (s := { s with queue := rest }) env idle (not_exists.mp other)
      rw [drop]
      refine iff_of_true (idleSound idle each) fun req rest' shape' _ => ?_
      rw [shape] at shape'
      cases shape'
      exact absurd ⟨req,rfl⟩ other
  · refine iff_of_true (waitingKeeps sound waits shape) ?_
    intro _ _ _ idle
    exact absurd idle waits

theorem stepSound (sound : Sound s) (event) : Sound (step s event) ↔ Unhindered s event := by
  have queued : ∀ elem, Sound { s with queue := s.queue ++ [elem] } := by
    intro elem
    refine ⟨sound.idle,sound.waiting,fun waits => ?_⟩
    exact (sound.timed waits).imp id fun queued => List.mem_append_left _ queued
  cases event with
  | request req => exact iff_of_true (queued _) trivial
  | peer frame => exact iff_of_true (queued _) trivial
  | expire =>
    refine iff_of_true ?_ trivial
    simp only [step]
    split
    · exact ⟨sound.idle,sound.waiting,fun _ => .inr (by simp)⟩
    · exact sound
  | handle env =>
    cases shape : s.queue with
    | nil => simpa [step,Unhindered,shape] using sound
    | cons elem rest =>
      have handled : step s (.handle env) = performAction env elem { s with queue := rest } := by simp [step,shape]
      rw [handled]
      exact handleSound sound shape

theorem initialSound (bssid : Addr) (alg) : Sound (initial bssid alg) :=
  idleSound rfl trivial

theorem oneAuthConfirm (bssid : Addr) (alg : UInt16) (events : List Event) :
    Always step Sound (initial bssid alg) events ↔ Meets step Unhindered (initial bssid alg) events :=
  alwaysIffMeets (fun _ sound => sound)
    (fun _ event sound _ condition => (stepSound sound event).mpr condition)
    (fun _ event sound _ after => (stepSound sound event).mp after) (initialSound bssid alg) meetsTrue

def sampleAddr : Addr := ⟨[0,1,2,3,4,5],rfl⟩

def sampleReq : AuthReq := ⟨sampleAddr,300,authModeOpen⟩

def blockedRun : State := run step (initial sampleAddr 0) [.request sampleReq,.handle ⟨true,true,true,true,true⟩]

def noBufferRun : State := run step (initial sampleAddr 0) [.request sampleReq,.handle ⟨false,false,true,true,true⟩]

theorem authConfirmFails :
    (blockedRun.currState = .authWaitSeq2 ∧ blockedRun.authTimer = none ∧ blockedRun.queue = []) ∧
      noBufferRun.log = [.accepted (),.confirm () mlmeFailNoResource,.confirm () mlmeInvalidFormat] :=
  ⟨⟨rfl,rfl,rfl⟩,rfl⟩

end RtmpDriver.AuthMachine
