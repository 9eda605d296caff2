import RtmpDriver.StepMachine
import RtmpDriver.WpaMoves

/-! When the 802.1X port opens. `Handshake` is what ought to have happened before: a PTK derived from the PMK, then a
message 3 accepted under it with the ANonce of the derivation. -/
namespace RtmpDriver.WpaPort
open EapolFrame WpaSupplicant WpaMic WpaMoves StepMachine List
open EapolBuild (sampleCrypto signedFrame)

def fromPmk (crypto : Crypto) (origin : Sta) (ptk aNonce : Bytes) : Prop :=
  ∃ sNonce, ptk = crypto.wpaDerivePtk origin.pmk aNonce origin.entry.addr sNonce origin.currentAddress

def Derived (crypto : Crypto) (origin : Sta) (ptk aNonce : Bytes) (log : List WpaEvent) : Prop :=
  .derived ptk aNonce ∈ log ∧ fromPmk crypto origin ptk aNonce

def Handshake (crypto : Crypto) (origin : Sta) (log : List WpaEvent) : Prop :=
  ∃ ptk before between after key,
    log = before ++ .derived ptk key.keyNonce :: (between ++ .accepted .pair3 ptk key :: after) ∧
    fromPmk crypto origin ptk key.keyNonce ∧ MicVerifies crypto ptk key

def Earned (crypto : Crypto) (origin : Sta) (log : List WpaEvent) : Prop :=
  ∀ before, before ++ [.secured] <+: log → Handshake crypto origin before

structure PortSafe (crypto : Crypto) (origin sta : Sta) : Prop where
  logged : sta.portSecured = true → .secured ∈ sta.log
  earned : Earned crypto origin sta.log

section Log
variable {crypto : Crypto} {origin : Sta} {ptk aNonce : Bytes} {log more : List WpaEvent}

theorem Derived.append (h : Derived crypto origin ptk aNonce log) :
    Derived crypto origin ptk aNonce (log ++ more) :=
  ⟨mem_append_left _ h.1,h.2⟩

theorem Handshake.append (h : Handshake crypto origin log) : Handshake crypto origin (log ++ more) := by
  obtain ⟨ptk,before,between,after,key,rfl,pmk,mic⟩ := h
  exact ⟨ptk,before,between,after ++ more,key,by simp,pmk,mic⟩

theorem handshakeAccepted {key} (derived : Derived crypto origin ptk key.keyNonce log)
    (mic : MicVerifies crypto ptk key) : Handshake crypto origin (log ++ [.accepted .pair3 ptk key]) := by
  obtain ⟨before,between,rfl⟩ := append_of_mem derived.1
  exact ⟨ptk,before,between,[],key,by simp,derived.2,mic⟩

theorem Earned.emit {e} (h : Earned crypto origin log) (other : e ≠ .secured) :
    Earned crypto origin (log ++ [e]) := by
  intro before pre
  rcases prefix_concat_iff.mp pre with whole | old
  · exact absurd (append_inj_right' whole rfl) (by simpa using Ne.symm other)
  · exact h before old

theorem Earned.open (h : Earned crypto origin log) (handshake : Handshake crypto origin log) :
    Earned crypto origin (log ++ [.secured]) := by
  intro before pre
  rcases prefix_concat_iff.mp pre with whole | old
  · rwa [append_inj_left' whole rfl]
  · exact h before old

theorem Earned.handshake (h : Earned crypto origin log) (opened : .secured ∈ log) :
    Handshake crypto origin log := by
  obtain ⟨before,after,rfl⟩ := append_of_mem opened
  exact (h before ⟨after,by simp⟩).append

end Log

def InTurn (crypto : Crypto) (sta : Sta) : WpaOp → Prop
  | .traffic _ _ => True
  | .eapolKey elem _ mem =>
    sta.portSecured = true ∨
      (Passes crypto sta elem mem .pair3 → sta.entry.aNonce = (eapolKey elem).keyNonce →
        ApWpaState.ptkInitNegotiating.level ≤ sta.entry.wpaState.level ∧ KnownVersion (eapolKey elem)) ∧
      (Passes crypto sta elem mem .group1 → sta.entry.wpaState = .ptkInitDone) ∧
      (Passes crypto sta elem mem .pair4 → sta.entry.wpaState = .ptkInitDone)

instance (crypto : Crypto) (sta : Sta) : ∀ op, Decidable (InTurn crypto sta op)
  | .traffic _ _ => isTrue trivial
  | .eapolKey _ _ _ => by unfold InTurn; infer_instance

structure PortInv (crypto : Crypto) (origin sta : Sta) : Prop extends PortSafe crypto origin sta where
  pmk : sta.pmk = origin.pmk
  addr : sta.entry.addr = origin.entry.addr
  currentAddress : sta.currentAddress = origin.currentAddress
  derived : sta.portSecured = false → ApWpaState.ptkInitNegotiating.level ≤ sta.entry.wpaState.level →
    Derived crypto origin sta.entry.ptk sta.entry.aNonce sta.log
  done : sta.portSecured = false → sta.entry.wpaState = .ptkInitDone → Handshake crypto origin sta.log

section Step
variable {crypto : Crypto} {origin sta base next : Sta} {op : WpaOp} {elem : Elem} {random : Bytes}
  {mem : Memory} {type : MsgType}

section
variable (inv : PortInv crypto origin sta)
include inv

theorem PortInv.accepted (ok : Accepted crypto sta elem mem type base) :
    PortInv crypto origin base where
  logged := by
    rw [ok.portSecured,ok.log]
    exact fun opened => mem_append_left _ (inv.logged opened)
  earned := by
    rw [ok.log]
    exact inv.earned.emit (by simp)
  pmk := ok.pmk.trans inv.pmk
  addr := by rw [ok.entry,inv.addr]
  currentAddress := ok.currentAddress.trans inv.currentAddress
  derived := by
    rw [ok.portSecured,ok.entry,ok.log]
    exact fun shut level => (inv.derived shut level).append
  done := by
    rw [ok.portSecured,ok.entry,ok.log]
    exact fun shut state => (inv.done shut state).append

theorem PortInv.emitSent (type) :
    PortInv crypto origin (sta.emit (.sent type)) where
  logged := fun opened => mem_append_left _ (inv.logged opened)
  earned := inv.earned.emit (by simp)
  pmk := inv.pmk
  addr := inv.addr
  currentAddress := inv.currentAddress
  derived := fun shut level => (inv.derived shut level).append
  done := fun shut state => (inv.done shut state).append

theorem PortInv.ptkStored (key) :
    PortInv crypto origin (ptkStored crypto sta key random) where
  logged := fun opened => mem_append_left _ (inv.logged opened)
  earned := inv.earned.emit (by simp)
  pmk := inv.pmk
  addr := inv.addr
  currentAddress := inv.currentAddress
  derived := by
    intro _ _
    refine ⟨mem_append_right _ (mem_singleton.mpr rfl),random,?_⟩
    change ptkDerived crypto sta key random = _
    rw [ptkDerived,inv.pmk,inv.addr,inv.currentAddress]
    rfl
  done := by
    intro _ state
    cases state

theorem PortInv.counterStored (key) :
    PortInv crypto origin (counterStored sta key) :=
  ⟨⟨inv.logged,inv.earned⟩,inv.pmk,inv.addr,inv.currentAddress,inv.derived,inv.done⟩

theorem PortInv.keyInstalled (bAE)
    (derived : sta.portSecured = false → Derived crypto origin sta.entry.ptk sta.entry.aNonce sta.log)
    (handshake : sta.portSecured = false → Handshake crypto origin sta.log) :
    PortInv crypto origin (keyInstalled sta bAE) where
  logged := fun opened => mem_append_left _ (inv.logged opened)
  earned := inv.earned.emit (by simp)
  pmk := inv.pmk
  addr := inv.addr
  currentAddress := inv.currentAddress
  derived := fun shut _ => (derived shut).append
  done := fun shut _ => (handshake shut).append

theorem PortInv.handshake (shut : sta.portSecured = false → Handshake crypto origin sta.log) :
    Handshake crypto origin sta.log := by
  cases port : sta.portSecured with
  | false => exact shut port
  | true => exact inv.earned.handshake (inv.logged port)

theorem PortInv.staPortSecured (shut : sta.portSecured = false → Handshake crypto origin sta.log) :
    PortInv crypto origin (staPortSecured sta) where
  logged := fun _ => mem_append_right _ (mem_singleton.mpr rfl)
  earned := inv.earned.open (inv.handshake shut)
  pmk := inv.pmk
  addr := inv.addr
  currentAddress := inv.currentAddress
  derived := by
    intro port
    cases port
  done := by
    intro port
    cases port

theorem PortInv.installed (turn : InTurn crypto sta (.eapolKey elem random mem))
    (ok : Accepted crypto sta elem mem .pair3 base) (nonce : sta.entry.aNonce = (eapolKey elem).keyNonce) :
    PortInv crypto origin (WpaSupplicant.keyInstalled (WpaSupplicant.counterStored base (eapolKey elem)) false) := by
  have stored := (inv.accepted ok).counterStored (eapolKey elem)
  have inTurn (shut : base.portSecured = false) :
      ApWpaState.ptkInitNegotiating.level ≤ sta.entry.wpaState.level ∧ KnownVersion (eapolKey elem) := by
    rcases turn with opened | turn
    · rw [← ok.portSecured,shut] at opened
      cases opened
    · exact turn.1 ok.passes nonce
  have derived (shut : base.portSecured = false) :
      Derived crypto origin sta.entry.ptk sta.entry.aNonce sta.log :=
    inv.derived (ok.portSecured.symm.trans shut) (inTurn shut).1
  refine stored.keyInstalled false (fun shut => ?_) (fun shut => ?_)
  · change Derived crypto origin base.entry.ptk base.entry.aNonce base.log
    rw [ok.entry,ok.log]
    exact (derived shut).append
  · have first := derived shut
    rw [nonce] at first
    change Handshake crypto origin base.log
    rw [ok.log]
    exact handshakeAccepted first (expectedKnown (inTurn shut).2 (ok.mic (by decide)))

theorem PortInv.inTurnDone (turn : InTurn crypto sta (.eapolKey elem random mem))
    (ok : Accepted crypto sta elem mem type base) (kind : type = .group1 ∨ type = .pair4)
    (shut : base.portSecured = false) : sta.entry.wpaState = .ptkInitDone ∧ Handshake crypto origin base.log := by
  have shut : sta.portSecured = false := ok.portSecured.symm.trans shut
  have done : sta.entry.wpaState = .ptkInitDone := by
    rcases turn with opened | turn
    · rw [shut] at opened
      cases opened
    · rcases kind with rfl | rfl
      · exact turn.2.1 ok.passes
      · exact turn.2.2 ok.passes
  rw [ok.log]
  exact ⟨done,(inv.done shut done).append⟩

theorem PortInv.reflected (turn : InTurn crypto sta (.eapolKey elem random mem))
    (ok : Accepted crypto sta elem mem .pair4 base) :
    PortInv crypto origin (WpaSupplicant.keyInstalled base true) := by
  refine (inv.accepted ok).keyInstalled true (fun shut => ?_) (fun shut => (inv.inTurnDone turn ok (.inr rfl) shut).2)
  have done := (inv.inTurnDone turn ok (.inr rfl) shut).1
  refine (inv.accepted ok).derived shut ?_
  rw [ok.entry,done]
  decide

theorem PortInv.moves (turn : InTurn crypto sta op)
    (move : Moves crypto sta op next) : PortInv crypto origin next := by
  induction move with
  | idle => exact inv
  | traffic txTsc rxTsc =>
    exact ⟨⟨inv.logged,inv.earned⟩,inv.pmk,inv.addr,inv.currentAddress,inv.derived,inv.done⟩
  | sNonce nonce =>
    exact ⟨⟨inv.logged,inv.earned⟩,inv.pmk,inv.addr,inv.currentAddress,inv.derived,inv.done⟩
  | derived ok => exact (inv.accepted ok).ptkStored _
  | stored ok kind => exact (inv.accepted ok).counterStored _
  | installed ok nonce => exact inv.installed turn ok nonce
  | opened ok nonce =>
    have installed := inv.installed turn ok nonce
    exact installed.staPortSecured fun shut => installed.done shut rfl
  | openedByGroup ok =>
    exact ((inv.accepted ok).counterStored _).staPortSecured
      fun shut => (inv.inTurnDone turn ok (.inl rfl) shut).2
  | reflected ok => exact inv.reflected turn ok
  | crashed ok =>
    have installed := inv.reflected turn ok
    unfold wpaStart2WayGroupHs
    split
    · exact installed
    · exact ⟨⟨installed.logged,installed.earned⟩,installed.pmk,installed.addr,installed.currentAddress,
        installed.derived,installed.done⟩
  | noted ok => exact inv.accepted ok
  | sent before type ih => exact (ih turn).emitSent type

end

end Step

structure Fresh (sta : Sta) : Prop where
  wpaState : sta.entry.wpaState = .initPsk
  portSecured : sta.portSecured = false
  log : sta.log = []

theorem PortInv.fresh {crypto sta} (fresh : Fresh sta) : PortInv crypto sta sta where
  logged := by
    rw [fresh.portSecured]
    exact fun opened => nomatch opened
  earned := by
    intro before pre
    rw [fresh.log] at pre
    simp at pre
  pmk := rfl
  addr := rfl
  currentAddress := rfl
  derived := by
    rw [fresh.wpaState]
    exact fun _ level => absurd level (by decide)
  done := by
    rw [fresh.wpaState]
    exact fun _ state => nomatch state

theorem portSafety (crypto : Crypto) (sta : Sta) (ops : List WpaOp) (fresh : Fresh sta)
    (turn : Meets (wpaStep crypto) (InTurn crypto) sta ops) :
    Always (wpaStep crypto) (PortSafe crypto sta) sta ops :=
  alwaysMono (fun _ inv => inv.toPortSafe)
    (invariant (fun s op inv turn => inv.moves turn (wpaStepMoves crypto s op)) (PortInv.fresh fresh) turn)

def samplePtk : Bytes :=
  sampleCrypto.wpaDerivePtk (replicate 32 7) (replicate 32 5) sampleAddr (replicate 32 9) [2,0,0,0,0,9]

def handshakeOps : List WpaOp :=
  [.eapolKey (keyFrame 0x00 0x8a 1 5 zeroMic) (replicate 32 9) allMemory,
   .eapolKey (signedFrame samplePtk 0x03 0xca 2 5) [] allMemory]

theorem portSafetyHandshake :
    (run (wpaStep sampleCrypto) (sampleSta .wpa2Psk .aesEnable) handshakeOps).portSecured = true ∧
      Always (wpaStep sampleCrypto) (PortSafe sampleCrypto (sampleSta .wpa2Psk .aesEnable))
        (sampleSta .wpa2Psk .aesEnable) handshakeOps :=
  ⟨by decide +kernel,portSafety sampleCrypto (sampleSta .wpa2Psk .aesEnable) handshakeOps ⟨rfl,rfl,rfl⟩
    (by decide +kernel)⟩

def groupFirst : List WpaOp := [.eapolKey (signedFrame (replicate 64 0) 0x03 0x82 1 0) [] allMemory]

theorem groupFirstOpensPort :
    Fresh (sampleSta .wpa2Psk .aesEnable) ∧
      (run (wpaStep sampleCrypto) (sampleSta .wpa2Psk .aesEnable) groupFirst).portSecured = true ∧
      ¬ PortSafe sampleCrypto (sampleSta .wpa2Psk .aesEnable)
        (run (wpaStep sampleCrypto) (sampleSta .wpa2Psk .aesEnable) groupFirst) := by
  refine ⟨⟨rfl,rfl,rfl⟩,by decide +kernel,fun safe => ?_⟩
  have log : (run (wpaStep sampleCrypto) (sampleSta .wpa2Psk .aesEnable) groupFirst).log =
      [.accepted .group1 (List.replicate 64 0) (eapolKey (signedFrame (List.replicate 64 0) 0x03 0x82 1 0)),
        .secured,.sent .group2] := by decide +kernel
  have earned := safe.earned
  rw [log] at earned
  obtain ⟨ptk,before,between,after,key,shape,_⟩ := earned [.accepted .group1 (List.replicate 64 0)
    (eapolKey (signedFrame (List.replicate 64 0) 0x03 0x82 1 0))] ⟨[.sent .group2],rfl⟩
  have member : WpaEvent.derived ptk key.keyNonce ∈ before ++ .derived ptk key.keyNonce ::
      (between ++ .accepted .pair3 ptk key :: after) := by simp
  rw [← shape] at member
  simp at member

end RtmpDriver.WpaPort
