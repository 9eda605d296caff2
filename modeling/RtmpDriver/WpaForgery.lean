import RtmpDriver.WpaPort

/-! What frames without a valid MIC can do to an established session. Message 1 carries no MIC, and its handler derives
straight into the PTK and R_Counter; the other way in is a descriptor version that the MIC check does not know. -/
namespace RtmpDriver.WpaForgery
open EapolFrame WpaSupplicant WpaMic WpaMoves StepMachine
open EapolBuild (sampleCrypto signedFrame)

structure SameSession (origin sta : Sta) : Prop where
  halted : sta.halted = origin.halted
  entry : ∃ sNonce, sta.entry = {origin.entry with sNonce := sNonce}

structure Genuine (crypto : Crypto) (sta : Sta) (mem : Memory) (elem : Elem) : Prop where
  sent : dispatch noPmf sta.entry elem = some .group1
  mic : MicVerifies crypto sta.entry.ptk (eapolKey elem)
  next : (eapolKey elem).replayCounter.value = sta.entry.rCounter.value + 1
  memory : mem.keyData = true
  keyData : (keyDataChecked noPmf crypto sta mem (eapolKey elem) .group1).isSome

structure Undisturbed (crypto : Crypto) (origin sta : Sta) : Prop where
  ptk : sta.entry.ptk = origin.entry.ptk
  rCounter : sta.entry.rCounter = origin.entry.rCounter
  wpaState : sta.entry.wpaState = origin.entry.wpaState
  pairwiseKey : sta.entry.pairwiseKey = origin.entry.pairwiseKey
  accepts : ∀ elem random mem, Genuine crypto origin mem elem →
    .accepted .group1 origin.entry.ptk (eapolKey elem) ∈ (wpaStep crypto sta (.eapolKey elem random mem)).log

def Forged (crypto : Crypto) (sta : Sta) : WpaOp → Prop
  | .traffic _ _ => False
  | .eapolKey elem _ _ => ¬ MicVerifies crypto sta.entry.ptk (eapolKey elem)

instance (crypto : Crypto) (ptk : Bytes) (key : EapolKey) : Decidable (MicVerifies crypto ptk key) := by
  unfold MicVerifies; infer_instance

instance (crypto : Crypto) (sta : Sta) : ∀ op, Decidable (Forged crypto sta op)
  | .traffic _ _ => isFalse id
  | .eapolKey _ _ _ => by unfold Forged; infer_instance

def Harmless (crypto : Crypto) (sta : Sta) : WpaOp → Prop
  | .traffic _ _ => True
  | .eapolKey elem _ mem => ¬ Passes crypto sta elem mem .pair1 ∧
    ∀ type, Passes crypto sta elem mem type → KnownVersion (eapolKey elem)

section KeyData
variable {entry : MacEntry} {sNonce : Bytes}

theorem kdeLoopSNonce (build data len fuel offset found) :
    kdeLoop build {entry with sNonce := sNonce} data len fuel offset found =
      kdeLoop build entry data len fuel offset found := by
  induction fuel generalizing offset found with
  | zero => rfl
  | succ fuel ih =>
    have same : kdeAt build {entry with sNonce := sNonce} data offset found = kdeAt build entry data offset found :=
      rfl
    simp only [kdeLoop,same,ih]

theorem parseSNonce {build sta origin} (same : sta.entry = {origin.entry with sNonce := sNonce})
    (keyData len index type) :
    (rtmpParseEapolKeyData build sta keyData len index type).isSome =
      (rtmpParseEapolKeyData build origin keyData len index type).isSome := by
  simp only [rtmpParseEapolKeyData,same,kdeLoopSNonce]
  split
  · rfl
  · split
    · split <;> rfl
    · rfl

theorem keyDataSNonce {build crypto sta origin mem key type} (same : sta.entry = {origin.entry with sNonce := sNonce}) :
    (keyDataChecked build crypto sta mem key type).isSome =
      (keyDataChecked build crypto origin mem key type).isSome := by
  have plain : plainKeyData crypto sta.entry mem key type = plainKeyData crypto origin.entry mem key type := by
    rw [same]
    rfl
  simp only [keyDataChecked,plain]
  split
  · rfl
  · split
    · rfl
    · exact parseSNonce same _ _ _ _

end KeyData

section Genuine
variable {crypto : Crypto} {origin sta : Sta} {mem : Memory} {elem : Elem}

theorem Genuine.same (genuine : Genuine crypto origin mem elem) (same : SameSession origin sta) :
    Genuine crypto sta mem elem := by
  obtain ⟨sNonce,entry⟩ := same.entry
  refine ⟨?_,?_,?_,genuine.memory,?_⟩
  · rw [entry]
    exact genuine.sent
  · rw [entry]
    exact genuine.mic
  · rw [entry]
    exact genuine.next
  · rw [keyDataSNonce entry]
    exact genuine.keyData

theorem Genuine.passes (genuine : Genuine crypto sta mem elem) : Passes crypto sta elem mem .group1 := by
  refine ⟨genuine.sent,(sanityPasses (by decide)).mpr ⟨⟨genuine.memory,?_,genuine.keyData⟩,?_⟩⟩
  · exact replayPasses (by rw [genuine.next]; exact Nat.lt_succ_self _) (.inr rfl)
  · exact expectedOfVerifies genuine.mic

theorem passesAccepted (live : sta.halted = false) (passes : Passes crypto sta elem mem .group1) (random) :
    .accepted .group1 sta.entry.ptk (eapolKey elem) ∈ (wpaStep crypto sta (.eapolKey elem random mem)).log := by
  have peer := dispatchPeer passes.1
  obtain ⟨next,sane⟩ := Option.isSome_iff_exists.mp passes.2
  have accepted : accept crypto sta mem (eapolKey elem) .group1 =
      some (next.emit (.accepted .group1 sta.entry.ptk (eapolKey elem))) := by
    simp [accept,sane]
  have step : wpaStep crypto sta (.eapolKey elem random mem) = peerGroupMsg1Action crypto sta elem mem := by
    simp [wpaStep,live,wpaEapolKeyAction,passes.1]
  rw [step]
  simp only [peerGroupMsg1Action,peer,accepted,Bool.not_true,Bool.false_eq_true,if_false]
  split
  · simp [staPortSecured,counterStored,Sta.emit]
  · simp [counterStored,Sta.emit]

end Genuine

section Run
variable {crypto : Crypto} {origin sta next : Sta} {op : WpaOp} {elem : Elem} {mem : Memory} {type : MsgType}

theorem SameSession.undisturbed (same : SameSession origin sta) (live : origin.halted = false) :
    Undisturbed crypto origin sta := by
  obtain ⟨sNonce,entry⟩ := same.entry
  refine ⟨by rw [entry],by rw [entry],by rw [entry],by rw [entry],?_⟩
  intro elem random mem genuine
  have running : sta.halted = false := same.halted.trans live
  have logged := passesAccepted running (genuine.same same).passes random
  rw [entry] at logged
  exact logged

theorem forgedNotAccepted {random base} (forged : Forged crypto sta (.eapolKey elem random mem))
    (harmless : Harmless crypto sta (.eapolKey elem random mem)) (ok : Accepted crypto sta elem mem type base) :
    False := by
  by_cases first : type = .pair1
  · subst first
    exact harmless.1 ok.passes
  · exact forged (expectedKnown (harmless.2 type ok.passes) (ok.mic first))

theorem SameSession.moves (same : SameSession origin sta) (forged : Forged crypto sta op)
    (harmless : Harmless crypto sta op) (move : Moves crypto sta op next) : SameSession origin next := by
  induction move with
  | idle => exact same
  | traffic => exact absurd forged id
  | sNonce nonce =>
    obtain ⟨old,entry⟩ := same.entry
    exact ⟨same.halted,nonce,by rw [entry]⟩
  | sent before type ih =>
    have kept := ih forged harmless
    exact ⟨kept.halted,kept.entry⟩
  | derived ok | stored ok | installed ok | opened ok | openedByGroup ok | reflected ok | crashed ok | noted ok =>
    exact absurd ok (forgedNotAccepted forged harmless)

end Run

theorem forgedUndisturbed (crypto : Crypto) (sta : Sta) (ops : List WpaOp) (live : sta.halted = false)
    (forged : Meets (wpaStep crypto) (Forged crypto) sta ops)
    (harmless : Meets (wpaStep crypto) (Harmless crypto) sta ops) :
    Always (wpaStep crypto) (Undisturbed crypto sta) sta ops := by
  have both : Meets (wpaStep crypto) (fun s op => Forged crypto s op ∧ Harmless crypto s op) sta ops :=
    meetsAnd forged harmless
  have start : SameSession sta sta := ⟨rfl,sta.entry.sNonce,rfl⟩
  refine alwaysMono (fun _ same => same.undisturbed live) (invariant ?_ start both)
  intro s op same conditions
  exact same.moves conditions.1 conditions.2 (wpaStepMoves crypto s op)

def established : Sta := run (wpaStep sampleCrypto) (sampleSta .wpa2Psk .aesEnable) WpaPort.handshakeOps

def wrongMic : Bytes := List.replicate lenKeyDescMic 1

def forgedOps : List WpaOp :=
  [.eapolKey (keyFrame 0x03 0x82 3 0 wrongMic) [] allMemory,.eapolKey (keyFrame 0x03 0xca 9 5 wrongMic) [] allMemory]

theorem forgedUndisturbedGroup :
    established.entry.wpaState = .ptkInitDone ∧
      Always (wpaStep sampleCrypto) (Undisturbed sampleCrypto established) established forgedOps := by
  have refused (s : Sta) (elem : Elem) (mem : Memory) (random : Bytes) (type : MsgType)
      (stopped : dispatch noPmf s.entry elem = some type ∧
        (peerWpaMessageSanity noPmf sampleCrypto s mem (eapolKey elem) type).isSome = false) :
      Harmless sampleCrypto s (.eapolKey elem random mem) := by
    have nothing (other : MsgType) : ¬ Passes sampleCrypto s elem mem other := by
      rintro ⟨asked,passed⟩
      cases Option.some.inj (stopped.1.symm.trans asked)
      simp [stopped.2] at passed
    exact ⟨nothing .pair1,fun other passes => absurd passes (nothing other)⟩
  have start : established.entry.wpaState = .ptkInitDone ∧ established.halted = false ∧
      Meets (wpaStep sampleCrypto) (Forged sampleCrypto) established forgedOps := by decide +kernel
  refine ⟨start.1,forgedUndisturbed sampleCrypto established forgedOps start.2.1 start.2.2
    ⟨refused _ _ _ _ .group1 ?_,refused _ _ _ _ .pair3 ?_,trivial⟩⟩
  all_goals decide +kernel

def forgedFirst : WpaOp := .eapolKey (keyFrame 0x00 0x8a 9 1 zeroMic) (List.replicate 32 4) allMemory

def genuineGroup : Elem := signedFrame WpaPort.samplePtk 0x03 0x82 3 0

theorem forgedFirstDisturbs :
    established.entry.wpaState = .ptkInitDone ∧ Forged sampleCrypto established forgedFirst ∧
      Genuine sampleCrypto established allMemory genuineGroup ∧
      ¬ Undisturbed sampleCrypto established (wpaStep sampleCrypto established forgedFirst) ∧
      (wpaStep sampleCrypto established forgedFirst).entry.ptk ≠ established.entry.ptk ∧
      (wpaStep sampleCrypto established forgedFirst).entry.rCounter.value = 9 ∧
      (wpaStep sampleCrypto established forgedFirst).entry.wpaState = .ptkInitNegotiating ∧
      ¬ Passes sampleCrypto (wpaStep sampleCrypto established forgedFirst) genuineGroup allMemory .group1 := by
  have changed : (wpaStep sampleCrypto established forgedFirst).entry.ptk ≠ established.entry.ptk := by
    decide +kernel
  have fields : dispatch noPmf established.entry genuineGroup = some .group1 ∧
      MicVerifies sampleCrypto established.entry.ptk (eapolKey genuineGroup) ∧
      (eapolKey genuineGroup).replayCounter.value = established.entry.rCounter.value + 1 ∧
      (keyDataChecked noPmf sampleCrypto established allMemory (eapolKey genuineGroup) .group1).isSome := by
    decide +kernel
  have genuine : Genuine sampleCrypto established allMemory genuineGroup :=
    ⟨fields.1,fields.2.1,fields.2.2.1,rfl,fields.2.2.2⟩
  exact ⟨by decide +kernel,by decide +kernel,genuine,fun same => changed same.ptk,changed,by decide +kernel⟩

end RtmpDriver.WpaForgery
