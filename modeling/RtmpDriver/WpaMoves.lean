import RtmpDriver.WpaMic

/-! What one step of the EAPOL-Key state machine can do. `Accepted` is all that a passed sanity check says about the
station it leaves; `Moves` lists the effects of the handlers. -/
namespace RtmpDriver.WpaMoves
open EapolFrame WpaSupplicant

def Passes (crypto : Crypto) (sta : Sta) (elem : Elem) (mem : Memory) (type : MsgType) : Prop :=
  dispatch noPmf sta.entry elem = some type ∧
    (peerWpaMessageSanity noPmf crypto sta mem (eapolKey elem) type).isSome

instance (crypto : Crypto) (sta : Sta) (elem : Elem) (mem : Memory) (type : MsgType) :
    Decidable (Passes crypto sta elem mem type) := by unfold Passes; infer_instance

structure Accepted (crypto : Crypto) (sta : Sta) (elem : Elem) (mem : Memory) (type : MsgType) (base : Sta) :
    Prop where
  passes : Passes crypto sta elem mem type
  replay : replayDiffers sta.entry.rCounter type (eapolKey elem).replayCounter = false
  mic : type ≠ .pair1 → (eapolKey elem).keyMic = expectedMic crypto sta.entry.ptk (eapolKey elem)
  entry : base.entry = sta.entry
  portSecured : base.portSecured = sta.portSecured
  pmk : base.pmk = sta.pmk
  currentAddress : base.currentAddress = sta.currentAddress
  log : base.log = sta.log ++ [.accepted type sta.entry.ptk (eapolKey elem)]

structure GroupKeyOnly (sta next : Sta) : Prop where
  entry : next.entry = sta.entry
  portSecured : next.portSecured = sta.portSecured
  pmk : next.pmk = sta.pmk
  currentAddress : next.currentAddress = sta.currentAddress
  log : next.log = sta.log

theorem parseGroupKeyOnly {build sta next keyData len index type}
    (ok : rtmpParseEapolKeyData build sta keyData len index type = some next) : GroupKeyOnly sta next := by
  simp only [rtmpParseEapolKeyData] at ok
  split at ok
  · cases ok
    exact ⟨rfl,rfl,rfl,rfl,rfl⟩
  · split at ok
    · split at ok <;> cases ok
      exact ⟨rfl,rfl,rfl,rfl,rfl⟩
    · contradiction

theorem keyDataGroupKeyOnly {build crypto sta next mem key type}
    (ok : keyDataChecked build crypto sta mem key type = some next) : GroupKeyOnly sta next := by
  simp only [keyDataChecked] at ok
  split at ok
  · cases ok
    exact ⟨rfl,rfl,rfl,rfl,rfl⟩
  · split at ok
    · cases ok
      exact ⟨rfl,rfl,rfl,rfl,rfl⟩
    · exact parseGroupKeyOnly ok

theorem acceptAccepted {crypto sta base elem mem type}
    (sent : dispatch noPmf sta.entry elem = some type)
    (ok : accept crypto sta mem (eapolKey elem) type = some base) : Accepted crypto sta elem mem type base := by
  obtain ⟨next,sane,rfl⟩ := Option.map_eq_some_iff.mp ok
  have passes : Passes crypto sta elem mem type := ⟨sent,by rw [sane]; rfl⟩
  unfold peerWpaMessageSanity at sane
  split_ifs at sane with _ larger verified
  have only := keyDataGroupKeyOnly sane
  refine ⟨passes,by simpa using larger,fun other => ?_,only.entry,only.portSecured,only.pmk,
    only.currentAddress,by simp [Sta.emit,only.log]⟩
  by_contra differs
  exact verified ⟨other,differs⟩

theorem dispatchPeer {build entry elem type}
    (sent : dispatch build entry elem = some type) : entry.entryType.isPeer = true := by
  by_contra other
  simp [dispatch,other] at sent

inductive Moves (crypto : Crypto) (sta : Sta) : WpaOp → Sta → Prop where
  | idle {op} : Moves crypto sta op sta
  | traffic (txTsc rxTsc) : Moves crypto sta (.traffic txTsc rxTsc)
      {sta with entry := {sta.entry with
        pairwiseKey := {sta.entry.pairwiseKey with txTsc := txTsc, rxTsc := rxTsc}}}
  | sNonce {elem random mem} (nonce) : Moves crypto sta (.eapolKey elem random mem)
      {sta with entry := {sta.entry with sNonce := nonce}}
  | derived {elem random mem base} (ok : Accepted crypto sta elem mem .pair1 base) :
      Moves crypto sta (.eapolKey elem random mem) (ptkStored crypto base (eapolKey elem) random)
  | stored {elem random mem type base} (ok : Accepted crypto sta elem mem type base)
      (kind : type = .pair3 ∨ type = .group1) :
      Moves crypto sta (.eapolKey elem random mem) (counterStored base (eapolKey elem))
  | installed {elem random mem base} (ok : Accepted crypto sta elem mem .pair3 base)
      (nonce : sta.entry.aNonce = (eapolKey elem).keyNonce) :
      Moves crypto sta (.eapolKey elem random mem) (keyInstalled (counterStored base (eapolKey elem)) false)
  | opened {elem random mem base} (ok : Accepted crypto sta elem mem .pair3 base)
      (nonce : sta.entry.aNonce = (eapolKey elem).keyNonce) :
      Moves crypto sta (.eapolKey elem random mem)
        (staPortSecured (keyInstalled (counterStored base (eapolKey elem)) false))
  | openedByGroup {elem random mem base} (ok : Accepted crypto sta elem mem .group1 base) :
      Moves crypto sta (.eapolKey elem random mem) (staPortSecured (counterStored base (eapolKey elem)))
  | reflected {elem random mem base} (ok : Accepted crypto sta elem mem .pair4 base) :
      Moves crypto sta (.eapolKey elem random mem) (keyInstalled base true)
  | crashed {elem random mem base} (ok : Accepted crypto sta elem mem .pair4 base) :
      Moves crypto sta (.eapolKey elem random mem) (wpaStart2WayGroupHs (keyInstalled base true) mem)
  | noted {elem random mem base} (ok : Accepted crypto sta elem mem .group2 base) :
      Moves crypto sta (.eapolKey elem random mem) base
  | sent {op next} (before : Moves crypto sta op next) (type) : Moves crypto sta op (next.emit (.sent type))

theorem wpaEapolKeyActionMoves (crypto sta elem random mem) :
    Moves crypto sta (.eapolKey elem random mem) (wpaEapolKeyAction crypto sta elem random mem) := by
  unfold wpaEapolKeyAction
  cases dispatched : dispatch noPmf sta.entry elem with
  | none => exact .idle
  | some type =>
    cases type with
    | pair1 =>
      simp only [peerPairMsg1Action]
      split
      · exact .idle
      cases ok : accept crypto sta mem (eapolKey elem) .pair1 with
      | none => exact .idle
      | some base =>
        have move : Moves crypto sta (.eapolKey elem random mem) (ptkStored crypto base (eapolKey elem) random) :=
          .derived (acceptAccepted dispatched ok)
        simp only
        split
        · exact move.sent .pair2
        · exact move
    | pair2 =>
      simp only [peerPairMsg2Action]
      iterate 2 (split; · exact .idle)
      · exact .sNonce _
    | pair3 =>
      simp only [peerPairMsg3Action]
      split
      · exact .idle
      cases ok : accept crypto sta mem (eapolKey elem) .pair3 with
      | none => exact .idle
      | some base =>
        have accepted := acceptAccepted dispatched ok
        simp only
        split
        · exact .stored accepted (.inl rfl)
        rename_i nonce
        have nonce : sta.entry.aNonce = (eapolKey elem).keyNonce := by
          rw [← accepted.entry]
          exact not_not.mp nonce
        split
        · exact .stored accepted (.inl rfl)
        split
        · exact (Moves.opened accepted nonce).sent .pair4
        · exact (Moves.installed accepted nonce).sent .pair4
    | pair4 =>
      simp only [peerPairMsg4Action]
      iterate 2 (split; · exact .idle)
      cases ok : accept crypto sta mem (eapolKey elem) .pair4 with
      | none => exact .idle
      | some base =>
        simp only
        split
        · exact .reflected (acceptAccepted dispatched ok)
        · exact .crashed (acceptAccepted dispatched ok)
    | group1 =>
      simp only [peerGroupMsg1Action]
      split
      · exact .idle
      cases ok : accept crypto sta mem (eapolKey elem) .group1 with
      | none => exact .idle
      | some base =>
        have accepted := acceptAccepted dispatched ok
        simp only
        split
        · exact (Moves.openedByGroup accepted).sent .group2
        · exact .stored accepted (.inr rfl)
    | group2 =>
      simp only [peerGroupMsg2Action]
      iterate 3 (split; · exact .idle)
      cases ok : accept crypto sta mem (eapolKey elem) .group2 with
      | none => exact .idle
      | some base => exact .noted (acceptAccepted dispatched ok)

theorem wpaStepMoves (crypto sta op) : Moves crypto sta op (wpaStep crypto sta op) := by
  unfold wpaStep
  split
  · exact .idle
  cases op with
  | eapolKey elem random mem => exact wpaEapolKeyActionMoves crypto sta elem random mem
  | traffic txTsc rxTsc => exact .traffic txTsc rxTsc

end RtmpDriver.WpaMoves
