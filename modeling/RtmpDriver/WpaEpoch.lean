import Mathlib.Data.List.Chain
import RtmpDriver.WpaPort

/-! What happens under one PTK: which replay counters the MIC-protected messages of the authenticator carry, and how
often the pairwise key is installed. -/
namespace RtmpDriver.WpaEpoch
open EapolFrame WpaSupplicant WpaMic WpaMoves StepMachine List
open EapolBuild (sampleCrypto signedFrame)

section Counters

def epochStep (counters : List Counter) : WpaEvent → List Counter
  | .derived _ _ => []
  | .accepted .pair3 _ key | .accepted .group1 _ key => counters ++ [key.replayCounter]
  | _ => counters

def epoch (log : List WpaEvent) : List Counter := log.foldl epochStep []

theorem epochEmit (log e) : epoch (log ++ [e]) = epochStep (epoch log) e := by
  simp [epoch]

def Follows (last next : Counter) : Prop := next = Counter.zero ∨ last.value < next.value

structure Ordered (counters : List Counter) : Prop where
  follows : counters.IsChain Follows
  increasing : (∀ c ∈ counters.tail, c ≠ Counter.zero) → counters.Pairwise fun a b => a.value < b.value

theorem replayFollows {rCounter counter type} (kind : type = .pair3 ∨ type = .group1)
    (passed : replayDiffers rCounter type counter = false) : Follows rCounter counter := by
  have lengths (c : Counter) : counter.1.length = c.1.length := counter.2.trans c.2.symm
  have larger : rtmpCompareMemory counter.1 rCounter.1 = 1 ∨ rtmpCompareMemory counter.1 Counter.zero.1 = 0 := by
    rcases kind with rfl | rfl <;> simpa [replayDiffers,imp_iff_or_not,or_comm] using passed
  rcases larger with larger | zero
  · exact .inr ((compareMemoryIs (lengths rCounter)).1.mp larger)
  · exact .inl (Subtype.ext ((compareMemoryIs (lengths Counter.zero)).2.mp zero))

theorem increasingOfFollows {counters : List Counter} (follows : counters.IsChain Follows)
    (nonzero : ∀ c ∈ counters.tail, c ≠ Counter.zero) : counters.IsChain fun a b => a.value < b.value := by
  induction follows with
  | nil => exact .nil
  | singleton c => exact .singleton c
  | cons_cons step rest ih =>
    refine .cons_cons ?_ (ih fun c inside => nonzero c (mem_cons_of_mem _ inside))
    rcases step with zero | larger
    · exact absurd zero (nonzero _ mem_cons_self)
    · exact larger

theorem orderedOfFollows {counters : List Counter} (follows : counters.IsChain Follows) : Ordered counters :=
  ⟨follows,fun nonzero => by
    have trans : IsTrans Counter fun a b => a.value < b.value := ⟨fun _ _ _ => Nat.lt_trans⟩
    exact isChain_iff_pairwise.mp (increasingOfFollows follows nonzero)⟩

end Counters

structure ReplayInv (sta : Sta) : Prop where
  follows : (epoch sta.log).IsChain Follows
  last : sta.halted = false → ∀ c ∈ (epoch sta.log).getLast?, c = sta.entry.rCounter

section Replay
variable {crypto : Crypto} {sta base next : Sta} {op : WpaOp} {elem : Elem} {random : Bytes} {mem : Memory}
  {type : MsgType}

section
variable (inv : ReplayInv sta) (live : sta.halted = false)
include inv live

theorem ReplayInv.sameEpoch (epochs : epoch next.log = epoch sta.log)
    (counter : next.entry.rCounter = sta.entry.rCounter) :
    ReplayInv next := by
  refine ⟨?_,fun _ => ?_⟩
  · rw [epochs]
    exact inv.follows
  · rw [epochs,counter]
    exact inv.last live

theorem ReplayInv.acceptedOther (ok : Accepted crypto sta elem mem type base)
    (other : type ≠ .pair3 ∧ type ≠ .group1) : ReplayInv base := by
  refine inv.sameEpoch live ?_ (by rw [ok.entry])
  rw [ok.log,epochEmit]
  cases type <;> simp_all [epochStep]

theorem ReplayInv.accepted (ok : Accepted crypto sta elem mem type base) (kind : type = .pair3 ∨ type = .group1) :
    ReplayInv (counterStored base (eapolKey elem)) := by
  have grown : epoch (counterStored base (eapolKey elem)).log =
      epoch sta.log ++ [(eapolKey elem).replayCounter] := by
    change epoch base.log = _
    rw [ok.log,epochEmit]
    rcases kind with rfl | rfl <;> rfl
  have follows := replayFollows kind ok.replay
  refine ⟨?_,fun _ => ?_⟩
  · rw [grown]
    refine inv.follows.append (.singleton _) ?_
    intro c last d first
    rw [inv.last live c last]
    cases Option.some.inj first
    exact follows
  · rw [grown]
    intro c last
    change c = (eapolKey elem).replayCounter
    simpa using last.symm

end

theorem ReplayInv.emit {e} (inv : ReplayInv sta) (same : epochStep (epoch sta.log) e = epoch sta.log) :
    ReplayInv {sta with log := sta.log ++ [e]} := by
  refine ⟨?_,?_⟩
  · rw [epochEmit,same]
    exact inv.follows
  · rw [epochEmit,same]
    exact inv.last

section
variable (inv : ReplayInv sta)
include inv

theorem ReplayInv.keyInstalled (bAE) : ReplayInv (keyInstalled sta bAE) := by
  have logged := inv.emit (e := .installed sta.entry.ptk) rfl
  exact ⟨logged.follows,logged.last⟩

theorem ReplayInv.staPortSecured : ReplayInv (staPortSecured sta) := by
  have logged := inv.emit (e := .secured) rfl
  exact ⟨logged.follows,logged.last⟩

theorem ReplayInv.moves (live : sta.halted = false) (move : Moves crypto sta op next) :
    ReplayInv next := by
  induction move with
  | idle => exact inv
  | traffic txTsc rxTsc => exact ⟨inv.follows,inv.last⟩
  | sNonce nonce => exact ⟨inv.follows,inv.last⟩
  | @derived elem random mem base ok =>
    have emptied : epoch (ptkStored crypto base (eapolKey elem) random).log = [] := epochEmit _ _
    refine ⟨?_,fun _ => ?_⟩
    · rw [emptied]
      exact .nil
    · simp [emptied]
  | stored ok kind => exact inv.accepted live ok kind
  | installed ok nonce => exact (inv.accepted live ok (.inl rfl)).keyInstalled false
  | opened ok nonce => exact ((inv.accepted live ok (.inl rfl)).keyInstalled false).staPortSecured
  | openedByGroup ok => exact (inv.accepted live ok (.inr rfl)).staPortSecured
  | reflected ok => exact (inv.acceptedOther live ok (by decide)).keyInstalled true
  | crashed ok =>
    have installed := (inv.acceptedOther live ok (by decide)).keyInstalled true
    unfold wpaStart2WayGroupHs
    split
    · exact installed
    · exact ⟨installed.follows,fun running => nomatch running⟩
  | noted ok => exact inv.acceptedOther live ok (by decide)
  | sent before type ih => exact ih.emit rfl

theorem ReplayInv.step : ReplayInv (wpaStep crypto sta op) := by
  cases live : sta.halted with
  | true =>
    have stopped : wpaStep crypto sta op = sta := if_pos live
    rwa [stopped]
  | false => exact inv.moves live (wpaStepMoves crypto sta op)

end

end Replay

theorem countersOrdered (crypto : Crypto) (sta : Sta) (ops : List WpaOp) (start : sta.log = []) :
    Always (wpaStep crypto) (fun s => Ordered (epoch s.log)) sta ops := by
  have first : ReplayInv sta := by
    refine ⟨?_,fun _ => ?_⟩ <;> rw [start]
    · exact .nil
    · simp [epoch]
  have anything : Meets (wpaStep crypto) (fun _ _ => True) sta ops := meetsTrue
  exact alwaysMono (fun _ inv => orderedOfFollows inv.follows)
    (invariant (fun _ _ inv _ => inv.step) first anything)

def groupOps (counters : List UInt8) : List WpaOp :=
  WpaPort.handshakeOps ++
    counters.map fun c => .eapolKey (signedFrame WpaPort.samplePtk 0x03 0x82 c 0) [] allMemory

def afterGroups (counters : List UInt8) : Sta :=
  run (wpaStep sampleCrypto) (sampleSta .wpa2Psk .aesEnable) (groupOps counters)

theorem countersOrderedGroup :
    (epoch (afterGroups [3,0]).log).map Counter.value = [2,3,0] ∧ Ordered (epoch (afterGroups [3,0]).log) := by
  have ordered := countersOrdered sampleCrypto (sampleSta .wpa2Psk .aesEnable) (groupOps [3,0]) rfl
  exact ⟨by decide +kernel,ordered (groupOps [3,0]) (prefix_refl _)⟩

theorem zeroCounterReplayed :
    (epoch (afterGroups [0,0]).log).map Counter.value = [2,0,0] ∧
      ¬ (epoch (afterGroups [0,0]).log).Pairwise fun a b => a.value < b.value := by
  decide +kernel

section Installs

def installStep (installs : Nat) : WpaEvent → Nat
  | .derived _ _ => 0
  | .installed _ => installs + 1
  | _ => installs

def installs (log : List WpaEvent) : Nat := log.foldl installStep 0

theorem installsEmit (log e) : installs (log ++ [e]) = installStep (installs log) e := by
  simp [installs]

end Installs

def InstallsOnce (crypto : Crypto) (sta : Sta) : WpaOp → Prop
  | .traffic _ _ => True
  | .eapolKey elem _ mem =>
    (Passes crypto sta elem mem .pair3 → sta.entry.aNonce = (eapolKey elem).keyNonce →
      sta.entry.wpaState ≠ .ptkInitDone) ∧
    (Passes crypto sta elem mem .pair4 → sta.entry.wpaState ≠ .ptkInitDone)

instance (crypto : Crypto) (sta : Sta) : ∀ op, Decidable (InstallsOnce crypto sta op)
  | .traffic _ _ => isTrue trivial
  | .eapolKey _ _ _ => by unfold InstallsOnce; infer_instance

def KeyKept (crypto : Crypto) (sta : Sta) : WpaOp → Prop
  | .traffic _ _ => True
  | .eapolKey elem random mem =>
    (wpaStep crypto sta (.eapolKey elem random mem)).entry.pairwiseKey = sta.entry.pairwiseKey ∨
      installs sta.log = 0

structure InstallInv (sta : Sta) : Prop where
  once : installs sta.log ≤ 1
  early : sta.entry.wpaState ≠ .ptkInitDone → installs sta.log = 0

section Reinstall
variable {crypto : Crypto} {sta base next : Sta} {op : WpaOp} {elem : Elem} {random : Bytes} {mem : Memory}
  {type : MsgType}

section
variable (inv : InstallInv sta)
include inv

theorem InstallInv.same (count : installs next.log = installs sta.log)
    (state : next.entry.wpaState = sta.entry.wpaState) : InstallInv next := by
  refine ⟨?_,?_⟩
  · rw [count]
    exact inv.once
  · rw [count,state]
    exact inv.early

theorem InstallInv.accepted (ok : Accepted crypto sta elem mem type base) :
    InstallInv base := by
  refine inv.same ?_ (by rw [ok.entry])
  rw [ok.log,installsEmit]
  rfl

theorem InstallInv.keyInstalled (bAE) (state : sta.entry.wpaState ≠ .ptkInitDone) :
    InstallInv (keyInstalled sta bAE) := by
  refine ⟨?_,fun other => absurd rfl other⟩
  have count : installs (WpaSupplicant.keyInstalled sta bAE).log = installs sta.log + 1 := installsEmit _ _
  rw [count,inv.early state]

theorem InstallInv.installed (turn : InstallsOnce crypto sta (.eapolKey elem random mem))
    (ok : Accepted crypto sta elem mem .pair3 base) (nonce : sta.entry.aNonce = (eapolKey elem).keyNonce) :
    InstallInv (WpaSupplicant.keyInstalled (counterStored base (eapolKey elem)) false) := by
  have stored : InstallInv (counterStored base (eapolKey elem)) := (inv.accepted ok).same rfl rfl
  have state := turn.1 ok.passes nonce
  rw [← ok.entry] at state
  exact stored.keyInstalled false state

theorem InstallInv.reflected (turn : InstallsOnce crypto sta (.eapolKey elem random mem))
    (ok : Accepted crypto sta elem mem .pair4 base) : InstallInv (WpaSupplicant.keyInstalled base true) := by
  have state := turn.2 ok.passes
  rw [← ok.entry] at state
  exact (inv.accepted ok).keyInstalled true state

theorem InstallInv.moves (turn : InstallsOnce crypto sta op)
    (move : Moves crypto sta op next) : InstallInv next := by
  induction move with
  | idle => exact inv
  | traffic txTsc rxTsc => exact ⟨inv.once,inv.early⟩
  | sNonce nonce => exact ⟨inv.once,inv.early⟩
  | @derived elem random mem base ok =>
    have count : installs (ptkStored crypto base (eapolKey elem) random).log = 0 := installsEmit _ _
    exact ⟨by omega,fun _ => count⟩
  | stored ok kind => exact (inv.accepted ok).same rfl rfl
  | installed ok nonce => exact inv.installed turn ok nonce
  | opened ok nonce => exact (inv.installed turn ok nonce).same (installsEmit _ _) rfl
  | openedByGroup ok => exact (inv.accepted ok).same (installsEmit _ _) rfl
  | reflected ok => exact inv.reflected turn ok
  | crashed ok =>
    have installed := inv.reflected turn ok
    unfold wpaStart2WayGroupHs
    split
    · exact installed
    · exact ⟨installed.once,installed.early⟩
  | noted ok => exact inv.accepted ok
  | sent before type ih => exact (ih turn).same (installsEmit _ _) rfl

theorem InstallInv.keyKept (turn : InstallsOnce crypto sta (.eapolKey elem random mem))
    (move : Moves crypto sta (.eapolKey elem random mem) next) :
    next.entry.pairwiseKey = sta.entry.pairwiseKey ∨ installs sta.log = 0 := by
  generalize asked : WpaOp.eapolKey elem random mem = op at move
  induction move with
  | idle | sNonce => exact .inl rfl
  | traffic => cases asked
  | derived ok | stored ok | openedByGroup ok | noted ok =>
    have kept := congrArg MacEntry.pairwiseKey ok.entry
    exact .inl kept
  | installed ok nonce | opened ok nonce =>
    cases asked
    exact .inr (inv.early (turn.1 ok.passes nonce))
  | reflected ok | crashed ok =>
    cases asked
    exact .inr (inv.early (turn.2 ok.passes))
  | sent before type ih => exact ih asked

end

end Reinstall

theorem keyInstalledOnce (crypto : Crypto) (sta : Sta) (ops : List WpaOp) (start : sta.log = [])
    (turn : Meets (wpaStep crypto) (InstallsOnce crypto) sta ops) :
    Always (wpaStep crypto) (fun s => installs s.log ≤ 1) sta ops ∧
      Meets (wpaStep crypto) (KeyKept crypto) sta ops := by
  have none : installs sta.log = 0 := by rw [start]; rfl
  have first : InstallInv sta := ⟨by omega,fun _ => none⟩
  have keeps (s : Sta) (op : WpaOp) (inv : InstallInv s) (turn : InstallsOnce crypto s op) :
      InstallInv (wpaStep crypto s op) := inv.moves turn (wpaStepMoves crypto s op)
  refine ⟨alwaysMono (fun _ inv => inv.once) (invariant keeps first turn),meetsInvariant keeps ?_ first turn⟩
  intro s op inv turn
  cases op with
  | traffic => trivial
  | eapolKey elem random mem => exact inv.keyKept turn (wpaStepMoves crypto s (.eapolKey elem random mem))

def trafficOps : List WpaOp :=
  WpaPort.handshakeOps ++ [.traffic (replicate 16 8) (replicate 16 6)]

theorem keyInstalledOnceTraffic :
    installs (run (wpaStep sampleCrypto) (sampleSta .wpa2Psk .aesEnable) trafficOps).log = 1 ∧
      Always (wpaStep sampleCrypto) (fun s => installs s.log ≤ 1) (sampleSta .wpa2Psk .aesEnable) trafficOps :=
  ⟨by decide +kernel,(keyInstalledOnce sampleCrypto (sampleSta .wpa2Psk .aesEnable) trafficOps rfl
    (by decide +kernel)).1⟩

theorem retransmissionReinstalls :
    let used := run (wpaStep sampleCrypto) (sampleSta .wpa2Psk .aesEnable) trafficOps
    let again := wpaStep sampleCrypto used
      (.eapolKey (signedFrame WpaPort.samplePtk 0x03 0xca 3 5) [] allMemory)
    used.entry.pairwiseKey.txTsc = replicate 16 8 ∧ used.entry.pairwiseKey.rxTsc = replicate 16 6 ∧
      installs again.log = 2 ∧ again.entry.ptk = used.entry.ptk ∧
      again.entry.pairwiseKey.key = used.entry.pairwiseKey.key ∧
      again.entry.pairwiseKey.txTsc = replicate 16 0 ∧
      again.entry.pairwiseKey.rxTsc = replicate 16 0 := by
  decide +kernel

end RtmpDriver.WpaEpoch
