import RtmpDriver.TxFragment
import Mathlib.Logic.Function.Iterate

/-! The fragmentation threshold from its setters to the loop that cuts a frame. One setter's range check lets every
number pass, and the sender divides by what the headers leave of the threshold. -/
namespace RtmpDriver.FragThreshold
open EapolFrame RxFilter LlcSnap TxFragment

def maxFragThreshold : Nat := 2346
def minFragThreshold : Nat := 256

/- `up` is whether the interface is. The two branches behind the range check are never taken. -/
def rtIoctlSiwfrag (up disabled : Bool) (value : BitVec 32) (threshold : Nat) : Nat :=
  if up = false then threshold
  else if disabled then maxFragThreshold
  else if value.toInt ≥ minFragThreshold ∨ value.toInt ≤ maxFragThreshold then (value &&& ~~~1#32).toNat % 2 ^ 16
  else if value = 0 then maxFragThreshold
  else threshold

def setFragThresholdProc (fragThresh : Nat) : Nat :=
  if fragThresh > maxFragThreshold ∨ fragThresh < minFragThreshold then maxFragThreshold
  else if fragThresh % 2 = 1 then fragThresh - 1
  else fragThresh

/- OID_802_11_FRAGMENTATION_THRESHOLD; `sized` is whether the data have the size of the number. -/
def setFragThresholdOid (sized : Bool) (fragThresh threshold : Nat) : Nat :=
  if sized = false then threshold
  else if fragThresh > maxFragThreshold ∨ fragThresh < minFragThreshold then
    if fragThresh = 0 then maxFragThreshold else threshold
  else fragThresh

inductive Setting where
  | siwfrag (up disabled : Bool) (value : BitVec 32)
  | proc (fragThresh : Nat)
  | oid (sized : Bool) (fragThresh : Nat)
  deriving DecidableEq, Repr

def applySetting (threshold : Nat) : Setting → Nat
  | .siwfrag up disabled value => rtIoctlSiwfrag up disabled value threshold
  | .proc fragThresh => setFragThresholdProc fragThresh
  | .oid sized fragThresh => setFragThresholdOid sized fragThresh threshold

def thresholdAfter (settings : List Setting) : Nat := settings.foldl applySetting maxFragThreshold

structure SendState where
  aggregationInUsed : Bool
  amsduInUsed : Bool
  htMode : Bool
  deriving DecidableEq, Repr

def multicast (packet : Bytes) : Bool := packet.getD 0 0 &&& 1 != 0

def estimates (st : SendState) (packet : Bytes) : Bool :=
  !multicast packet && !st.aggregationInUsed && !st.amsduInUsed && !st.htMode

def allowFragSize (threshold : Nat) : Nat := (threshold + 2 ^ 32 - (length80211 + lengthCrc)) % 2 ^ 32

/- The number of fragments, an UCHAR; `none` is the division by zero. -/
def numberOfFrag (threshold : Nat) (st : SendState) (packet : Bytes) : Option Nat :=
  if estimates st packet then
    let size := (packet.length + 2 ^ 32 - length8023 + length8021H) % 2 ^ 32
    if allowFragSize threshold = 0 then none
    else
      let number := (size / allowFragSize threshold + 1) % 256
      some (if size % allowFragSize threshold = 0 then (number + 255) % 256 else number)
  else some 1

/-! What sending needs of the threshold. -/

section Progress
variable (sta : TxSta) (blk : TxBlk)

def turn (k : Nat) : Loop := (fragmentNext sta blk (headerRest sta blk))^[k] (fragmentStart sta blk)

def Reached (k : Nat) : Prop := ∀ j, j < k → 0 < (turn sta blk (j + 1)).srcRemainingBytes

structure Progress (st : SendState) : Prop where
  divides : numberOfFrag sta.fragmentThreshold st blk.packet ≠ none
  allow : estimates st blk.packet = true → length80211 + lengthCrc ≤ sta.fragmentThreshold
  free : ∀ n, numberOfFrag sta.fragmentThreshold st blk.packet = some n → 1 < n → ∀ k, Reached sta blk k →
    lengthCrc + (turn sta blk k).mpduHeaderLen ≤ sta.fragmentThreshold ∧
      0 < freeMpduSize sta.fragmentThreshold (turn sta blk k).mpduHeaderLen
  fragments : ∀ n, numberOfFrag sta.fragmentThreshold st blk.packet = some n → 1 < n →
    ∃ ws, staFragmentFrameTx sta blk = some ws ∧ ws.length ≤ 16

end Progress

theorem applySettingLt {threshold} (small : threshold < 2 ^ 16) (setting) :
    applySetting threshold setting < 2 ^ 16 := by
  have most : maxFragThreshold < 2 ^ 16 := by decide
  cases setting with
  | siwfrag up disabled value =>
    rw [applySetting,rtIoctlSiwfrag]
    split_ifs
    · exact small
    · exact most
    · exact Nat.mod_lt _ (by decide)
    · exact most
    · exact small
  | proc fragThresh =>
    rw [applySetting,setFragThresholdProc]
    split_ifs <;> omega
  | oid sized fragThresh =>
    rw [applySetting,setFragThresholdOid]
    split_ifs <;> omega

theorem thresholdAfterLt (settings) : thresholdAfter settings < 2 ^ 16 := by
  have run : ∀ threshold, threshold < 2 ^ 16 → settings.foldl applySetting threshold < 2 ^ 16 := by
    induction settings with
    | nil => exact fun _ small => small
    | cons setting settings ih => exact fun threshold small => ih _ (applySettingLt small setting)
  exact run maxFragThreshold (by decide)

section Count
variable {sta : TxSta} {blk : TxBlk} {rest : HeaderRest} {s : Loop} {ws : List Bytes} {fuel n k : Nat}

theorem loopTurns (done : fragmentLoop sta blk rest fuel s = some ws) :
    ∃ n, ws.length = n + 1 ∧ (∀ j, j < n → 0 < ((fragmentNext sta blk rest)^[j + 1] s).srcRemainingBytes) ∧
      ((fragmentNext sta blk rest)^[n + 1] s).srcRemainingBytes = 0 := by
  induction fuel generalizing s ws with
  | zero => exact absurd done (by simp [fragmentLoop])
  | succ fuel ih =>
    rw [fragmentLoop] at done
    split at done
    next more =>
      obtain ⟨tail,loop,rfl⟩ := Option.map_eq_some_iff.mp done
      obtain ⟨n,size,each,last⟩ := ih loop
      refine ⟨n + 1,congrArg (· + 1) size,fun j less => ?_,last⟩
      cases j with
      | zero => exact more
      | succ j => exact each j (Nat.lt_of_succ_lt_succ less)
    next last =>
      obtain rfl := Option.some.inj done
      exact ⟨0,rfl,fun j less => absurd less (Nat.not_lt_zero j),Nat.eq_zero_of_not_pos last⟩

theorem loopEnds (more : ∀ j, j < n → 0 < ((fragmentNext sta blk rest)^[j + 1] s).srcRemainingBytes)
    (last : ((fragmentNext sta blk rest)^[n + 1] s).srcRemainingBytes = 0) (room : n < fuel) :
    ∃ ws, fragmentLoop sta blk rest fuel s = some ws ∧ ws.length = n + 1 := by
  induction n generalizing s fuel with
  | zero =>
    obtain ⟨fuel,rfl⟩ := Nat.exists_eq_succ_of_ne_zero (Nat.ne_of_gt room)
    have stop : ¬0 < (fragmentNext sta blk rest s).srcRemainingBytes := Nat.not_lt.mpr (Nat.le_of_eq last)
    rw [fragmentLoop,if_neg stop]
    exact ⟨_,rfl,rfl⟩
  | succ n ih =>
    obtain ⟨fuel,rfl⟩ := Nat.exists_eq_succ_of_ne_zero (Nat.ne_of_gt (Nat.zero_lt_of_lt room))
    obtain ⟨ws,loop,size⟩ := ih (fun j less => more (j + 1) (Nat.succ_lt_succ less)) last (Nat.lt_of_succ_lt_succ room)
    have first : 0 < (fragmentNext sta blk rest s).srcRemainingBytes := more 0 (Nat.succ_pos n)
    rw [fragmentLoop,if_pos first,loop]
    exact ⟨_,rfl,congrArg (· + 1) size⟩

def qosLen (blk : TxBlk) : Nat := if blk.wmm then 2 else 0

def encapLen (blk : TxBlk) : Nat :=
  if (extraLlcSnapEncap ((blk.packet.drop 12).take 2)).isSome then length8021H else 0

def taken (threshold : Nat) (blk : TxBlk) : Nat → Nat
  | 0 => 0
  | k + 1 => threshold - 28 - qosLen blk - encapLen blk + k * (threshold - 28 - qosLen blk)

theorem turnSucc : turn sta blk (k + 1) = fragmentNext sta blk (headerRest sta blk) (turn sta blk k) :=
  Function.iterate_succ_apply' ..

theorem startHeader : (turn sta blk 0).mpduHeaderLen = 24 + qosLen blk + encapLen blk := by
  show length80211 + (headerRest sta blk).qos.length + _ = _
  rw [qosLen,encapLen,headerRest]
  dsimp only
  cases blk.wmm <;> rfl

theorem freeMpduSizeWide {threshold header} (large : lengthCrc + header ≤ threshold) (small : threshold < 2 ^ 16) :
    freeMpduSize threshold header = threshold - (lengthCrc + header) := by
  unfold freeMpduSize
  omega

theorem encapCases (sta blk) : (headerRest sta blk).llc.isSome = true ∧ encapLen blk = length8021H ∨
      (headerRest sta blk).llc.isSome = false ∧ encapLen blk = 0 := by
  rw [encapLen]
  show (extraLlcSnapEncap _).isSome = true ∧ _ ∨ (extraLlcSnapEncap _).isSome = false ∧ _
  split
  next some' => exact .inl ⟨some',rfl⟩
  next none' => exact .inr ⟨Bool.not_eq_true _ ▸ none',rfl⟩

theorem turnClosed (large : 28 + qosLen blk + encapLen blk ≤ sta.fragmentThreshold)
    (small : sta.fragmentThreshold < 2 ^ 16) (few : k ≤ 16) :
    (turn sta blk k).fragNum = k ∧
      (turn sta blk k).mpduHeaderLen = 24 + qosLen blk + (if k = 0 then encapLen blk else 0) ∧
      (turn sta blk k).srcRemainingBytes = (srcData blk).length - taken sta.fragmentThreshold blk k := by
  induction k with
  | zero => exact ⟨rfl,startHeader,rfl⟩
  | succ k ih =>
    obtain ⟨number,header,left⟩ := ih (Nat.le_of_succ_le few)
    have noWrap : lengthCrc + (turn sta blk k).mpduHeaderLen ≤ sta.fragmentThreshold := by
      rw [header,lengthCrc]
      split <;> omega
    have length : fragmentLen sta (turn sta blk k) =
        min (turn sta blk k).srcRemainingBytes
          (sta.fragmentThreshold - (lengthCrc + (turn sta blk k).mpduHeaderLen)) := by
      rw [fragmentLen,freeMpduSizeWide noWrap small]
      split <;> omega
    rw [turnSucc]
    refine ⟨?_,?_,?_⟩
    · show ((turn sta blk k).fragNum + 1) % 256 = k + 1
      omega
    · show (if (turn sta blk k).fragNum = 0 ∧ (headerRest sta blk).llc.isSome then
        (turn sta blk k).mpduHeaderLen - length8021H else (turn sta blk k).mpduHeaderLen) = _
      rw [number,header,if_neg (Nat.succ_ne_zero k)]
      rcases encapCases sta blk with ⟨llc,encap⟩ | ⟨llc,encap⟩
      · cases k with
        | zero => simp only [llc,encap,and_self,↓reduceIte,Nat.add_sub_cancel,Nat.add_zero]
        | succ k => simp only [Nat.succ_ne_zero,false_and,↓reduceIte]
      · simp only [llc,encap,Bool.false_eq_true,and_false,↓reduceIte,ite_self]
    · show (turn sta blk k).srcRemainingBytes - fragmentLen sta (turn sta blk k) = _
      rw [length,header,left]
      cases k with
      | zero =>
        simp only [taken,lengthCrc,↓reduceIte,Nat.zero_mul]
        omega
      | succ k =>
        simp only [taken,lengthCrc,Nat.succ_ne_zero,↓reduceIte,Nat.add_mul,Nat.one_mul]
        omega

theorem takenLe {threshold i} (less : i ≤ k) : taken threshold blk (i + 1) ≤ taken threshold blk (k + 1) :=
  Nat.add_le_add_left (Nat.mul_le_mul_right _ less) _

theorem takenGe {threshold} (large : 29 + qosLen blk + encapLen blk ≤ threshold) : k ≤ taken threshold blk k := by
  cases k with
  | zero => exact Nat.le_refl 0
  | succ k =>
    have full : k * 1 ≤ k * (threshold - 28 - qosLen blk) := Nat.mul_le_mul_left k (by omega)
    rw [taken]
    omega

theorem takenSixteen {threshold} (large : 29 + qosLen blk + encapLen blk ≤ threshold) :
    taken threshold blk 16 + encapLen blk = 16 * (threshold - 28 - qosLen blk) := by
  rw [taken]
  omega

theorem sixteenFragments (large : 29 + qosLen blk + encapLen blk ≤ sta.fragmentThreshold)
    (small : sta.fragmentThreshold < 2 ^ 16) : (∃ ws, staFragmentFrameTx sta blk = some ws ∧ ws.length ≤ 16) ↔
      (srcData blk).length + encapLen blk ≤ 16 * (sta.fragmentThreshold - 28 - qosLen blk) := by
  rw [← takenSixteen large,Nat.add_le_add_iff_right]
  have left : ∀ k, k ≤ 16 → (turn sta blk k).srcRemainingBytes =
      (srcData blk).length - taken sta.fragmentThreshold blk k := fun k few => (turnClosed (by omega) small few).2.2
  constructor
  · rintro ⟨ws,done,few⟩
    obtain ⟨n,size,_,last⟩ := loopTurns done
    have zero : (turn sta blk (n + 1)).srcRemainingBytes = 0 := last
    have more : taken sta.fragmentThreshold blk (n + 1) ≤ taken sta.fragmentThreshold blk 16 := takenLe (by omega)
    rw [left (n + 1) (by omega)] at zero
    omega
  · intro fits
    have ends : ∃ n, (srcData blk).length ≤ taken sta.fragmentThreshold blk (n + 1) := ⟨15,fits⟩
    obtain ⟨n,last,least⟩ : ∃ n, (srcData blk).length ≤ taken sta.fragmentThreshold blk (n + 1) ∧
        ∀ j, j < n → ¬(srcData blk).length ≤ taken sta.fragmentThreshold blk (j + 1) :=
      ⟨Nat.find ends,Nat.find_spec ends,fun j => Nat.find_min ends⟩
    have few : n ≤ 15 := Nat.not_lt.mp fun more => least 15 more fits
    have room : n < (srcData blk).length + 1 := by
      cases n with
      | zero => exact Nat.succ_pos _
      | succ n =>
        have progress : n + 1 ≤ taken sta.fragmentThreshold blk (n + 1) := takenGe large
        have before := least n (Nat.lt_succ_self n)
        omega
    have more : ∀ j, j < n → 0 < (turn sta blk (j + 1)).srcRemainingBytes := by
      intro j less
      have open' := least j less
      rw [left (j + 1) (by omega)]
      omega
    have none' : (turn sta blk (n + 1)).srcRemainingBytes = 0 := by
      rw [left (n + 1) (by omega)]
      omega
    obtain ⟨ws,done,size⟩ := loopEnds more none' room
    exact ⟨ws,done,by omega⟩

theorem freePositive (large : 29 + qosLen blk + encapLen blk ≤ sta.fragmentThreshold)
    (small : sta.fragmentThreshold < 2 ^ 16)
    (fits : (srcData blk).length ≤ taken sta.fragmentThreshold blk 16) (reached : Reached sta blk k) :
    lengthCrc + (turn sta blk k).mpduHeaderLen ≤ sta.fragmentThreshold ∧
      0 < freeMpduSize sta.fragmentThreshold (turn sta blk k).mpduHeaderLen := by
  have few : k ≤ 15 := by
    by_contra more
    have some' := reached 15 (by omega)
    rw [(turnClosed (by omega) small (Nat.le_refl 16)).2.2] at some'
    omega
  have header : (turn sta blk k).mpduHeaderLen = _ := (turnClosed (by omega) small (show k ≤ 16 by omega)).2.1
  have noWrap : lengthCrc + (turn sta blk k).mpduHeaderLen + 1 ≤ sta.fragmentThreshold := by
    rw [header,lengthCrc]
    split <;> omega
  refine ⟨by omega,?_⟩
  rw [freeMpduSizeWide (by omega) small]
  omega

end Count

theorem estimateCeil {size allow} (some' : 0 < allow) :
    (if size % allow = 0 then ((size / allow + 1) % 256 + 255) % 256 else (size / allow + 1) % 256) =
      (size + allow - 1) / allow % 256 := by
  have parts : size + allow - 1 = allow * (size / allow) + (size % allow + allow - 1) := by
    have := Nat.div_add_mod size allow
    omega
  rw [parts,Nat.mul_add_div some']
  have less := Nat.mod_lt size some'
  split
  next exact' =>
    have zero : (size % allow + allow - 1) / allow = 0 := Nat.div_eq_of_lt (by omega)
    rw [zero]
    omega
  next inexact =>
    have one : (size % allow + allow - 1) / allow = 1 := Nat.div_eq_of_lt_le (by omega) (by omega)
    rw [one]

theorem numberOfFragIs {threshold st packet} (counted : estimates st packet = true)
    (large : 29 ≤ threshold) (small : threshold < 2 ^ 16) (header : 14 ≤ packet.length)
    (short : packet.length < 2 ^ 16) : numberOfFrag threshold st packet =
      some ((packet.length - 6 + (threshold - 28) - 1) / (threshold - 28) % 256) := by
  have allow : allowFragSize threshold = threshold - 28 := by
    simp only [allowFragSize,length80211,lengthCrc]
    omega
  have size : (packet.length + 2 ^ 32 - length8023 + length8021H) % 2 ^ 32 = packet.length - 6 := by
    simp only [length8023,length8021H]
    omega
  rw [numberOfFrag,if_pos counted]
  dsimp only
  rw [allow,size,if_neg (by omega),estimateCeil (by omega)]

def Enough (sta : TxSta) (blk : TxBlk) (st : SendState) : Prop :=
  estimates st blk.packet = true → 29 ≤ sta.fragmentThreshold ∧
    (1 < (blk.packet.length - 6 + (sta.fragmentThreshold - 28) - 1) / (sta.fragmentThreshold - 28) % 256 →
      29 + qosLen blk + encapLen blk ≤ sta.fragmentThreshold ∧
      (srcData blk).length + encapLen blk ≤ 16 * (sta.fragmentThreshold - 28 - qosLen blk))

theorem fragmentProgress (settings : List Setting) (sta : TxSta) (blk : TxBlk) (st : SendState)
    (after : sta.fragmentThreshold = thresholdAfter settings) (plain : blk.cipher = .none)
    (payload : 1 ≤ (srcData blk).length ∧ (srcData blk).length ≤ 1500) :
    Progress sta blk st ↔ Enough sta blk st := by
  have small : sta.fragmentThreshold < 2 ^ 16 := after ▸ thresholdAfterLt settings
  have length : (srcData blk).length = blk.packet.length - (14 + if blk.vlan then length8021Q else 0) := by
    rw [srcData,if_neg (by rw [plain]; decide),List.length_drop,length8023]
  have tag : (if blk.vlan then length8021Q else 0) ≤ 4 := by
    rw [length8021Q]
    split <;> omega
  have number : estimates st blk.packet = true → 29 ≤ sta.fragmentThreshold →
      numberOfFrag sta.fragmentThreshold st blk.packet = some _ :=
    fun counted large => numberOfFragIs counted large small (by omega) (by omega)
  constructor
  · intro progress counted
    have large : 29 ≤ sta.fragmentThreshold := by
      have noWrap := progress.allow counted
      have divides := progress.divides
      rw [numberOfFrag,if_pos counted] at divides
      rcases Nat.eq_or_lt_of_le noWrap with same | more
      · rw [← same] at divides
        exact absurd rfl divides
      · exact more
    refine ⟨large,fun more => ?_⟩
    have first := progress.free _ (number counted large) more 0 (fun j less => absurd less (Nat.not_lt_zero j))
    rw [startHeader,lengthCrc] at first
    have room : 29 + qosLen blk + encapLen blk ≤ sta.fragmentThreshold := by
      rw [freeMpduSizeWide (by rw [lengthCrc]; exact first.1) small,lengthCrc] at first
      omega
    exact ⟨room,(sixteenFragments room small).mp (progress.fragments _ (number counted large) more)⟩
  · intro enough
    cases counted : estimates st blk.packet with
    | false =>
      have one : numberOfFrag sta.fragmentThreshold st blk.packet = some 1 := if_neg (by simp [counted])
      rw [← Bool.not_eq_true] at counted
      refine ⟨by simp [one],fun yes => absurd yes counted,?_,?_⟩
      · intro n same more
        exact absurd (Option.some.inj (one.symm.trans same)) (by omega)
      · intro n same more
        exact absurd (Option.some.inj (one.symm.trans same)) (by omega)
    | true =>
      obtain ⟨large,cut⟩ := enough counted
      have known := number counted large
      refine ⟨by simp [known],fun _ => by simp only [length80211,lengthCrc]; omega,?_,?_⟩
      · intro n same more k reached
        obtain ⟨room,fits⟩ := cut (Option.some.inj (known.symm.trans same) ▸ more)
        rw [← takenSixteen room,Nat.add_le_add_iff_right] at fits
        exact freePositive room small fits reached
      · intro n same more
        obtain ⟨room,fits⟩ := cut (Option.some.inj (known.symm.trans same) ▸ more)
        exact (sixteenFragments room small).mpr fits

def plainSta (threshold : Nat) : TxSta := { sampleTxSta with fragmentThreshold := threshold }

def plainBlk : TxBlk :=
  { sampleBlk [] with packet := List.replicate 12 2 ++ ([8,0] ++ List.replicate 300 0) }

def plainSend : SendState := ⟨false,false,false⟩

theorem plainSizes : (srcData plainBlk).length = 300 ∧ qosLen plainBlk = 0 ∧ encapLen plainBlk = 8 := by
  decide +kernel

theorem fragmentProgressMin : Progress (plainSta 256) plainBlk plainSend := by
  obtain ⟨payload,qos,encap⟩ := plainSizes
  refine (fragmentProgress [.siwfrag true false 256#32] (plainSta 256) plainBlk plainSend (by decide) rfl
    (by omega)).mpr fun _ => ⟨by decide,fun _ => ?_⟩
  have threshold : (plainSta 256).fragmentThreshold = 256 := rfl
  omega

theorem fragmentDividesByZero :
    (plainSta 28).fragmentThreshold = thresholdAfter [.siwfrag true false 28#32] ∧ multicast plainBlk.packet = false ∧
      plainBlk.cipher = .none ∧ (srcData plainBlk).length = 300 ∧ ¬Progress (plainSta 28) plainBlk plainSend :=
  ⟨by decide,by decide,rfl,plainSizes.1,fun progress => progress.divides (by decide)⟩

end RtmpDriver.FragThreshold
