import RtmpDriver.BssTable

/-! NetworkTypeInUseSanity. The second of its two loops goes over the number of the extended rates, and reads the
supported ones again. -/
namespace RtmpDriver.RateClass
open BssTable

inductive NetworkType where
  | fh | ds | ofdm5 | ofdm24 | automode | ofdm5N | ofdm24N | ofdm5AC
  deriving DecidableEq, Repr

def CckRate (r : UInt8) : Prop := r &&& 0x7f = 2 ∨ r &&& 0x7f = 4 ∨ r &&& 0x7f = 11 ∨ r &&& 0x7f = 22

instance (r : UInt8) : Decidable (CckRate r) := inferInstanceAs (Decidable (_ ∨ _ ∨ _ ∨ _))

def rateLoop (rates : Nat → UInt8) : Nat → Nat → NetworkType → NetworkType
  | 0,_,type => type
  | count + 1,i,type => if CckRate (rates i) then rateLoop rates count (i + 1) type else .ofdm24

variable {w : Nat}

def networkTypeInUseSanity (bss : BssEntry w) : NetworkType :=
  let type :=
    if bss.channel ≤ 14 then
      let type := rateLoop bss.supRate bss.supRateLen.toNat 0 .ds
      if type ≠ .ofdm24 then rateLoop bss.supRate bss.extRateLen.toNat 0 type else type
    else .ofdm5
  if bss.htCapabilityLen ≠ 0 then
    if type = .ofdm5 then
      if bss.vhtCapLen ≠ 0 then .ofdm5AC else .ofdm5N
    else .ofdm24N
  else type

def AllCck (rates : Nat → UInt8) (n : Nat) : Prop := ∀ i, i < n → CckRate (rates i)

instance (rates : Nat → UInt8) (n : Nat) : Decidable (AllCck rates n) :=
  inferInstanceAs (Decidable (∀ i, i < n → _))

theorem rateLoopFrom (rates count i) :
    rateLoop rates count i .ds = if ∀ k, i ≤ k → k < i + count → CckRate (rates k) then .ds else .ofdm24 := by
  induction count generalizing i with
  | zero => exact (if_pos fun k low high => absurd high (by omega)).symm
  | succ count ih =>
    rw [rateLoop]
    split
    next cck =>
      rw [ih]
      congr 1
      apply propext
      constructor
      · intro later k low high
        by_cases here : k = i
        · exact here ▸ cck
        · exact later k (by omega) (by omega)
      · intro all k low high
        exact all k (by omega) (by omega)
    next other => rw [if_neg fun all => other (all i (Nat.le_refl i) (by omega))]

theorem rateLoopIs (rates count) :
    rateLoop rates count 0 .ds = if AllCck rates count then .ds else .ofdm24 := by
  rw [rateLoopFrom]
  congr 1
  apply propext
  rw [Nat.zero_add]
  exact ⟨fun all k high => all k (Nat.zero_le k) high,fun all k _ high => all k high⟩

theorem networkTypeIs {bss : BssEntry w} (low : bss.channel ≤ 14) (legacy : bss.htCapabilityLen = 0) :
    networkTypeInUseSanity bss =
      if AllCck bss.supRate bss.supRateLen.toNat ∧ AllCck bss.supRate bss.extRateLen.toNat then .ds else .ofdm24 := by
  unfold networkTypeInUseSanity
  simp only [if_pos low,legacy,ne_eq,not_true_eq_false,if_false,rateLoopIs]
  by_cases sup : AllCck bss.supRate bss.supRateLen.toNat
  · rw [if_pos sup,if_pos (by decide),rateLoopIs]
    simp only [sup,true_and]
  · rw [if_neg sup,if_neg (by decide),if_neg fun both => sup both.1]

def Classified (bss : BssEntry w) : Prop :=
  (networkTypeInUseSanity bss = .ds ↔
    AllCck bss.supRate bss.supRateLen.toNat ∧ AllCck bss.extRate bss.extRateLen.toNat) ∧
  (¬ (AllCck bss.supRate bss.supRateLen.toNat ∧ AllCck bss.extRate bss.extRateLen.toNat) →
    networkTypeInUseSanity bss = .ofdm24)

def Agrees (bss : BssEntry w) : Prop :=
  ¬ AllCck bss.supRate bss.supRateLen.toNat ∨
    (AllCck bss.supRate bss.extRateLen.toNat ↔ AllCck bss.extRate bss.extRateLen.toNat)

theorem networkTypeClassified (bss : BssEntry w) (low : bss.channel ≤ 14) (legacy : bss.htCapabilityLen = 0) :
    Classified bss ↔ Agrees bss := by
  unfold Classified Agrees
  rw [networkTypeIs low legacy]
  by_cases sup : AllCck bss.supRate bss.supRateLen.toNat
  · simp only [sup,true_and,not_true_eq_false,false_or]
    by_cases looked : AllCck bss.supRate bss.extRateLen.toNat
    · simp [looked]
    · simp [looked]
  · simp [sup]

def rated (sup ext : List UInt8) : BssEntry 64 :=
  { BssEntry.zero with
    channel := 6
    supRate := fun i => sup.getD i 0
    supRateLen := UInt8.ofNat sup.length
    extRate := fun i => ext.getD i 0
    extRateLen := UInt8.ofNat ext.length }

def cckRates : List UInt8 := [0x82,0x84,0x8b,0x96]
def ofdmRates : List UInt8 := [12,24,48,108]

theorem networkTypeClassifiedCck : Classified (rated cckRates cckRates) :=
  (networkTypeClassified (rated cckRates cckRates) (by decide) rfl).mpr (.inr (by decide))

theorem extendedRatesUnseen :
    (networkTypeInUseSanity (rated cckRates ofdmRates) = .ds ∧ ¬ Classified (rated cckRates ofdmRates)) ∧
    networkTypeInUseSanity (rated [0x82,0x84,0x8b] cckRates) = .ofdm24 ∧
      ¬ Classified (rated [0x82,0x84,0x8b] cckRates) := by
  have first : networkTypeInUseSanity (rated cckRates ofdmRates) = .ds := by decide
  have second : networkTypeInUseSanity (rated [0x82,0x84,0x8b] cckRates) = .ofdm24 := by decide
  refine ⟨⟨first,fun right => ?_⟩,second,fun right => ?_⟩
  · exact absurd (right.1.mp first).2 (by decide)
  · have ds := right.1.mpr ⟨by decide,by decide⟩
    cases second.symm.trans ds

end RtmpDriver.RateClass
