import RtmpDriver.ByteMemory
import RtmpDriver.LlcSnap

/-! deaggregate_AMSDU_announce in station mode. Memory is counted from the start of the body. A turn of the loop keeps
the ranges it reads and writes, the region it copies to an MLME element and the one it clones. -/
namespace RtmpDriver.Amsdu
open EapolFrame WpaSupplicant RxFilter LlcSnap ByteMemory List

def eapolHigh : UInt8 := 0x88
def eapolLow : UInt8 := 0x8e

/- Whether the allocation of an MLME element and the clone succeed, for the subframe at an offset. -/
structure Env where
  elem : Nat → Bool
  clone : Nat → Bool

def payloadSize (m : Nat → UInt8) (pos : Nat) : BitVec 16 := BitVec.ofNat 16 (be16 m (pos + 12))
def subFrameSize (m : Nat → UInt8) (pos : Nat) : BitVec 16 := payloadSize m pos + BitVec.ofNat 16 length8023

def paddedSize (m : Nat → UInt8) (pos : Nat) : Nat := ((subFrameSize m pos).toNat + 3) / 4 * 4 % 65536

structure Handled where
  converted : Converted
  mlme : Option (Nat × Nat)
  clone : Nat × Nat
  packet : Option Bytes
  deriving DecidableEq, Repr

structure Visit where
  remaining : Nat
  payloadSize : Nat
  reads : List (Nat × Nat)
  writes : List (Nat × Nat)
  handled : Option Handled
  deriving DecidableEq, Repr

def convertedAt (m : Nat → UInt8) (pos : Nat) : Converted :=
  convertTo8023 (bytesAt m pos 6) (bytesAt m (pos + 6) 6) (fun i => m (pos + length8023 + i)) (payloadSize m pos)

def payloadAt (m : Nat → UInt8) (pos : Nat) : Nat :=
  pos + length8023 + if (convertedAt m pos).removed then length8021H else 0

def rewritten (m : Nat → UInt8) (pos : Nat) : Nat → UInt8 :=
  if (convertedAt m pos).removed then store m (payloadAt m pos - length8023) (convertedAt m pos).header8023 else m

def cloneAt (m : Nat → UInt8) (pos : Nat) : Nat × Nat :=
  let c := convertedAt m pos
  if c.removed then (payloadAt m pos - length8023,(c.dataSize + BitVec.ofNat 16 length8023).toNat)
  else (payloadAt m pos,c.dataSize.toNat)

def isEapolType (c : Converted) : Bool := c.header8023.getD 12 0 == eapolHigh && c.header8023.getD 13 0 == eapolLow

def handledAt (env : Env) (m : Nat → UInt8) (pos : Nat) : Handled where
  converted := convertedAt m pos
  mlme := if isEapolType (convertedAt m pos) ∧ env.elem pos then
      some (payloadAt m pos,(convertedAt m pos).dataSize.toNat)
    else none
  clone := cloneAt m pos
  packet := if env.clone pos then some (bytesAt (rewritten m pos) (cloneAt m pos).1 (cloneAt m pos).2) else none

def snapAt (m : Nat → UInt8) (pos : Nat) : Bool :=
  bytesAt m (pos + length8023) 6 = snap8021H ∨ bytesAt m (pos + length8023) 6 = snapBridgeTunnel

def visitAt (env : Env) (m : Nat → UInt8) (pos remaining : Nat) : Visit where
  remaining := remaining
  payloadSize := (payloadSize m pos).toNat
  reads := [(pos + 12,2),(pos,6),(pos + 6,6),(pos + length8023,6)] ++
    if snapAt m pos then [(pos + length8023 + 6,2)] else []
  writes := if (convertedAt m pos).removed then [(payloadAt m pos - length8023,length8023)] else []
  handled := some (handledAt env m pos)

def stopAt (m : Nat → UInt8) (pos remaining : Nat) : Visit :=
  ⟨remaining,(payloadSize m pos).toNat,[(pos + 12,2)],[],none⟩

def sizeRefused (m : Nat → UInt8) (pos remaining : Nat) : Bool :=
  remaining < (subFrameSize m pos).toNat ∨ 1518 < (payloadSize m pos).toNat

def deaggregateAmsduAnnounce (env : Env) : Nat → (Nat → UInt8) → Nat → Nat → Option (List Visit)
  | 0,_,_,_ => none
  | fuel + 1,m,pos,dataSize =>
    if dataSize ≤ length8023 then some []
    else if sizeRefused m pos dataSize then some [stopAt m pos dataSize]
    else if 1528 < paddedSize m pos ∨ paddedSize m pos < 32 then some [visitAt env m pos dataSize]
    else if paddedSize m pos < dataSize then
      (deaggregateAmsduAnnounce env fuel (rewritten m pos) (pos + paddedSize m pos) (dataSize - paddedSize m pos)).map
        (visitAt env m pos dataSize :: ·)
    else some [visitAt env m pos dataSize]

def Inside (total : Nat) (r : Nat × Nat) : Prop := r.1 + r.2 ≤ total

structure Visit.InBounds (total : Nat) (v : Visit) : Prop where
  reads : ∀ r ∈ v.reads, Inside total r
  writes : ∀ r ∈ v.writes, Inside total r
  sizes : ∀ h, v.handled = some h →
    h.converted.dataSize.toNat ≤ v.payloadSize ∧ h.converted.dataSize.toNat ≤ v.remaining ∧ h.clone.2 ≤ v.remaining
  clone : ∀ h, v.handled = some h → Inside total h.clone
  mlme : ∀ h r, v.handled = some h → h.mlme = some r → Inside total r

def subframes (m : Nat → UInt8) : Nat → Nat → Nat → List (Nat × Nat)
  | 0,_,_ => []
  | fuel + 1,pos,remaining =>
    if remaining ≤ length8023 ∨ sizeRefused m pos remaining then []
    else if 1528 < paddedSize m pos ∨ paddedSize m pos < 32 ∨ remaining ≤ paddedSize m pos then [(pos,remaining)]
    else (pos,remaining) :: subframes m fuel (pos + paddedSize m pos) (remaining - paddedSize m pos)

structure LongEnough (m : Nat → UInt8) (pos remaining : Nat) : Prop where
  compared : length8023 + 6 ≤ remaining
  type : snapAt m pos = true → length8023 + length8021H ≤ remaining
  removed : (convertedAt m pos).removed = true → length8021H ≤ (payloadSize m pos).toNat

variable {env : Env} {m m' : Nat → UInt8} {pos remaining total : Nat}

theorem snapBytes : bytesAt (fun i => m (pos + length8023 + i)) 0 6 = bytesAt m (pos + length8023) 6 := by
  simp [bytesAt]

theorem convertedCases (m pos) :
    ((convertedAt m pos).removed = false ∧ (convertedAt m pos).dataSize = payloadSize m pos ∧
      (convertedAt m pos).header8023 = bytesAt m pos 6 ++ bytesAt m (pos + 6) 6 ++ llcLen (payloadSize m pos)) ∨
    ((convertedAt m pos).removed = true ∧ snapAt m pos = true ∧
      (convertedAt m pos).dataSize = payloadSize m pos - BitVec.ofNat 16 length8021H) := by
  unfold convertedAt convertTo8023 snapAt
  rw [snapBytes]
  split
  next snap =>
    split
    · exact .inl ⟨rfl,rfl,rfl⟩
    · exact .inr ⟨rfl,decide_eq_true snap,rfl⟩
  next => exact .inl ⟨rfl,rfl,rfl⟩

theorem keptNotEapol {da sa size c} (short : size.toNat ≤ 1518)
    (lengths : da.length = 6 ∧ sa.length = 6) (header : c.header8023 = da ++ sa ++ llcLen size) :
    isEapolType c = false := by
  have at12 : c.header8023.getD 12 0 = UInt8.ofNat (size.toNat / 256) := by
    rw [header]
    simp [getD_eq_getElem?_getD,lengths,llcLen]
  have small : UInt8.ofNat (size.toNat / 256) ≠ eapolHigh := by
    intro same
    have value := congrArg UInt8.toNat same
    rw [UInt8.toNat_ofNat'] at value
    have high : eapolHigh.toNat = 136 := rfl
    omega
  unfold isEapolType
  rw [at12,beq_eq_false_iff_ne.mpr small,Bool.false_and]

theorem sizeAccepted (accepted : sizeRefused m pos remaining = false) :
    (payloadSize m pos).toNat + length8023 ≤ remaining ∧ (payloadSize m pos).toNat ≤ 1518 := by
  simp only [sizeRefused,decide_eq_false_iff_not,not_or,Nat.not_lt,subFrameSize,BitVec.toNat_add,BitVec.toNat_ofNat]
    at accepted
  have fourteen : length8023 = 14 := rfl
  omega

theorem readsInside (env) (whole : pos + remaining = total) :
    (∀ r ∈ (visitAt env m pos remaining).reads, Inside total r) ↔
      length8023 + 6 ≤ remaining ∧ (snapAt m pos = true → length8023 + length8021H ≤ remaining) := by
  have fourteen : length8023 = 14 := rfl
  have eight : length8021H = 8 := rfl
  constructor
  · intro inside
    have compared := inside (pos + length8023,6) (by simp [visitAt])
    unfold Inside at compared
    refine ⟨by omega,fun snap => ?_⟩
    have type := inside (pos + length8023 + 6,2) (by simp [visitAt,snap])
    unfold Inside at type
    omega
  · intro ⟨compared,type⟩ r mem
    simp only [visitAt,mem_append,mem_cons,not_mem_nil,or_false] at mem
    unfold Inside
    rcases mem with (rfl | rfl | rfl | rfl) | mem
    · simp only
      omega
    · simp only
      omega
    · simp only
      omega
    · simp only
      omega
    · split at mem
      next snap =>
        have room := type snap
        rw [mem_singleton.mp mem]
        simp only
        omega
      next => cases mem

theorem keptClone (kept : (convertedAt m pos).removed = false)
    (same : (convertedAt m pos).dataSize = payloadSize m pos) :
    cloneAt m pos = (pos + 14,(payloadSize m pos).toNat) := by
  have place : payloadAt m pos = pos + 14 := by simp [payloadAt,kept,length8023]
  simp [cloneAt,kept,same,place]

theorem removedPlaces (removed : (convertedAt m pos).removed = true)
    (less : (convertedAt m pos).dataSize = payloadSize m pos - BitVec.ofNat 16 length8021H)
    (enough : length8021H ≤ (payloadSize m pos).toNat) (short : (payloadSize m pos).toNat ≤ 1518) :
    payloadAt m pos = pos + 22 ∧ (convertedAt m pos).dataSize.toNat = (payloadSize m pos).toNat - 8 ∧
      cloneAt m pos = (pos + 8,(payloadSize m pos).toNat + 6) := by
  have fourteen : length8023 = 14 := rfl
  have eight : length8021H = 8 := rfl
  have place : payloadAt m pos = pos + 22 := by simp [payloadAt,removed,fourteen,eight]
  have size : (convertedAt m pos).dataSize.toNat = (payloadSize m pos).toNat - 8 := by
    rw [less,BitVec.toNat_sub,BitVec.toNat_ofNat]
    omega
  refine ⟨place,size,?_⟩
  simp only [cloneAt,removed,if_true,place,BitVec.toNat_add,size,BitVec.toNat_ofNat,Prod.mk.injEq]
  omega

theorem removedEnough (short : (payloadSize m pos).toNat ≤ 1518)
    (size : (convertedAt m pos).dataSize.toNat ≤ (payloadSize m pos).toNat)
    (removed : (convertedAt m pos).removed = true) : length8021H ≤ (payloadSize m pos).toNat := by
  have eight : length8021H = 8 := rfl
  rcases convertedCases m pos with ⟨kept,-⟩ | ⟨-,-,less⟩
  · rw [kept] at removed
    cases removed
  · rw [less,BitVec.toNat_sub,BitVec.toNat_ofNat] at size
    omega

theorem visitInBounds (env) (accepted : sizeRefused m pos remaining = false) (whole : pos + remaining = total) :
    (visitAt env m pos remaining).InBounds total ↔ LongEnough m pos remaining := by
  obtain ⟨fits,short⟩ := sizeAccepted accepted
  have fourteen : length8023 = 14 := rfl
  have eight : length8021H = 8 := rfl
  constructor
  · intro bounds
    obtain ⟨compared,type⟩ := (readsInside env whole).mp bounds.reads
    exact ⟨compared,type,removedEnough short (bounds.sizes (handledAt env m pos) rfl).1⟩
  · intro long
    have reads := (readsInside env whole).mpr ⟨long.compared,long.type⟩
    rcases convertedCases m pos with ⟨kept,same,header⟩ | ⟨removed,snap,less⟩
    · have plain := keptNotEapol short ⟨by simp [bytesAt],by simp [bytesAt]⟩ header
      have clone := keptClone kept same
      refine ⟨reads,by simp [visitAt,kept],?_,?_,?_⟩
      · rintro h ⟨⟩
        simp only [visitAt,handledAt,same,clone]
        omega
      · rintro h ⟨⟩
        simp only [handledAt,clone,Inside]
        omega
      · rintro h r ⟨⟩ mlme
        simp [handledAt,plain] at mlme
    · have enough := long.removed removed
      obtain ⟨place,size,clone⟩ := removedPlaces removed less enough short
      refine ⟨reads,?_,?_,?_,?_⟩
      · intro r mem
        simp only [visitAt,removed,if_true,mem_singleton] at mem
        subst mem
        simp only [Inside,place]
        omega
      · rintro h ⟨⟩
        simp only [visitAt,handledAt,size,clone]
        omega
      · rintro h ⟨⟩
        simp only [handledAt,clone,Inside]
        omega
      · rintro h r ⟨⟩ mlme
        simp only [handledAt] at mlme
        split at mlme
        · cases Option.some.inj mlme
          simp only [Inside,place,size]
          omega
        · cases mlme

section Congr

theorem bytesAtCongr {p n} (same : ∀ i, pos ≤ i → m' i = m i) (behind : pos ≤ p) : bytesAt m' p n = bytesAt m p n :=
  loadCongr fun i low _ => same i (by omega)

theorem payloadSizeCongr (same : ∀ i, pos ≤ i → m' i = m i) : payloadSize m' pos = payloadSize m pos := by
  unfold payloadSize be16
  rw [same _ (by omega),same _ (by omega)]

theorem snapAtCongr (same : ∀ i, pos ≤ i → m' i = m i) : snapAt m' pos = snapAt m pos := by
  unfold snapAt
  rw [bytesAtCongr same (by omega)]

theorem convertedCongr (same : ∀ i, pos ≤ i → m' i = m i) : convertedAt m' pos = convertedAt m pos := by
  have data : (fun i => m' (pos + length8023 + i)) = fun i => m (pos + length8023 + i) := by
    funext i
    exact same _ (by omega)
  unfold convertedAt
  rw [data,payloadSizeCongr same,bytesAtCongr same (by omega),bytesAtCongr same (by omega)]

theorem longEnoughCongr (same : ∀ i, pos ≤ i → m' i = m i) :
    LongEnough m' pos remaining ↔ LongEnough m pos remaining := by
  constructor
  · rintro ⟨compared,type,removed⟩
    rw [snapAtCongr same] at type
    rw [convertedCongr same,payloadSizeCongr same] at removed
    exact ⟨compared,type,removed⟩
  · rintro ⟨compared,type,removed⟩
    rw [← snapAtCongr same] at type
    rw [← convertedCongr same,← payloadSizeCongr same] at removed
    exact ⟨compared,type,removed⟩

theorem subframesCongr (fuel remaining) (same : ∀ i, pos ≤ i → m' i = m i) :
    subframes m' fuel pos remaining = subframes m fuel pos remaining ∧
      ∀ s ∈ subframes m fuel pos remaining, pos ≤ s.1 := by
  induction fuel generalizing pos remaining with
  | zero => exact ⟨rfl,by simp [subframes]⟩
  | succ fuel ih =>
    have size := payloadSizeCongr same
    have refused : sizeRefused m' pos remaining = sizeRefused m pos remaining := by
      unfold sizeRefused subFrameSize
      rw [size]
    have padded : paddedSize m' pos = paddedSize m pos := by
      unfold paddedSize subFrameSize
      rw [size]
    unfold subframes
    rw [refused,padded]
    have further : ∀ i, pos + paddedSize m pos ≤ i → m' i = m i := fun i low => same i (by omega)
    obtain ⟨rest,behind⟩ := ih (remaining - paddedSize m pos) further
    split
    · exact ⟨rfl,by simp⟩
    · split
      · exact ⟨rfl,by simp⟩
      · refine ⟨by rw [rest],?_⟩
        intro s mem
        rcases mem_cons.mp mem with rfl | later
        · exact Nat.le_refl pos
        · have := behind s later
          omega

end Congr

theorem headerLength (m pos) : (convertedAt m pos).header8023.length = length8023 := by
  unfold convertedAt convertTo8023
  split
  · split <;> simp [bytesAt,llcLen,length8023]
  · simp [bytesAt,llcLen,length8023]

theorem rewrittenBehind {i} (behind : pos + 22 ≤ i) : rewritten m pos i = m i := by
  unfold rewritten
  split
  next removed =>
    have place : payloadAt m pos = pos + 22 := by simp [payloadAt,removed,length8023,length8021H]
    refine storeOut (.inr ?_)
    rw [headerLength,place]
    show pos + 22 - 14 + 14 ≤ i
    omega
  next => rfl

theorem announceLast (env fuel) (long : length8023 < remaining) (accepted : sizeRefused m pos remaining = false)
    (last : 1528 < paddedSize m pos ∨ paddedSize m pos < 32 ∨ remaining ≤ paddedSize m pos) :
    deaggregateAmsduAnnounce env (fuel + 1) m pos remaining = some [visitAt env m pos remaining] := by
  unfold deaggregateAmsduAnnounce
  rw [if_neg (by omega),accepted,if_neg Bool.false_ne_true]
  by_cases ends : 1528 < paddedSize m pos ∨ paddedSize m pos < 32
  · rw [if_pos ends]
  · rw [if_neg ends,if_neg (by omega)]

theorem announceMore {fuel visits} (long : length8023 < remaining) (accepted : sizeRefused m pos remaining = false)
    (more : ¬ (1528 < paddedSize m pos ∨ paddedSize m pos < 32 ∨ remaining ≤ paddedSize m pos))
    (run : deaggregateAmsduAnnounce env fuel (rewritten m pos) (pos + paddedSize m pos) (remaining - paddedSize m pos) =
      some visits) :
    deaggregateAmsduAnnounce env (fuel + 1) m pos remaining = some (visitAt env m pos remaining :: visits) := by
  unfold deaggregateAmsduAnnounce
  rw [if_neg (by omega),accepted,if_neg Bool.false_ne_true,if_neg (by omega),if_pos (by omega),run]
  rfl

theorem stopInBounds (long : length8023 < remaining) (whole : pos + remaining = total) :
    (stopAt m pos remaining).InBounds total := by
  refine ⟨?_,by simp [stopAt],by simp [stopAt],by simp [stopAt],by simp [stopAt]⟩
  intro r mem
  rw [mem_singleton.mp mem]
  simp only [Inside]
  have fourteen : length8023 = 14 := rfl
  omega

theorem turnsInBounds (env m) {fuel} (enough : remaining < fuel) (whole : pos + remaining = total) :
    ∃ visits, deaggregateAmsduAnnounce env fuel m pos remaining = some visits ∧
      ((∀ v ∈ visits, v.InBounds total) ↔ ∀ s ∈ subframes m fuel pos remaining, LongEnough m s.1 s.2) := by
  induction fuel generalizing m pos remaining with
  | zero => omega
  | succ fuel ih =>
    by_cases short : remaining ≤ length8023
    · unfold deaggregateAmsduAnnounce subframes
      rw [if_pos short,if_pos (.inl short)]
      exact ⟨[],rfl,by simp⟩
    have long : length8023 < remaining := Nat.lt_of_not_le short
    cases refused : sizeRefused m pos remaining with
    | true =>
      have inside := stopInBounds (m := m) long whole
      unfold deaggregateAmsduAnnounce subframes
      rw [if_neg short,refused,if_pos rfl,if_pos (.inr rfl)]
      exact ⟨_,rfl,by simp [inside]⟩
    | false =>
      have here := visitInBounds env refused whole
      have handled : ¬ (remaining ≤ length8023 ∨ sizeRefused m pos remaining = true) := by simp [short,refused]
      unfold subframes
      rw [if_neg handled]
      by_cases last : 1528 < paddedSize m pos ∨ paddedSize m pos < 32 ∨ remaining ≤ paddedSize m pos
      · rw [if_pos last]
        exact ⟨_,announceLast env fuel long refused last,by simp [here]⟩
      rw [if_neg last]
      have same : ∀ i, pos + paddedSize m pos ≤ i → rewritten m pos i = m i :=
        fun i low => rewrittenBehind (by omega)
      have behind : pos + paddedSize m pos + (remaining - paddedSize m pos) = total := by omega
      obtain ⟨visits,run,rest⟩ := ih (rewritten m pos) (by omega) behind
      obtain ⟨walk,behind⟩ := subframesCongr fuel (remaining - paddedSize m pos) same
      rw [walk] at rest
      refine ⟨_,announceMore long refused last run,?_⟩
      rw [forall_mem_cons,forall_mem_cons,here,rest]
      refine and_congr_right fun _ => forall₂_congr fun s mem => ?_
      have low := behind s mem
      exact longEnoughCongr fun i high => same i (by omega)

theorem amsduInBounds (env : Env) (m : Nat → UInt8) (dataSize : Nat) :
    (∃ visits, deaggregateAmsduAnnounce env (dataSize + 1) m 0 dataSize = some visits ∧
        ∀ v ∈ visits, v.InBounds dataSize) ↔
      ∀ s ∈ subframes m (dataSize + 1) 0 dataSize, LongEnough m s.1 s.2 := by
  obtain ⟨visits,run,bounds⟩ := turnsInBounds env m (Nat.lt_succ_self dataSize) (Nat.zero_add dataSize)
  rw [← bounds,run]
  constructor
  · rintro ⟨others,same,inside⟩
    cases Option.some.inj same
    exact inside
  · intro inside
    exact ⟨visits,rfl,inside⟩

def sampleBody (size : UInt8) (rest : Bytes) : Nat → UInt8 :=
  let bytes := replicate 6 9 ++ (replicate 6 7 ++ ([0,size] ++ rest))
  fun i => bytes.getD i 0

theorem notInBounds {dataSize s} (mem : s ∈ subframes m (dataSize + 1) 0 dataSize)
    (short : ¬ LongEnough m s.1 s.2) :
    ¬ ∃ visits, deaggregateAmsduAnnounce env (dataSize + 1) m 0 dataSize = some visits ∧
      ∀ v ∈ visits, v.InBounds dataSize := by
  rintro ⟨visits,run,inside⟩
  obtain ⟨others,same,bounds⟩ := turnsInBounds env m (Nat.lt_succ_self dataSize) (Nat.zero_add dataSize)
  cases Option.some.inj (run.symm.trans same)
  exact short (bounds.mp inside s mem)

theorem shortSubframes :
    (¬ ∃ visits, deaggregateAmsduAnnounce ⟨fun _ => true,fun _ => true⟩ 19 (sampleBody 4 [1,2,3,4]) 0 18 = some visits ∧
        ∀ v ∈ visits, v.InBounds 18) ∧
      ((deaggregateAmsduAnnounce ⟨fun _ => true,fun _ => true⟩ 37 (sampleBody 4 (snap8021H ++ eapolType)) 0 36).map
        fun visits => visits.map fun v => v.handled.map Handled.mlme) = some [some (some (22,65532))] ∧
      ¬ ∃ visits, deaggregateAmsduAnnounce ⟨fun _ => true,fun _ => true⟩ 37 (sampleBody 4 (snap8021H ++ eapolType))
        0 36 = some visits ∧ ∀ v ∈ visits, v.InBounds 36 := by
  refine ⟨notInBounds (s := (0,18)) (by decide) fun long => ?_,by decide,
    notInBounds (s := (0,36)) (by decide) fun long => ?_⟩
  · exact absurd long.compared (by decide)
  · exact absurd (long.removed (by decide)) (by decide)

end RtmpDriver.Amsdu
