import Mathlib.Data.List.Range

/-! The rate tables of the group algorithm: ten bytes for the table, and ten for each rate, among them the index of the
next lower rate and, for up to three groups, that of the rate above. `Set_RateTable_Proc` can change the bytes, so what
is proved is said of any bytes whose links stay inside. -/
namespace RtmpDriver.RateTables

inductive GroupTable where
  | adapt11N1S
  | adapt11N2S
  | adapt11N3S
  | vht1S
  | vht1SMcs9
  | vht2S
  | vht2SMcs7
  | vht2SBw20
  | vht2SBw40
  | vht1S2GBw20
  | vht1S2GBw40
  | vht2S2GBw20
  | vht2S2GBw40
  deriving DecidableEq, Repr

/- RTMP_RA_GRP_TB of drs_extr.h without the thresholds and the data rate, which the rate selection does not read. -/
structure RaGrpTb where
  itemNo : Nat
  shortGI : Bool
  mode : Nat
  currMCS : Nat
  downMcs : Nat
  upMcs3 : Nat
  upMcs2 : Nat
  upMcs1 : Nat
  deriving DecidableEq, Repr

def rateTableSize (pTable : List UInt8) : Nat := (pTable.headD 0).toNat

/- `none` is a read outside the array. -/
def ptxRaGrpEntry (pTable : List UInt8) (idx : Nat) : Option RaGrpTb :=
  match pTable.drop ((idx + 1) * 10) with
  | itemNo :: flags :: currMCS :: _ :: _ :: downMcs :: upMcs3 :: upMcs2 :: upMcs1 :: _ :: _ =>
    some { itemNo := itemNo.toNat
           shortGI := flags &&& 0x02 != 0
           mode := ((flags >>> 4) &&& 0x07).toNat
           currMCS := currMCS.toNat
           downMcs := downMcs.toNat
           upMcs3 := upMcs3.toNat
           upMcs2 := upMcs2.toNat
           upMcs1 := upMcs1.toNat }
  | _ => none

def rateTableVht1SMcs9 : List UInt8 := [
  13, 11, 0, 0, 0, 0, 0, 0, 0, 0,
  0, 0x10, 0, 30, 101, 0, 0, 0, 1, 1,
  1, 0x45, 0, 30, 50, 0, 0, 0, 2, 1,
  2, 0x49, 0, 30, 50, 1, 0, 0, 3, 1,
  3, 0x49, 1, 20, 50, 2, 0, 0, 4, 1,
  4, 0x49, 2, 20, 50, 3, 0, 0, 5, 1,
  5, 0x49, 3, 15, 50, 4, 0, 0, 6, 1,
  6, 0x49, 4, 15, 30, 5, 0, 0, 7, 1,
  7, 0x49, 5, 12, 25, 6, 0, 0, 8, 1,
  8, 0x49, 6, 12, 15, 7, 0, 0, 9, 1,
  9, 0x49, 7, 12, 15, 8, 0, 0, 10, 1,
  10, 0x49, 8, 12, 15, 9, 0, 0, 11, 1,
  11, 0x49, 9, 12, 15, 10, 0, 0, 12, 1,
  12, 0x4A, 9, 12, 15, 11, 0, 0, 12, 1]

def rateTableVht2S : List UInt8 := [
  31, 30, 0, 0, 0, 0, 0, 0, 0, 0,
  0, 0x11, 0, 100, 101, 3, 0, 4, 4, 1,
  1, 0x11, 0, 100, 101, 3, 0, 4, 4, 1,
  2, 0x11, 0, 100, 101, 3, 0, 4, 4, 1,
  3, 0x11, 0, 20, 101, 3, 0, 4, 4, 1,
  4, 0x11, 1, 20, 40, 3, 0, 5, 5, 1,
  5, 0x11, 2, 20, 35, 4, 0, 6, 6, 1,
  6, 0x11, 3, 15, 35, 5, 0, 10, 10, 1,
  7, 0x41, 0, 15, 25, 3, 0, 8, 8, 1,
  8, 0x45, 0, 25, 50, 7, 0, 10, 10, 1,
  9, 0x00, 0, 0, 0, 0, 0, 0, 0, 1,
  10, 0x49, 0, 25, 50, 8, 0, 20, 11, 1,
  11, 0x49, 1, 20, 35, 10, 0, 21, 12, 1,
  12, 0x49, 2, 20, 35, 11, 0, 21, 13, 1,
  13, 0x49, 3, 15, 30, 12, 0, 22, 14, 1,
  14, 0x49, 4, 15, 30, 13, 0, 23, 15, 1,
  15, 0x49, 5, 10, 25, 14, 0, 24, 16, 1,
  16, 0x49, 6, 8, 15, 15, 0, 24, 17, 1,
  17, 0x49, 7, 8, 15, 16, 0, 24, 18, 1,
  18, 0x49, 8, 8, 15, 17, 0, 25, 19, 1,
  19, 0x49, 9, 8, 15, 18, 0, 25, 25, 1,
  20, 0x48, 0, 30, 50, 10, 0, 21, 12, 2,
  21, 0x48, 1, 30, 50, 20, 0, 22, 14, 2,
  22, 0x48, 2, 15, 30, 21, 0, 23, 15, 2,
  23, 0x48, 3, 15, 30, 22, 0, 24, 16, 2,
  24, 0x48, 4, 15, 30, 23, 0, 25, 19, 2,
  25, 0x48, 5, 8, 20, 24, 0, 26, 26, 2,
  26, 0x48, 6, 8, 20, 25, 0, 27, 27, 2,
  27, 0x48, 7, 8, 20, 26, 0, 28, 28, 2,
  28, 0x48, 8, 5, 15, 27, 0, 29, 29, 2,
  29, 0x48, 9, 5, 15, 28, 0, 30, 30, 2,
  30, 0x4A, 9, 5, 15, 29, 0, 30, 30, 2]

def Linked (count size : Nat) (row : RaGrpTb) : Prop :=
  row.downMcs < size ∧ row.upMcs1 < size ∧ (2 ≤ count → row.upMcs2 < size) ∧ (3 ≤ count → row.upMcs3 < size)

instance (count size : Nat) (row : RaGrpTb) : Decidable (Linked count size row) := by unfold Linked; infer_instance

structure LinksValid (count : Nat) (pTable : List UInt8) : Prop where
  filled : 0 < rateTableSize pTable
  rows : ∀ idx, idx < rateTableSize pTable →
    (ptxRaGrpEntry pTable idx).any (fun row => decide (Linked count (rateTableSize pTable) row)) = true

theorem linksVht1S : LinksValid 1 rateTableVht1SMcs9 := ⟨by decide,by decide +kernel⟩

theorem linksVht2S : LinksValid 2 rateTableVht2S := ⟨by decide,by decide +kernel⟩

theorem linksRow {count idx pTable} (links : LinksValid count pTable) (inside : idx < rateTableSize pTable) :
    ∃ row, ptxRaGrpEntry pTable idx = some row ∧ Linked count (rateTableSize pTable) row := by
  obtain ⟨row,read,linked⟩ := (Option.any_eq_true _ _).mp (links.rows idx inside)
  exact ⟨row,read,of_decide_eq_true linked⟩

def downLink (pTable : List UInt8) (idx : Nat) : Option Nat := (ptxRaGrpEntry pTable idx).map RaGrpTb.downMcs

def downChain (pTable : List UInt8) : Nat → Nat → Option Nat
  | 0,idx => some idx
  | k + 1,idx => (downLink pTable idx).bind (downChain pTable k)

theorem downChainSucc {pTable k idx} :
    downChain pTable (k + 1) idx = (downChain pTable k idx).bind (downLink pTable) := by
  induction k generalizing idx with
  | zero => simp [downChain]
  | succ k ih =>
    rw [downChain,downChain,Option.bind_assoc]
    exact congrArg _ (funext fun _ => ih)

def ChainEnds (pTable : List UInt8) (idx : Nat) : Prop :=
  ∃ k last, downChain pTable k idx = some last ∧ downLink pTable last = some last

end RtmpDriver.RateTables
