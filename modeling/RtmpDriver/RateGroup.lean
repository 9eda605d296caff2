import RtmpDriver.ChannelGroup
import RtmpDriver.RateTables
import RtmpDriver.StepMachine
import RtmpDriver.TurnLoop
import Mathlib.Data.List.FinRange

/-! Rate selection by groups: the table a station gets, the group its search starts with, and the two searches that
follow the links of the table. -/
namespace RtmpDriver.RateGroup
open ChannelGroup RateTables TurnLoop List

/- A table as `pEntry->pTable` points at it: one of the legacy algorithm's or one with groups. -/
inductive RateTable where
  | switch11B
  | switch11G
  | switch11BG
  | switch11BGN1S
  | switch11BGN2S
  | switch11BGN2SForABand
  | switch11N1S
  | switch11N1SForABand
  | switch11N2S
  | switch11N2SForABand
  | grp (t : GroupTable)
  deriving DecidableEq, Repr

inductive RateAlg where
  | legacy
  | grp
  | ags
  deriving DecidableEq, Repr

def bw20 : Nat := 0
def bw40 : Nat := 1
def bw80 : Nat := 2

def supportCckMode : Nat := 1
def supportOfdmMode : Nat := 2
def supportVhtMode : Nat := 8

def modeCck : Nat := 0
def mcs32 : Nat := 32
def rate11 : Nat := 3
def drsTxQualityWorstBound : Nat := 8

structure RateAdapter where
  phyMode : Nat
  txStream : Nat
  txPath : Nat
  rateAlg : RateAlg
  macVersion : Nat
  opModeSta : Bool
  adhocOn : Bool
  channel : Nat
  bbpCurrentBW : Nat
  maxTxRate : Nat
  minTxRate : Nat

structure RateEntry where
  supportRateMode : Nat
  supportVHTMCS : Fin 20 → UInt8
  mcsSet : Fin 16 → UInt8
  rateLen : Nat
  qam256Capable : Bool
  forceOpMode : Bool
  rxNssType : Nat
  rxNss : Nat
  chWidth : Nat
  maxBW : Nat
  maxShortGI : Bool

def isRt8592 (pAd : RateAdapter) : Bool := pAd.macVersion &&& 0xffff0000 == 0x85590000

def wmodeCapAC (phyMode : Nat) : Bool := phyMode &&& wmodeAC != 0

def wmodeCapN (phyMode : Nat) : Bool := phyMode &&& (wmodeGN ||| wmodeAN) != 0

def RateEntry.supports (pEntry : RateEntry) (mode : Nat) : Bool := pEntry.supportRateMode &&& mode != 0

/- The loop over `SupportVHTMCS`: the last rate supported decides. -/
def highestSs (pEntry : RateEntry) : Nat :=
  (finRange 20).foldl (fun ss mcsIdx =>
    if pEntry.supportVHTMCS mcsIdx != 0 then (if mcsIdx.val ≤ 9 then 1 else 2) else ss) 0

def operatingMode (pEntry : RateEntry) : Bool := pEntry.forceOpMode && pEntry.rxNssType == 0

def operatingSs (pAd : RateAdapter) (pEntry : RateEntry) : Nat :=
  if operatingMode pEntry && decide (pEntry.rxNss < pAd.txStream) then pEntry.rxNss + 1 else highestSs pEntry

def operatingBw (pEntry : RateEntry) : Nat :=
  if operatingMode pEntry then
    match pEntry.chWidth with
    | 0 => bw20
    | 1 => bw40
    | _ => bw80
  else pEntry.maxBW

def mcs8And9 (pEntry : RateEntry) : Bool := pEntry.supportVHTMCS 8 == 1 && pEntry.supportVHTMCS 9 == 1

/- The group table for a number of VHT streams; `none` where the source only prints a message. -/
def vhtTable (pEntry : RateEntry) (ss : Nat) : Option RateTable :=
  if ss = 2 then
    if pEntry.maxBW = bw20 then some (.grp .vht2SBw20)
    else if pEntry.maxBW = bw40 then some (.grp .vht2SBw40)
    else if mcs8And9 pEntry then some (.grp .vht2S)
    else some (.grp .vht2SMcs7)
  else if ss = 1 then
    if mcs8And9 pEntry then some (.grp .vht1SMcs9) else some (.grp .vht1S)
  else none

def rt8592Table (pAd : RateAdapter) (ss : Nat) : Option RateTable :=
  if ss = 1 then some (if pAd.rateAlg = .grp then .grp .adapt11N1S else .switch11N1SForABand)
  else if ss = 2 then some (if pAd.rateAlg = .grp then .grp .adapt11N2S else .switch11BGN2SForABand)
  else none

def adhocTable (pAd : RateAdapter) (pEntry : RateEntry) : RateTable :=
  if wmodeCapN pAd.phyMode && pEntry.mcsSet 0 != 0 && (pEntry.mcsSet 1 == 0 || pAd.txPath == 1) then
    if pAd.channel ≤ 14 then .switch11N1S else .switch11N1SForABand
  else if wmodeCapN pAd.phyMode && pEntry.mcsSet 0 != 0 && pEntry.mcsSet 1 != 0 &&
      (pAd.txPath == 3 && pEntry.mcsSet 2 == 0 || pAd.txPath == 2) then
    if pAd.channel ≤ 14 then .switch11N2S else .switch11N2SForABand
  else if pEntry.rateLen == 4 && pEntry.mcsSet 0 == 0 && pEntry.mcsSet 1 == 0 then .switch11B
  else if pAd.channel ≤ 14 then .switch11BG
  else .switch11G

def legacyTable (pAd : RateAdapter) (pEntry : RateEntry) : RateTable :=
  if pEntry.supportRateMode == supportCckMode || pAd.phyMode == wmodeB then .switch11B
  else if pEntry.supports supportCckMode && pEntry.supports supportOfdmMode &&
      pEntry.mcsSet 0 == 0 && pEntry.mcsSet 1 == 0 then .switch11BG
  else if pEntry.supports supportOfdmMode && pEntry.mcsSet 0 == 0 && pEntry.mcsSet 1 == 0 then .switch11G
  else if pEntry.mcsSet 0 == 0 && pEntry.mcsSet 1 == 0 then
    if pAd.maxTxRate ≤ rate11 then .switch11B
    else if rate11 < pAd.minTxRate then .switch11G
    else .switch11BG
  else if pAd.txStream = 1 then .switch11N1S
  else if pAd.txStream = 2 then .switch11N2S
  else if pAd.channel ≤ 14 then .switch11N2S
  else .switch11N2SForABand

/- 256-QAM on 2.4 GHz has a table for 20 and one for 40 MHz; for any other width the pointer stays as it is. -/
def qam256Table (pEntry : RateEntry) (narrow wide : GroupTable) (ppTable : Option RateTable) : Option RateTable :=
  if pEntry.maxBW = bw20 then some (.grp narrow)
  else if pEntry.maxBW = bw40 then some (.grp wide)
  else ppTable

def laterTable (pAd : RateAdapter) (pEntry : RateEntry) (ppTable : Option RateTable) : Option RateTable :=
  if pAd.opModeSta && pAd.adhocOn then some (adhocTable pAd pEntry)
  else if pEntry.supports supportOfdmMode && pEntry.mcsSet 0 != 0 &&
      (pEntry.mcsSet 1 == 0 || pAd.txStream == 1) then
    if pEntry.qam256Capable && decide (pAd.channel ≤ 14) then
      qam256Table pEntry .vht1S2GBw20 .vht1S2GBw40 ppTable
    else if pAd.rateAlg = .grp then some (.grp .adapt11N1S)
    else if pAd.channel ≤ 14 ∧ pEntry.supports supportCckMode = true then some .switch11BGN1S
    else some .switch11N1SForABand
  else if pEntry.supports supportOfdmMode && pEntry.mcsSet 0 != 0 && pEntry.mcsSet 1 != 0 &&
      (pAd.txPath == 3 && pEntry.mcsSet 2 == 0 || pAd.txStream == 2) then
    if pEntry.qam256Capable && decide (pAd.channel ≤ 14) then
      qam256Table pEntry .vht2S2GBw20 .vht2S2GBw40 ppTable
    else if pAd.rateAlg = .grp then some (.grp .adapt11N2S)
    else if pAd.channel ≤ 14 ∧ pEntry.supports supportCckMode = true then some .switch11BGN2S
    else some .switch11BGN2SForABand
  else if pEntry.mcsSet 0 != 0 && (pEntry.mcsSet 1 == 0 || pAd.txStream == 1) then
    if pAd.rateAlg = .grp then some (.grp .adapt11N1S)
    else if pAd.channel ≤ 14 then some .switch11N1S
    else some .switch11N1SForABand
  else if pEntry.mcsSet 0 != 0 && pEntry.mcsSet 1 != 0 && pAd.txStream == 2 then
    if pAd.rateAlg = .grp then some (.grp .adapt11N2S)
    else if pAd.channel ≤ 14 then some .switch11N2S
    else some .switch11N2SForABand
  else some (legacyTable pAd pEntry)

def vhtStation (pAd : RateAdapter) (pEntry : RateEntry) : Bool :=
  wmodeCapAC pAd.phyMode && pEntry.supports supportVhtMode

def mlmeSelectTxRateTable (pAd : RateAdapter) (pEntry : RateEntry) (ppTable : Option RateTable) : Option RateTable :=
  if vhtStation pAd pEntry then
    let ss := operatingSs pAd pEntry
    let stored := if pAd.rateAlg = .grp then (vhtTable pEntry ss).or ppTable else ppTable
    if !(isRt8592 pAd && operatingBw pEntry == bw40) then stored
    else if 14 < pAd.channel then
      match (rt8592Table pAd ss).or stored with
      | some table => some table
      | none => laterTable pAd pEntry none
    else laterTable pAd pEntry stored
  else laterTable pAd pEntry ppTable

def htTwoStreams (pAd : RateAdapter) (pEntry : RateEntry) : Bool :=
  pEntry.mcsSet 0 == 0xff && pEntry.mcsSet 1 == 0xff && decide (1 < pAd.txStream) &&
    (pAd.txStream == 2 || pEntry.mcsSet 2 == 0)

def mlmeSetMcsGroup (pAd : RateAdapter) (pEntry : RateEntry) : Nat :=
  if pEntry.supports supportVhtMode then
    if pAd.txStream == 2 && pEntry.supportVHTMCS 10 == 1 then 2 else 1
  else if htTwoStreams pAd pEntry then 2
  else 1

def grpCnt (pAd : RateAdapter) (pEntry : RateEntry) (pTable : GroupTable) : Nat :=
  match pTable with
  | .vht2S | .vht2SBw20 | .vht2SBw40 | .vht2SMcs7 | .vht2S2GBw20 | .vht2S2GBw40 => 2
  | .vht1S | .vht1SMcs9 | .vht1S2GBw20 | .vht1S2GBw40 => 1
  | .adapt11N1S | .adapt11N2S | .adapt11N3S =>
    if pEntry.mcsSet 2 == 0xff && pAd.txStream == 3 then 3
    else if htTwoStreams pAd pEntry then 2
    else 1

structure UpState where
  mcsGroup : Nat
  upRateIdx : Nat
  txQuality : Nat → Nat

def bestOfThree (pCurrTxRate : RaGrpTb) (txQuality : Nat → Nat) : Nat :=
  let up := if pCurrTxRate.upMcs3 = pCurrTxRate.itemNo then
      (if pCurrTxRate.upMcs2 = pCurrTxRate.itemNo then pCurrTxRate.upMcs1 else pCurrTxRate.upMcs2)
    else pCurrTxRate.upMcs3
  let up := if txQuality pCurrTxRate.upMcs2 < txQuality up ∧ pCurrTxRate.upMcs2 ≠ pCurrTxRate.itemNo then
      pCurrTxRate.upMcs2 else up
  if txQuality pCurrTxRate.upMcs1 < txQuality up ∧ pCurrTxRate.upMcs1 ≠ pCurrTxRate.itemNo then
    pCurrTxRate.upMcs1 else up

def bestOfTwo (pCurrTxRate : RaGrpTb) (txQuality : Nat → Nat) : Nat :=
  let up := if pCurrTxRate.upMcs2 = pCurrTxRate.itemNo then pCurrTxRate.upMcs1 else pCurrTxRate.upMcs2
  if txQuality pCurrTxRate.upMcs1 < txQuality up ∧ pCurrTxRate.upMcs1 ≠ pCurrTxRate.itemNo then
    pCurrTxRate.upMcs1 else up

/- The `switch` of a turn; `none` is its default branch, which prints "wrong mcsGroup value" and leaves the index. -/
def upChoice (grpCnt : Nat) (pCurrTxRate : RaGrpTb) (txQuality : Nat → Nat) (mcsGroup : Nat) : Option Nat :=
  match grpCnt with
  | 3 =>
    match mcsGroup with
    | 0 => some (bestOfThree pCurrTxRate txQuality)
    | 3 => some pCurrTxRate.upMcs3
    | 2 => some pCurrTxRate.upMcs2
    | 1 => some pCurrTxRate.upMcs1
    | _ => none
  | 2 =>
    match mcsGroup with
    | 0 => some (bestOfTwo pCurrTxRate txQuality)
    | 2 => some pCurrTxRate.upMcs2
    | 1 => some pCurrTxRate.upMcs1
    | _ => none
  | 1 =>
    match mcsGroup with
    | 1 | 0 => some pCurrTxRate.upMcs1
    | _ => none
  | _ => none

/- The rate is MCS32 and the station or the channel does not allow it. The fallback to MCS0 is a debug build's. -/
def skipsMcs32 (pAd : RateAdapter) (pEntry : RateEntry) (row : RaGrpTb) : Bool :=
  row.currMCS == mcs32 &&
    (pEntry.maxBW != bw40 || pAd.bbpCurrentBW != bw40 || !(pEntry.mcsSet 4 &&& 0x1 != 0))

def mlmeSetTxQuality (txQuality : Nat → Nat) (rateIdx quality : Nat) : Nat → Nat :=
  fun i => if i = rateIdx then quality else txQuality i

def upTurn (pTable : List UInt8) (pAd : RateAdapter) (pEntry : RateEntry) (grpCnt : Nat) (pCurrTxRate : RaGrpTb)
    (currTxRateIndex : Nat) (s : UpState) : Turn UpState UpState :=
  let up := (upChoice grpCnt pCurrTxRate s.txQuality s.mcsGroup).getD s.upRateIdx
  match ptxRaGrpEntry pTable up with
  | none => .fault
  | some row =>
    if skipsMcs32 pAd pEntry row then .leave { s with upRateIdx := row.upMcs1,mcsGroup := 1 }
    else
      -- A short guard interval that is not allowed counts as a bad rate.
      let txQuality := if row.shortGI && !pEntry.maxShortGI then
        mlmeSetTxQuality s.txQuality up (drsTxQualityWorstBound * 2) else s.txQuality
      if up = currTxRateIndex then .leave ⟨0,up,txQuality⟩
      else if 0 < txQuality up ∧ 0 < s.mcsGroup then .next ⟨s.mcsGroup - 1,up,txQuality⟩
      else .leave ⟨s.mcsGroup,up,txQuality⟩

structure UpCall where
  currRateIdx : Nat
  currTxRateIndex : Nat
  txQuality : Nat → Nat

def mlmeSelectUpRate (fuel : Nat) (pTable : List UInt8) (pAd : RateAdapter) (pEntry : RateEntry) (grpCnt : Nat)
    (call : UpCall) (mcsGroup : Nat) : Option UpState :=
  match ptxRaGrpEntry pTable call.currRateIdx with
  | none => none
  | some pCurrTxRate =>
    loop (upTurn pTable pAd pEntry grpCnt pCurrTxRate call.currTxRateIndex) fuel ⟨mcsGroup,0,call.txQuality⟩

def downValid (pAd : RateAdapter) (pEntry : RateEntry) (pDownRate : RaGrpTb) : Bool :=
  if pDownRate.mode = modeCck then pAd.channel ≤ 14
  else if pDownRate.currMCS = mcs32 then
    let validMcs32 := pEntry.maxBW == bw40 && pAd.bbpCurrentBW == bw40 ||
      pEntry.maxBW == bw80 && pAd.bbpCurrentBW == bw80
    validMcs32 || validMcs32 && pEntry.mcsSet 4 &&& 0x1 != 0
  else true

def downTurn (pTable : List UInt8) (pAd : RateAdapter) (pEntry : RateEntry) (currRateIdx downRateIdx : Nat) :
    Turn Nat Nat :=
  match ptxRaGrpEntry pTable downRateIdx with
  | none => .fault
  | some pDownRate =>
    if downValid pAd pEntry pDownRate then .leave downRateIdx
    else if downRateIdx = pDownRate.downMcs then .leave currRateIdx
    else .next pDownRate.downMcs

def mlmeSelectDownRate (fuel : Nat) (pTable : List UInt8) (pAd : RateAdapter) (pEntry : RateEntry)
    (currRateIdx : Nat) : Option Nat :=
  match ptxRaGrpEntry pTable currRateIdx with
  | none => none
  | some row => loop (downTurn pTable pAd pEntry currRateIdx) fuel row.downMcs

section
variable (pTable : List UInt8) (pAd : RateAdapter) (pEntry : RateEntry)

inductive LeftBehind (grpCnt : Nat) : Nat → Prop
  | set : LeftBehind grpCnt (mlmeSetMcsGroup pAd pEntry)
  | up {g fuel : Nat} {call : UpCall} {r : UpState} (before : LeftBehind grpCnt g)
      (inside : call.currRateIdx < rateTableSize pTable)
      (done : mlmeSelectUpRate fuel pTable pAd pEntry grpCnt call g = some r) : LeftBehind grpCnt r.mcsGroup

def UpLink (pCurrTxRate : RaGrpTb) (idx : Nat) : Prop :=
  idx ∈ [pCurrTxRate.upMcs1,pCurrTxRate.upMcs2,pCurrTxRate.upMcs3] ∨
  ∃ up ∈ [pCurrTxRate.upMcs1,pCurrTxRate.upMcs2,pCurrTxRate.upMcs3], ∃ row,
    ptxRaGrpEntry pTable up = some row ∧ row.currMCS = mcs32 ∧ idx = row.upMcs1

def Mcs32Exit (grpCnt : Nat) (pCurrTxRate : RaGrpTb) (s : UpState) : Prop :=
  ∃ up ∈ upChoice grpCnt pCurrTxRate s.txQuality s.mcsGroup, ∃ row,
    ptxRaGrpEntry pTable up = some row ∧ skipsMcs32 pAd pEntry row = true

def UpVisits (grpCnt : Nat) (call : UpCall) (mcsGroup : Nat) (pCurrTxRate : RaGrpTb) : UpState → Prop :=
  Visits (upTurn pTable pAd pEntry grpCnt pCurrTxRate call.currTxRateIndex) ⟨mcsGroup,0,call.txQuality⟩

structure UpSelects (grpCnt : Nat) (call : UpCall) (mcsGroup : Nat) (pCurrTxRate : RaGrpTb) : Prop where
  ends : ∃ fuel r, mlmeSelectUpRate fuel pTable pAd pEntry grpCnt call mcsGroup = some r
  falls : ∀ s s', UpVisits pTable pAd pEntry grpCnt call mcsGroup pCurrTxRate s →
    upTurn pTable pAd pEntry grpCnt pCurrTxRate call.currTxRateIndex s = .next s' → s'.mcsGroup ≤ s.mcsGroup
  leaves : ∀ s r, UpVisits pTable pAd pEntry grpCnt call mcsGroup pCurrTxRate s →
    upTurn pTable pAd pEntry grpCnt pCurrTxRate call.currTxRateIndex s = .leave r →
    r.mcsGroup ≤ s.mcsGroup ∨ r.mcsGroup = 1 ∧ Mcs32Exit pTable pAd pEntry grpCnt pCurrTxRate s
  chosen : ∀ s, UpVisits pTable pAd pEntry grpCnt call mcsGroup pCurrTxRate s →
    upChoice grpCnt pCurrTxRate s.txQuality s.mcsGroup ≠ none
  linked : ∀ fuel r, mlmeSelectUpRate fuel pTable pAd pEntry grpCnt call mcsGroup = some r →
    UpLink pTable pCurrTxRate r.upRateIdx

def FitsBand (row : RaGrpTb) : Prop :=
  (row.mode = modeCck → pAd.channel ≤ 14) ∧
  (row.mode ≠ modeCck → row.currMCS = mcs32 →
    pEntry.maxBW = bw40 ∧ pAd.bbpCurrentBW = bw40 ∨ pEntry.maxBW = bw80 ∧ pAd.bbpCurrentBW = bw80)

structure DownSelects (currRateIdx : Nat) : Prop where
  ends : ∃ fuel r, mlmeSelectDownRate fuel pTable pAd pEntry currRateIdx = some r
  lower : ∀ fuel r, mlmeSelectDownRate fuel pTable pAd pEntry currRateIdx = some r → r = currRateIdx ∨
    ∃ k row, downChain pTable (k + 1) currRateIdx = some r ∧ ptxRaGrpEntry pTable r = some row ∧
      FitsBand pAd pEntry row

end

def RateSelection (contents : GroupTable → List UInt8) (pAd : RateAdapter) (pEntry : RateEntry)
    (ppTable : Option RateTable) : Prop :=
  ∀ t, mlmeSelectTxRateTable pAd pEntry ppTable = some (.grp t) →
    (∀ g call pCurrTxRate, LeftBehind (contents t) pAd pEntry (grpCnt pAd pEntry t) g →
      call.currRateIdx < rateTableSize (contents t) →
      ptxRaGrpEntry (contents t) call.currRateIdx = some pCurrTxRate →
      UpSelects (contents t) pAd pEntry (grpCnt pAd pEntry t) call g pCurrTxRate) ∧
    ((∀ idx, idx < rateTableSize (contents t) → ChainEnds (contents t) idx) →
      ∀ idx, idx < rateTableSize (contents t) → DownSelects (contents t) pAd pEntry idx)

section
variable {pTable : List UInt8} {pAd : RateAdapter} {pEntry : RateEntry} {pCurrTxRate : RaGrpTb}
  {txQuality : Nat → Nat} {count g up : Nat} {call : UpCall} {s s' r : UpState}

theorem bestOfThreeLink : bestOfThree pCurrTxRate txQuality = pCurrTxRate.upMcs1 ∨
    bestOfThree pCurrTxRate txQuality = pCurrTxRate.upMcs2 ∨
    bestOfThree pCurrTxRate txQuality = pCurrTxRate.upMcs3 := by
  unfold bestOfThree
  grind

theorem bestOfTwoLink : bestOfTwo pCurrTxRate txQuality = pCurrTxRate.upMcs1 ∨
    bestOfTwo pCurrTxRate txQuality = pCurrTxRate.upMcs2 := by
  unfold bestOfTwo
  grind

theorem choiceLink (choice : upChoice count pCurrTxRate txQuality g = some up) : up = pCurrTxRate.upMcs1 ∨
    2 ≤ count ∧ up = pCurrTxRate.upMcs2 ∨ 3 ≤ count ∧ up = pCurrTxRate.upMcs3 := by
  have three := @bestOfThreeLink pCurrTxRate txQuality
  have two := @bestOfTwoLink pCurrTxRate txQuality
  unfold upChoice at choice
  split at choice
  all_goals
    try split at choice
    all_goals grind

theorem choiceNone (low : 1 ≤ count) (high : count ≤ 3) :
    upChoice count pCurrTxRate txQuality g = none ↔ count < g := by
  unfold upChoice
  split
  all_goals
    try split
    all_goals grind

theorem grpCntBounds (t) : 1 ≤ grpCnt pAd pEntry t ∧ grpCnt pAd pEntry t ≤ 3 := by
  unfold grpCnt
  split <;> grind

theorem turnCases {row idx} (choice : upChoice count pCurrTxRate s.txQuality s.mcsGroup = some up)
    (read : ptxRaGrpEntry pTable up = some row) :
    (skipsMcs32 pAd pEntry row = true ∧ upTurn pTable pAd pEntry count pCurrTxRate idx s =
        .leave { s with upRateIdx := row.upMcs1,mcsGroup := 1 }) ∨
    ∃ q, upTurn pTable pAd pEntry count pCurrTxRate idx s = .leave ⟨0,up,q⟩ ∨
      (0 < s.mcsGroup ∧ upTurn pTable pAd pEntry count pCurrTxRate idx s = .next ⟨s.mcsGroup - 1,up,q⟩) ∨
      upTurn pTable pAd pEntry count pCurrTxRate idx s = .leave ⟨s.mcsGroup,up,q⟩ := by
  unfold upTurn
  rw [choice]
  simp only [Option.getD_some,read]
  cases skip : skipsMcs32 pAd pEntry row with
  | true => exact .inl ⟨rfl,rfl⟩
  | false =>
    right
    generalize (if row.shortGI && !pEntry.maxShortGI then
      mlmeSetTxQuality s.txQuality up (drsTxQualityWorstBound * 2) else s.txQuality) = q
    refine ⟨q,?_⟩
    simp only [Bool.false_eq_true,if_false]
    by_cases same : up = idx
    · exact .inl (if_pos same)
    · rw [if_neg same]
      by_cases bad : 0 < q up ∧ 0 < s.mcsGroup
      · exact .inr (.inl ⟨bad.2,if_pos bad⟩)
      · exact .inr (.inr (if_neg bad))

theorem picked (links : LinksValid count pTable) (linked : Linked count (rateTableSize pTable) pCurrTxRate)
    (low : 1 ≤ count) (high : count ≤ 3) (fits : g ≤ count) :
    ∃ up row, upChoice count pCurrTxRate txQuality g = some up ∧ ptxRaGrpEntry pTable up = some row := by
  cases choice : upChoice count pCurrTxRate txQuality g with
  | none => exact absurd ((choiceNone low high).mp choice) (by omega)
  | some up =>
    have inside : up < rateTableSize pTable := by
      rcases choiceLink choice with rfl | ⟨two,rfl⟩ | ⟨three,rfl⟩
      · exact linked.2.1
      · exact linked.2.2.1 two
      · exact linked.2.2.2 three
    obtain ⟨row,read,_⟩ := linksRow links inside
    exact ⟨up,row,rfl,read⟩

theorem choiceMem (choice : upChoice count pCurrTxRate txQuality g = some up) :
    up ∈ [pCurrTxRate.upMcs1,pCurrTxRate.upMcs2,pCurrTxRate.upMcs3] := by
  rcases choiceLink choice with rfl | ⟨_,rfl⟩ | ⟨_,rfl⟩ <;> simp

section
variable (links : LinksValid count pTable) (linked : Linked count (rateTableSize pTable) pCurrTxRate)
  (low : 1 ≤ count) (high : count ≤ 3)
include links linked low high

theorem turnFalls {idx} (fits : s.mcsGroup ≤ count)
    (step : upTurn pTable pAd pEntry count pCurrTxRate idx s = .next s') : s'.mcsGroup < s.mcsGroup := by
  obtain ⟨up,row,choice,read⟩ := picked links linked low high fits
  rcases turnCases choice read with ⟨_,out⟩ | ⟨q,out | ⟨some',out⟩ | out⟩
  · rw [out] at step; cases step
  · rw [out] at step; cases step
  · rw [out] at step
    cases step
    exact Nat.sub_lt some' Nat.one_pos
  · rw [out] at step; cases step

theorem turnLeaves {idx} (fits : s.mcsGroup ≤ count)
    (step : upTurn pTable pAd pEntry count pCurrTxRate idx s = .leave r) :
    (r.mcsGroup ≤ s.mcsGroup ∨ r.mcsGroup = 1 ∧ Mcs32Exit pTable pAd pEntry count pCurrTxRate s) ∧
      UpLink pTable pCurrTxRate r.upRateIdx := by
  obtain ⟨up,row,choice,read⟩ := picked links linked low high fits
  have mem := choiceMem choice
  rcases turnCases choice read with ⟨skip,out⟩ | ⟨q,out | ⟨_,out⟩ | out⟩
  · rw [out] at step
    cases step
    have isMcs32 : row.currMCS = mcs32 := by
      rw [skipsMcs32,Bool.and_eq_true] at skip
      exact eq_of_beq skip.1
    exact ⟨.inr ⟨rfl,up,choice,row,read,skip⟩,.inr ⟨up,mem,row,read,isMcs32,rfl⟩⟩
  · rw [out] at step
    cases step
    exact ⟨.inl (Nat.zero_le _),.inl mem⟩
  · rw [out] at step; cases step
  · rw [out] at step
    cases step
    exact ⟨.inl (Nat.le_refl _),.inl mem⟩

theorem visitsFit {idx start} (fits : start.mcsGroup ≤ count)
    (seen : Visits (upTurn pTable pAd pEntry count pCurrTxRate idx) start s) : s.mcsGroup ≤ count := by
  have keeps : ∀ s s' : UpState, s.mcsGroup ≤ count →
      upTurn pTable pAd pEntry count pCurrTxRate idx s = .next s' → s'.mcsGroup ≤ count := by
    intro s s' fits step
    exact le_trans (le_of_lt (turnFalls links linked low high fits step)) fits
  exact visitsKeep (fun s => s.mcsGroup ≤ count) keeps fits seen

theorem upEnds {idx} (fits : s.mcsGroup ≤ count) :
    ∃ fuel r, loop (upTurn pTable pAd pEntry count pCurrTxRate idx) fuel s = some r := by
  have turns : ∀ n (s : UpState), s.mcsGroup = n ∧ n ≤ count →
      (∃ r, upTurn pTable pAd pEntry count pCurrTxRate idx s = .leave r) ∨
      ∃ s' m, upTurn pTable pAd pEntry count pCurrTxRate idx s = .next s' ∧ m < n ∧ s'.mcsGroup = m ∧ m ≤ count := by
    rintro n s ⟨rfl,fits⟩
    obtain ⟨up,row,choice,read⟩ := picked links linked low high fits
    rcases turnCases choice read with ⟨_,out⟩ | ⟨q,out | ⟨some',out⟩ | out⟩
    · exact .inl ⟨_,out⟩
    · exact .inl ⟨_,out⟩
    · exact .inr ⟨_,_,out,Nat.sub_lt some' Nat.one_pos,rfl,le_trans (Nat.sub_le _ _) fits⟩
    · exact .inl ⟨_,out⟩
  exact loopEnds (fun n s => s.mcsGroup = n ∧ n ≤ count) turns ⟨rfl,fits⟩

theorem upSelectsOf (fits : g ≤ count) (current : ptxRaGrpEntry pTable call.currRateIdx = some pCurrTxRate) :
    UpSelects pTable pAd pEntry count call g pCurrTxRate where
  ends := by
    simp only [mlmeSelectUpRate,current]
    exact upEnds links linked low high fits
  falls s s' seen step := le_of_lt (turnFalls links linked low high (visitsFit links linked low high fits seen) step)
  leaves s r seen step := (turnLeaves links linked low high (visitsFit links linked low high fits seen) step).1
  chosen s seen none' :=
    absurd ((choiceNone low high).mp none') (Nat.not_lt.mpr (visitsFit links linked low high fits seen))
  linked fuel r done := by
    simp only [mlmeSelectUpRate,current] at done
    obtain ⟨t,seen,last⟩ := loopLeaves done
    exact (turnLeaves links linked low high (visitsFit links linked low high fits seen) last).2

end

theorem leftFits (links : LinksValid count pTable) (low : 1 ≤ count) (high : count ≤ 3)
    (start : mlmeSetMcsGroup pAd pEntry ≤ count) (left : LeftBehind pTable pAd pEntry count g) : g ≤ count := by
  induction left with
  | set => exact start
  | up before inside done fits =>
    obtain ⟨row,read,linked⟩ := linksRow links inside
    simp only [mlmeSelectUpRate,read] at done
    obtain ⟨t,seen,last⟩ := loopLeaves done
    have kept := visitsFit links linked low high fits seen
    rcases (turnLeaves links linked low high kept last).1 with less | ⟨one,_⟩
    · exact le_trans less kept
    · rwa [one]

end

section
variable {pTable : List UInt8} {pAd : RateAdapter} {pEntry : RateEntry} {currRateIdx : Nat}

theorem downFits {row} (valid : downValid pAd pEntry row = true) : FitsBand pAd pEntry row := by
  unfold downValid at valid
  constructor
  · intro cck
    rw [if_pos cck] at valid
    exact of_decide_eq_true valid
  · intro other is32
    rw [if_neg other,if_pos is32] at valid
    simp only [Bool.or_eq_true,Bool.and_eq_true,beq_iff_eq] at valid
    rcases valid with wide | ⟨wide,_⟩
    · exact wide
    · exact wide

theorem downVisits {first idx} (link : downLink pTable currRateIdx = some first)
    (seen : Visits (downTurn pTable pAd pEntry currRateIdx) first idx) :
    ∃ k, downChain pTable (k + 1) currRateIdx = some idx := by
  have keeps : ∀ i j, (∃ k, downChain pTable (k + 1) currRateIdx = some i) →
      downTurn pTable pAd pEntry currRateIdx i = .next j →
      ∃ k, downChain pTable (k + 1) currRateIdx = some j := by
    rintro i j ⟨k,reach⟩ step
    unfold downTurn at step
    cases read : ptxRaGrpEntry pTable i with
    | none => rw [read] at step; cases step
    | some row =>
      simp only [read] at step
      split_ifs at step
      cases step
      exact ⟨k + 1,by rw [downChainSucc,reach,Option.bind_some,downLink,read]; rfl⟩
  refine visitsKeep (fun i => ∃ k, downChain pTable (k + 1) currRateIdx = some i) keeps ?_ seen
  exact ⟨0,by rw [downChain,link]; rfl⟩

theorem downEnds {idx} (chain : ChainEnds pTable idx) :
    ∃ fuel r, loop (downTurn pTable pAd pEntry currRateIdx) fuel idx = some r := by
  obtain ⟨k,last,reach,fixed⟩ := chain
  have turns : ∀ n idx, downChain pTable n idx = some last →
      (∃ r, downTurn pTable pAd pEntry currRateIdx idx = .leave r) ∨
      ∃ next m, downTurn pTable pAd pEntry currRateIdx idx = .next next ∧ m < n ∧
        downChain pTable m next = some last := by
    intro n idx reach
    have link : downLink pTable idx = some idx ∨
        ∃ next m, downLink pTable idx = some next ∧ m < n ∧ downChain pTable m next = some last := by
      cases n with
      | zero =>
        cases reach
        exact .inl fixed
      | succ m =>
        obtain ⟨next,link,rest⟩ := Option.bind_eq_some_iff.mp reach
        exact .inr ⟨next,m,link,Nat.lt_succ_self m,rest⟩
    unfold downTurn
    cases read : ptxRaGrpEntry pTable idx with
    | none => simp [downLink,read] at link
    | some row =>
      simp only [downLink,read,Option.map_some,Option.some.injEq] at link
      dsimp only
      split_ifs with valid same
      · exact .inl ⟨_,rfl⟩
      · exact .inl ⟨_,rfl⟩
      · rcases link with self | ⟨next,m,rfl,less,rest⟩
        · exact absurd self.symm same
        · exact .inr ⟨_,m,rfl,less,rest⟩
  exact loopEnds (fun n idx => downChain pTable n idx = some last) turns reach

theorem downSelectsOf (chain : ChainEnds pTable currRateIdx) : DownSelects pTable pAd pEntry currRateIdx := by
  obtain ⟨row,read⟩ : ∃ row, ptxRaGrpEntry pTable currRateIdx = some row := by
    obtain ⟨k,last,reach,fixed⟩ := chain
    cases read : ptxRaGrpEntry pTable currRateIdx with
    | some row => exact ⟨row,rfl⟩
    | none =>
      cases k with
      | zero => cases reach; simp [downLink,read] at fixed
      | succ k => simp [downChain,downLink,read] at reach
  have link : downLink pTable currRateIdx = some row.downMcs := by rw [downLink,read]; rfl
  constructor
  · simp only [mlmeSelectDownRate,read]
    obtain ⟨k,last,reach,fixed⟩ := chain
    cases k with
    | zero =>
      cases reach
      have self : row.downMcs = currRateIdx := by rw [fixed] at link; exact (Option.some.inj link).symm
      rw [self]
      exact downEnds ⟨0,currRateIdx,rfl,fixed⟩
    | succ k =>
      rw [downChain,link] at reach
      exact downEnds ⟨k,last,reach,fixed⟩
  · intro fuel r done
    simp only [mlmeSelectDownRate,read] at done
    obtain ⟨t,seen,leave⟩ := loopLeaves done
    obtain ⟨k,reach⟩ := downVisits link seen
    unfold downTurn at leave
    cases lower : ptxRaGrpEntry pTable t with
    | none => rw [lower] at leave; cases leave
    | some low =>
      simp only [lower] at leave
      split_ifs at leave with valid same
      · cases leave
        exact .inr ⟨k,low,reach,lower,downFits valid⟩
      · cases leave
        exact .inl rfl

end

def TwoGroups (pAd : RateAdapter) (pEntry : RateEntry) : Prop :=
  if pEntry.supports supportVhtMode then pAd.txStream = 2 ∧ pEntry.supportVHTMCS 10 = 1
  else htTwoStreams pAd pEntry = true

def ShortTable (pAd : RateAdapter) (pEntry : RateEntry) (ppTable : Option RateTable) : Prop :=
  ppTable ∈ [some (.grp .vht1S),some (.grp .vht1SMcs9),some (.grp .vht1S2GBw20),some (.grp .vht1S2GBw40)] ∨
  ppTable ∈ [some (.grp .adapt11N1S),some (.grp .adapt11N2S),some (.grp .adapt11N3S)] ∧
    htTwoStreams pAd pEntry = false ∧ ¬(pEntry.mcsSet 2 = 0xff ∧ pAd.txStream = 3)

def OneStreamMode (pEntry : RateEntry) : Prop :=
  pEntry.forceOpMode = true ∧ pEntry.rxNssType = 0 ∧ pEntry.rxNss = 0

def FortyMode (pEntry : RateEntry) : Prop :=
  if pEntry.forceOpMode = true ∧ pEntry.rxNssType = 0 then pEntry.chWidth = 1 else pEntry.maxBW = bw40

instance (pEntry : RateEntry) : Decidable (FortyMode pEntry) := by unfold FortyMode; infer_instance

instance (pAd : RateAdapter) (pEntry : RateEntry) : Decidable (TwoGroups pAd pEntry) := by
  unfold TwoGroups; infer_instance

instance (pAd : RateAdapter) (pEntry : RateEntry) (ppTable : Option RateTable) :
    Decidable (ShortTable pAd pEntry ppTable) := by unfold ShortTable; infer_instance

instance (pEntry : RateEntry) : Decidable (OneStreamMode pEntry) := by unfold OneStreamMode; infer_instance

def LaterMismatch (pAd : RateAdapter) (pEntry : RateEntry) (kept : Prop) : Prop :=
  ¬(pAd.opModeSta = true ∧ pAd.adhocOn = true) ∧ pEntry.mcsSet 0 ≠ 0 ∧
  if pEntry.supports supportOfdmMode ∧ pEntry.qam256Capable ∧ pAd.channel ≤ 14 ∧
      (pAd.txStream = 2 ∨ pAd.txPath = 3) then
    (if pEntry.maxBW = bw20 ∨ pEntry.maxBW = bw40 then pEntry.mcsSet 1 = 0 else kept)
  else pAd.rateAlg = .grp ∧ htTwoStreams pAd pEntry = false

instance (pAd : RateAdapter) (pEntry : RateEntry) (kept : Prop) [Decidable kept] :
    Decidable (LaterMismatch pAd pEntry kept) := by unfold LaterMismatch; infer_instance

def Mismatch (pAd : RateAdapter) (pEntry : RateEntry) (ppTable : Option RateTable) : Prop :=
  TwoGroups pAd pEntry ∧
  if wmodeCapAC pAd.phyMode ∧ pEntry.supports supportVhtMode then
    if isRt8592 pAd ∧ FortyMode pEntry then
      if 14 < pAd.channel then pAd.rateAlg = .grp ∧ htTwoStreams pAd pEntry = false
      else LaterMismatch pAd pEntry
        (if pAd.rateAlg = .grp then OneStreamMode pEntry else ShortTable pAd pEntry ppTable)
    else (if pAd.rateAlg = .grp then OneStreamMode pEntry else ShortTable pAd pEntry ppTable)
  else LaterMismatch pAd pEntry (ShortTable pAd pEntry ppTable)

instance (pAd : RateAdapter) (pEntry : RateEntry) (ppTable : Option RateTable) :
    Decidable (Mismatch pAd pEntry ppTable) := by unfold Mismatch; infer_instance

section
variable {pAd : RateAdapter} {pEntry : RateEntry} {ppTable : Option RateTable}

theorem setTwo : mlmeSetMcsGroup pAd pEntry = 2 ∧ TwoGroups pAd pEntry ∨
    mlmeSetMcsGroup pAd pEntry = 1 ∧ ¬TwoGroups pAd pEntry := by
  unfold mlmeSetMcsGroup TwoGroups
  grind

def OneGroup (pAd : RateAdapter) (pEntry : RateEntry) (ppTable : Option RateTable) : Prop :=
  ∃ t, ppTable = some (.grp t) ∧ grpCnt pAd pEntry t = 1

theorem oneGroupShort : OneGroup pAd pEntry ppTable ↔ ShortTable pAd pEntry ppTable := by
  unfold OneGroup ShortTable grpCnt
  grind

theorem oneGroupGrp {t} : OneGroup pAd pEntry (some (.grp t)) ↔ grpCnt pAd pEntry t = 1 := by
  unfold OneGroup
  grind

theorem adhocNotGroup : ¬OneGroup pAd pEntry (some (adhocTable pAd pEntry)) := by
  unfold OneGroup adhocTable
  grind

theorem legacyNotGroup : ¬OneGroup pAd pEntry (some (legacyTable pAd pEntry)) := by
  unfold OneGroup legacyTable
  grind

theorem highestTwo (ten : pEntry.supportVHTMCS 10 ≠ 0) : highestSs pEntry = 2 := by
  have parts : finRange 20 = (finRange 20).take 10 ++ 10 :: (finRange 20).drop 11 := by decide
  have later : ∀ i ∈ (finRange 20).drop 11, ¬i.val ≤ 9 := by decide
  have stays : ∀ ss, ∀ i ∈ (finRange 20).drop 11, ss = 2 →
      (if pEntry.supportVHTMCS i != 0 then (if i.val ≤ 9 then 1 else 2) else ss) = 2 := by
    intro ss i mem two
    rw [if_neg (later i mem),two,ite_self]
  rw [highestSs,parts,foldl_append,foldl_cons]
  refine StepMachine.runKeeps stays ?_
  rw [if_pos (bne_iff_ne.mpr ten)]
  rfl

theorem twoStreams (two : TwoGroups pAd pEntry) : pAd.txStream = 2 ∨
    2 < pAd.txStream ∧ htTwoStreams pAd pEntry = true ∧ pEntry.mcsSet 2 = 0 := by
  unfold TwoGroups htTwoStreams at *
  grind

theorem htTwoMcs (all : htTwoStreams pAd pEntry = true) : pEntry.mcsSet 0 = 0xff ∧ pEntry.mcsSet 1 = 0xff := by
  unfold htTwoStreams at all
  grind

theorem adaptOne {t} (adapt : t = .adapt11N1S ∨ t = .adapt11N2S) (two : TwoGroups pAd pEntry) :
    OneGroup pAd pEntry (some (.grp t)) ↔ htTwoStreams pAd pEntry = false := by
  have streams := twoStreams two
  rw [oneGroupGrp]
  unfold grpCnt
  grind

theorem qam256One {narrow wide} : OneGroup pAd pEntry (qam256Table pEntry narrow wide ppTable) ↔
    if pEntry.maxBW = bw20 then grpCnt pAd pEntry narrow = 1
    else if pEntry.maxBW = bw40 then grpCnt pAd pEntry wide = 1
    else OneGroup pAd pEntry ppTable := by
  unfold qam256Table
  split_ifs
  · exact oneGroupGrp
  · exact oneGroupGrp
  · exact Iff.rfl

theorem plainNotGroup {table} (plain : ∀ t, table ≠ .grp t) : ¬OneGroup pAd pEntry (some table) := by
  rintro ⟨t,same,_⟩
  exact plain t (Option.some.inj same)

section Later
variable (two : TwoGroups pAd pEntry) (infra : ¬(pAd.opModeSta = true ∧ pAd.adhocOn = true))
  (mcs0 : pEntry.mcsSet 0 ≠ 0)
include two infra mcs0

theorem laterOneStream (mcs1 : pEntry.mcsSet 1 = 0) : OneGroup pAd pEntry (laterTable pAd pEntry ppTable) ↔
    LaterMismatch pAd pEntry (OneGroup pAd pEntry ppTable) := by
  have one : htTwoStreams pAd pEntry = false := by
    refine Bool.eq_false_iff.mpr fun all => ?_
    rw [(htTwoMcs all).2] at mcs1
    exact absurd mcs1 (by decide)
  have stream : pAd.txStream = 2 := (twoStreams two).resolve_right fun more => by simp [one] at more
  have adapt := (adaptOne (.inl rfl) two).mpr one
  have other := @plainNotGroup pAd pEntry
  have some0 : (pEntry.mcsSet 0 != 0) = true := bne_iff_ne.mpr mcs0
  unfold laterTable LaterMismatch
  rw [if_neg (fun both => infra (Bool.and_eq_true_iff.mp both))]
  simp only [some0,mcs1,beq_self_eq_true,Bool.true_or,Bool.and_true,if_true,one,stream,true_or,and_true,infra,
    not_false_eq_true,true_and,mcs0,ne_eq]
  split_ifs <;> simp_all [qam256One,grpCnt]
  tauto

theorem laterTwoStreams (mcs1 : pEntry.mcsSet 1 ≠ 0) : OneGroup pAd pEntry (laterTable pAd pEntry ppTable) ↔
    LaterMismatch pAd pEntry (OneGroup pAd pEntry ppTable) := by
  have streams := twoStreams two
  have adapt := adaptOne (.inr rfl) two
  have other := @plainNotGroup pAd pEntry
  have legacy := @legacyNotGroup pAd pEntry
  have some0 : (pEntry.mcsSet 0 != 0) = true := bne_iff_ne.mpr mcs0
  have some1 : (pEntry.mcsSet 1 != 0) = true := bne_iff_ne.mpr mcs1
  have none1 : (pEntry.mcsSet 1 == 0) = false := beq_eq_false_iff_ne.mpr mcs1
  have notOne : (pAd.txStream == 1) = false := beq_eq_false_iff_ne.mpr (by omega)
  unfold laterTable LaterMismatch
  rw [if_neg (fun both => infra (Bool.and_eq_true_iff.mp both))]
  simp only [some0,some1,none1,notOne,Bool.or_self,Bool.and_false,Bool.and_true,Bool.true_and,Bool.false_eq_true,
    if_false,infra,not_false_eq_true,true_and,mcs0,mcs1,ne_eq]
  rcases streams with stream | ⟨more,all,mcs2⟩
  · simp only [stream,beq_self_eq_true,Bool.or_true,if_true,true_or,and_true]
    split_ifs <;> simp_all [qam256One,grpCnt]
    tauto
  · simp only [mcs2,all,beq_self_eq_true]
    split_ifs <;> simp_all [qam256One,grpCnt]
    tauto

end Later

theorem laterOneGroup (two : TwoGroups pAd pEntry) : OneGroup pAd pEntry (laterTable pAd pEntry ppTable) ↔
      LaterMismatch pAd pEntry (OneGroup pAd pEntry ppTable) := by
  by_cases adhoc : pAd.opModeSta = true ∧ pAd.adhocOn = true
  · unfold laterTable
    rw [if_pos (Bool.and_eq_true_iff.mpr adhoc)]
    exact iff_of_false adhocNotGroup (fun later => later.1 adhoc)
  by_cases mcs0 : pEntry.mcsSet 0 = 0
  · unfold laterTable
    rw [if_neg (fun both => adhoc (Bool.and_eq_true_iff.mp both))]
    simp only [mcs0,bne_self_eq_false,Bool.and_false,Bool.false_and,Bool.false_eq_true,if_false]
    exact iff_of_false legacyNotGroup (fun later => later.2.1 mcs0)
  by_cases mcs1 : pEntry.mcsSet 1 = 0
  · exact laterOneStream two adhoc mcs0 mcs1
  · exact laterTwoStreams two adhoc mcs0 mcs1

theorem operatingSsTwo (two : TwoGroups pAd pEntry) (vht : pEntry.supports supportVhtMode = true) :
    operatingSs pAd pEntry = 1 ∧ OneStreamMode pEntry ∨ operatingSs pAd pEntry = 2 ∧ ¬OneStreamMode pEntry := by
  rw [TwoGroups,if_pos vht] at two
  have highest : highestSs pEntry = 2 := highestTwo (by rw [two.2]; decide)
  unfold operatingSs operatingMode OneStreamMode
  rw [two.1,highest]
  grind

theorem vhtOne (two : TwoGroups pAd pEntry) (vht : pEntry.supports supportVhtMode = true) :
    OneGroup pAd pEntry ((vhtTable pEntry (operatingSs pAd pEntry)).or ppTable) ↔ OneStreamMode pEntry := by
  rcases operatingSsTwo two vht with ⟨ss,one⟩ | ⟨ss,many⟩
  · rw [ss]
    unfold vhtTable
    grind [oneGroupGrp,grpCnt]
  · rw [ss]
    unfold vhtTable
    grind [oneGroupGrp,grpCnt]

theorem rt8592One (two : TwoGroups pAd pEntry) (vht : pEntry.supports supportVhtMode = true) :
    ∃ table, rt8592Table pAd (operatingSs pAd pEntry) = some table ∧
      (OneGroup pAd pEntry (some table) ↔ pAd.rateAlg = .grp ∧ htTwoStreams pAd pEntry = false) := by
  have adapt1 := adaptOne (.inl rfl) two
  have adapt2 := adaptOne (.inr rfl) two
  unfold rt8592Table
  rcases operatingSsTwo two vht with ⟨ss,_⟩ | ⟨ss,_⟩
  · rw [ss]
    refine ⟨_,rfl,?_⟩
    grind [OneGroup]
  · rw [ss]
    refine ⟨_,rfl,?_⟩
    grind [OneGroup]

theorem fortyMode : (operatingBw pEntry == bw40) = true ↔ FortyMode pEntry := by
  unfold operatingBw FortyMode operatingMode
  grind [bw20,bw40,bw80]

theorem selectOneGroup : TwoGroups pAd pEntry ∧ OneGroup pAd pEntry (mlmeSelectTxRateTable pAd pEntry ppTable) ↔
    Mismatch pAd pEntry ppTable := by
  unfold Mismatch
  refine and_congr_right fun two => ?_
  unfold mlmeSelectTxRateTable vhtStation
  by_cases station : wmodeCapAC pAd.phyMode = true ∧ pEntry.supports supportVhtMode = true
  · rw [if_pos (Bool.and_eq_true_iff.mpr station),if_pos station]
    have stored : OneGroup pAd pEntry (if pAd.rateAlg = .grp then
          (vhtTable pEntry (operatingSs pAd pEntry)).or ppTable else ppTable) ↔
        if pAd.rateAlg = .grp then OneStreamMode pEntry else ShortTable pAd pEntry ppTable := by
      split_ifs
      · exact vhtOne two station.2
      · exact oneGroupShort
    by_cases forty : isRt8592 pAd = true ∧ FortyMode pEntry
    · have stays : ¬(!(isRt8592 pAd && operatingBw pEntry == bw40)) = true := by
        simp [forty.1,fortyMode.mpr forty.2]
      rw [if_pos forty]
      dsimp only
      rw [if_neg stays]
      by_cases high : 14 < pAd.channel
      · rw [if_pos high,if_pos high]
        obtain ⟨table,chosen,one⟩ := rt8592One two station.2
        rwa [chosen,Option.some_or]
      · rw [if_neg high,if_neg high,laterOneGroup two]
        exact iff_of_eq (congrArg (LaterMismatch pAd pEntry) (propext stored))
    · have leaves : (!(isRt8592 pAd && operatingBw pEntry == bw40)) = true := by
        rw [← fortyMode,← Bool.and_eq_true_iff] at forty
        rw [Bool.eq_false_iff.mpr forty]
        rfl
      rw [if_neg forty]
      dsimp only
      rwa [if_pos leaves]
  · rw [if_neg (fun both => station (Bool.and_eq_true_iff.mp both)),if_neg station,laterOneGroup two]
    exact iff_of_eq (congrArg (LaterMismatch pAd pEntry) (propext oneGroupShort))

theorem groupFits {t} (chosen : mlmeSelectTxRateTable pAd pEntry ppTable = some (.grp t)) :
    mlmeSetMcsGroup pAd pEntry ≤ grpCnt pAd pEntry t ↔ ¬Mismatch pAd pEntry ppTable := by
  have bounds := @grpCntBounds pAd pEntry t
  rw [← selectOneGroup,chosen,oneGroupGrp]
  rcases setTwo with ⟨value,two⟩ | ⟨value,one⟩
  · rw [value]
    constructor
    · rintro fits ⟨_,one⟩
      omega
    · intro fits
      have notOne : ¬grpCnt pAd pEntry t = 1 := fun one => fits ⟨two,one⟩
      omega
  · rw [value]
    exact ⟨fun _ both => one both.1,fun _ => bounds.1⟩

end

theorem rateSelectionExact (contents : GroupTable → List UInt8) (pAd : RateAdapter) (pEntry : RateEntry)
    (ppTable : Option RateTable)
    (links : ∀ t, mlmeSelectTxRateTable pAd pEntry ppTable = some (.grp t) →
      LinksValid (grpCnt pAd pEntry t) (contents t)) :
    RateSelection contents pAd pEntry ppTable ↔ ¬Mismatch pAd pEntry ppTable := by
  constructor
  · intro selection mismatch
    obtain ⟨t,chosen,_⟩ := (selectOneGroup.mpr mismatch).2
    have bounds := @grpCntBounds pAd pEntry t
    obtain ⟨row,read,_⟩ := linksRow (links t chosen) (links t chosen).filled
    have call := (selection t chosen).1 _ ⟨0,0,fun _ => 0⟩ row .set (links t chosen).filled read
    have first := call.chosen _ .first
    rw [Ne,choiceNone bounds.1 bounds.2] at first
    exact (groupFits chosen).mp (Nat.not_lt.mp first) mismatch
  · intro fits t chosen
    have bounds := @grpCntBounds pAd pEntry t
    refine ⟨?_,fun chains idx inside => downSelectsOf (chains idx inside)⟩
    intro g call pCurrTxRate left inside read
    obtain ⟨row,again,linked⟩ := linksRow (links t chosen) inside
    rw [read] at again
    cases again
    have group := leftFits (links t chosen) bounds.1 bounds.2 ((groupFits chosen).mpr fits) left
    exact upSelectsOf (links t chosen) linked bounds.1 bounds.2 group read

def twoStreamAdapter : RateAdapter where
  phyMode := wmodeA ||| wmodeAN ||| wmodeAC
  txStream := 2
  txPath := 2
  rateAlg := .grp
  macVersion := 0x76620000
  opModeSta := true
  adhocOn := false
  channel := 36
  bbpCurrentBW := bw80
  maxTxRate := 11
  minTxRate := 0

def vhtEntry : RateEntry where
  supportRateMode := supportOfdmMode ||| supportVhtMode
  supportVHTMCS := fun _ => 1
  mcsSet := fun i => if i.val < 2 then 0xff else 0
  rateLen := 8
  qam256Capable := false
  forceOpMode := false
  rxNssType := 0
  rxNss := 0
  chWidth := 2
  maxBW := bw80
  maxShortGI := true

theorem rateSelectionTwoStreams : RateSelection (fun _ => rateTableVht2S) twoStreamAdapter vhtEntry none := by
  refine (rateSelectionExact (fun _ => rateTableVht2S) twoStreamAdapter vhtEntry none ?_).mpr (by decide)
  intro t chosen
  have which : mlmeSelectTxRateTable twoStreamAdapter vhtEntry none = some (.grp .vht2S) := by decide
  rw [which] at chosen
  cases chosen
  exact linksVht2S

theorem rateSelectionOneStream :
    ¬RateSelection (fun _ => rateTableVht1SMcs9) twoStreamAdapter { vhtEntry with forceOpMode := true } none := by
  intro selection
  have which : mlmeSelectTxRateTable twoStreamAdapter { vhtEntry with forceOpMode := true } none =
    some (.grp .vht1SMcs9) := by decide
  obtain ⟨row,read,_⟩ := linksRow linksVht1S linksVht1S.filled
  have call := (selection .vht1SMcs9 which).1 _ ⟨0,0,fun _ => 0⟩ row .set linksVht1S.filled read
  exact call.chosen _ .first rfl

end RtmpDriver.RateGroup
