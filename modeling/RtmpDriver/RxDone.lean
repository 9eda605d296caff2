import RtmpDriver.BulkIn
import RtmpDriver.Defragment

/-! From the bulk-in ring to the announcement: rtmp_rx_done_handle checks a frame, and STAHandleRxDataFrame takes the
header off its DataSize, step by step in 16 bits. -/
namespace RtmpDriver.RxDone
open EapolFrame WpaSupplicant RxFilter
open RsnSuites (WepStatus)

def maxAggregationSize : Nat := 3840
def modeOfdm : Nat := 1
def fcTypeData : Nat := 2

def infoBit (w : List UInt8) (i : Nat) : Bool := (w.getD (i / 8) 0).toNat.testBit (i % 8)

def infoOf (w : List UInt8) : RxInfo where
  ba := infoBit w 0
  u2m := infoBit w 4
  mcast := infoBit w 5
  bcast := infoBit w 6
  myBss := infoBit w 7
  l2pad := infoBit w 14
  decrypted := infoBit w 16

def crcOf (w : List UInt8) : Bool := infoBit w 8
def cipherErrOf (w : List UInt8) : Nat := (w.getD 1 0).toNat / 2 % 4

/- The RX_BLK that rtmp_rx_done_handle builds; `beyond` is what lies behind the copied bytes. -/
def builtRxBlk (ring : BulkIn.RxBlk) (beyond : Nat → UInt8) : RxBlk where
  info := infoOf ring.rxInfo
  rxwi := fun i => ring.packet.getD i (beyond i)
  frame := fun i => ring.packet.getD (ring.header + i) (beyond (ring.header + i))
  room := 0
  dataSize := BitVec.ofNat 16 ring.mpduTotalByteCnt
  wcid := ring.wcid
  legacyRate := ring.phyMode ≤ modeOfdm
  amsdu := false
  ampdu := false
  aralink := false

def rtmpCheckRxError (ring : BulkIn.RxBlk) (rx : RxBlk) : Bool :=
  if crcOf ring.rxInfo then false
  else if rx.header.toDs then false
  else if maxAggregationSize < ring.mpduTotalByteCnt then false
  else !(rx.info.decrypted && cipherErrOf ring.rxInfo != 0)

def fcType (rx : RxBlk) : Nat := (rx.frame 0).toNat / 4 % 4

/- A frame from another port of the device carries no 802.11 header. -/
def fromOtherPort (fce : List UInt8) : Bool :=
  (fce.getD 3 0).toNat / 64 ≠ 0 ∨ (fce.getD 2 0).toNat.testBit 3 = false

inductive Done where
  | discarded
  | management
  | control
  | data (sta : RxSta) (outcome : Outcome)

def rtmpRxDoneHandle (env : Env) (sta : RxSta) (ring : BulkIn.RxBlk) (beyond : Nat → UInt8) : Done :=
  let rx := builtRxBlk ring beyond
  if fromOtherPort ring.rxFceInfo then .discarded
  else if !rtmpCheckRxError ring rx then .discarded
  else if fcType rx = fcTypeData then
    let r := staHandleRxDataFrame env sta rx
    .data r.1 r.2
  else if fcType rx = 0 then .management
  else if fcType rx = 1 then .control
  else .discarded

/- The RX_BLK after each statement of the handler that moves pData or takes off DataSize. -/
def headerSteps (sta : RxSta) (rx : RxBlk) : List RxBlk :=
  [rx,skipHeader rx,skipQos (skipHeader rx),skipHtc sta (skipQos (skipHeader rx)),
    skipPad (skipHtc sta (skipQos (skipHeader rx)))]

def Shrinks (bound : Nat) (a b : RxBlk) : Prop :=
  b.dataSize.toNat ≤ a.dataSize.toNat ∧ b.room + b.dataSize.toNat ≤ bound

/- MPDUtotalByteCnt leaves the hardware padding out. -/
def mpduEnd (rx : RxBlk) : Nat := rx.dataSize.toNat + if rx.info.l2pad then 2 else 0

def unicast (rx : RxBlk) : Bool := !groupAddressed rx && rx.info.u2m

def tkipMicTaken (sta : RxSta) (rx : RxBlk) : Bool :=
  isFragment rx && rx.info.decrypted && sta.entryWepStatus rx.wcid == .tkipEnable

def NeverWraps (env : Env) (sta : RxSta) (rx : RxBlk) : Prop :=
  refused sta rx = false →
    (headerSteps sta rx).IsChain (Shrinks (mpduEnd rx)) ∧
      ∀ f msdu, unicast rx = true → tkipMicTaken sta rx = true →
        completed env sta (skipped sta rx) = (f,some msdu) →
          Shrinks (f.rxSize - sta.rxwiSize) msdu (micStripped sta true msdu)

def qosLen (rx : RxBlk) : Nat := if rx.header.subType.testBit 3 then 2 else 0
def htcLen (sta : RxSta) (rx : RxBlk) : Nat :=
  if rx.header.order ∧ ¬ (rx.legacyRate ∧ sta.aggregationInUsed) then 4 else 0
def padLen (rx : RxBlk) : Nat := if rx.info.l2pad then 2 else 0
def headerLen (sta : RxSta) (rx : RxBlk) : Nat := length80211 + qosLen rx + htcLen sta rx

def headerRoom (sta : RxSta) (rx : RxBlk) : Nat := headerLen sta rx + padLen rx

structure Completes (env : Env) (sta : RxSta) (rx : RxBlk) : Prop where
  later : rx.header.frag ≠ 0
  next : rx.header.sequence = sta.fragFrame.sequence ∧ rx.header.frag = sta.fragFrame.lastFrag + 1
  size : sta.fragFrame.rxSize + (rx.dataSize.toNat - headerLen sta rx) ≤ maxFrameSize + sta.rxwiSize
  body : bytesAt (fun i => rx.frame (headerRoom sta rx + i)) 0 6 ≠ snap8021H
  last : rx.header.moreFrag = false
  memory : env.fragPacket.isSome = true

structure LongEnough (env : Env) (sta : RxSta) (rx : RxBlk) : Prop where
  header : headerLen sta rx ≤ rx.dataSize.toNat
  mic : unicast rx = true → tkipMicTaken sta rx = true → Completes env sta rx →
    sta.rxwiSize + headerRoom sta rx + 8 ≤ sta.fragFrame.rxSize + (rx.dataSize.toNat - headerLen sta rx)

theorem subToNat {x k} (fits : k ≤ x.toNat) : (x - BitVec.ofNat 16 k).toNat = x.toNat - k := by
  have bound := x.isLt
  rw [BitVec.toNat_sub,BitVec.toNat_ofNat]
  omega

theorem subShrinks {x k} (small : k < 65536) : (x - BitVec.ofNat 16 k).toNat ≤ x.toNat ↔ k ≤ x.toNat := by
  have bound := x.isLt
  rw [BitVec.toNat_sub,BitVec.toNat_ofNat]
  omega

structure Moves (a k : Nat) (rx rx' : RxBlk) : Prop where
  room : rx'.room = rx.room + a
  size : rx'.dataSize = rx.dataSize - BitVec.ofNat 16 k

theorem Moves.shrinks {a k bound rx rx'} (moves : Moves a k rx rx') (small : k < 65536)
    (room : k ≤ rx.dataSize.toNat → rx.room + a + (rx.dataSize.toNat - k) ≤ bound) :
    Shrinks bound rx rx' ↔ k ≤ rx.dataSize.toNat := by
  unfold Shrinks
  rw [moves.size,moves.room,subShrinks small]
  constructor
  · exact And.left
  · intro fits
    rw [subToNat fits]
    exact ⟨fits,room fits⟩

section Steps
variable (sta : RxSta) (rx : RxBlk)

theorem skipQosMoves : Moves (qosLen rx) (qosLen rx) rx (skipQos rx) := by
  unfold skipQos qosLen
  split
  · exact ⟨rfl,rfl⟩
  · exact ⟨rfl,(BitVec.sub_zero _).symm⟩

theorem skipHtcMoves : Moves (htcLen sta rx) (htcLen sta rx) rx (skipHtc sta rx) := by
  unfold skipHtc htcLen
  cases rx.header.order with
  | false => exact ⟨by simp,by simp⟩
  | true =>
    by_cases aggregate : rx.legacyRate = true ∧ sta.aggregationInUsed = true
    · exact ⟨by simp [aggregate],by simp [aggregate]⟩
    · exact ⟨by simp [aggregate],by simp [aggregate]⟩

theorem skipPadMoves : Moves (padLen rx) 0 rx (skipPad rx) := by
  unfold skipPad padLen
  split
  · exact ⟨rfl,(BitVec.sub_zero _).symm⟩
  · exact ⟨rfl,(BitVec.sub_zero _).symm⟩

theorem htcLenSame : htcLen sta (skipQos (skipHeader rx)) = htcLen sta rx := by
  have frame : (skipQos (skipHeader rx)).header = rx.header := congrArg headerOf (skipQosSame (skipHeader rx)).1
  have rate : (skipQos (skipHeader rx)).legacyRate = rx.legacyRate := by
    unfold skipQos
    split <;> rfl
  unfold htcLen
  rw [frame,rate]

theorem padLenSame : padLen (skipHtc sta (skipQos (skipHeader rx))) = padLen rx := by
  have info : (skipHtc sta (skipQos (skipHeader rx))).info = rx.info :=
    (skipHtcSame sta _).2.trans (skipQosSame (skipHeader rx)).2
  unfold padLen
  rw [info]

theorem skipHeaderMoves (start : rx.room = 0) : Moves length80211 length80211 rx (skipHeader rx) :=
  ⟨by rw [start,Nat.zero_add]; rfl,rfl⟩

theorem markAmpduMoves : Moves 0 0 rx (markAmpdu rx) := by
  unfold markAmpdu
  split <;> exact ⟨rfl,(BitVec.sub_zero _).symm⟩

theorem laterMoves : Moves (qosLen rx) (qosLen rx) (skipHeader rx) (skipQos (skipHeader rx)) ∧
    Moves (htcLen sta rx) (htcLen sta rx) (skipQos (skipHeader rx)) (skipHtc sta (skipQos (skipHeader rx))) ∧
    Moves (padLen rx) 0 (skipHtc sta (skipQos (skipHeader rx)))
      (skipPad (skipHtc sta (skipQos (skipHeader rx)))) := by
  refine ⟨skipQosMoves (skipHeader rx),?_,?_⟩
  · rw [← htcLenSame sta rx]
    exact skipHtcMoves sta (skipQos (skipHeader rx))
  · rw [← padLenSame sta rx]
    exact skipPadMoves (skipHtc sta (skipQos (skipHeader rx)))

theorem headerChain (start : rx.room = 0) :
    (headerSteps sta rx).IsChain (Shrinks (mpduEnd rx)) ↔ headerLen sta rx ≤ rx.dataSize.toNat := by
  have m₁ := skipHeaderMoves rx start
  obtain ⟨m₂,m₃,m₄⟩ := laterMoves sta rx
  have whole : mpduEnd rx = rx.dataSize.toNat + padLen rx := rfl
  have short : qosLen rx ≤ 2 ∧ htcLen sta rx ≤ 4 := by
    unfold qosLen htcLen
    constructor <;> split <;> omega
  have base : length80211 = 24 := rfl
  unfold headerSteps headerLen
  simp only [List.isChain_cons_cons,List.isChain_singleton,and_true]
  generalize skipPad (skipHtc sta (skipQos (skipHeader rx))) = x₄ at m₄ ⊢
  generalize skipHtc sta (skipQos (skipHeader rx)) = x₃ at m₃ m₄ ⊢
  generalize skipQos (skipHeader rx) = x₂ at m₂ m₃ ⊢
  generalize skipHeader rx = x₁ at m₁ m₂ ⊢
  rw [m₁.shrinks (by omega) (by omega)]
  constructor
  · rintro ⟨s₁,s₂,s₃,-⟩
    have d₁ : x₁.dataSize.toNat = rx.dataSize.toNat - 24 := by rw [m₁.size,subToNat s₁]; rfl
    have f₂ : qosLen rx ≤ x₁.dataSize.toNat := (m₂.size ▸ subShrinks (by omega)).mp s₂.1
    have d₂ : x₂.dataSize.toNat = x₁.dataSize.toNat - qosLen rx := by rw [m₂.size,subToNat f₂]
    have f₃ : htcLen sta rx ≤ x₂.dataSize.toNat := (m₃.size ▸ subShrinks (by omega)).mp s₃.1
    omega
  · intro fits
    have r₁ := m₁.room
    have r₂ := m₂.room
    have r₃ := m₃.room
    have d₁ : x₁.dataSize.toNat = rx.dataSize.toNat - 24 := by rw [m₁.size,subToNat (by omega)]; rfl
    have d₂ : x₂.dataSize.toNat = x₁.dataSize.toNat - qosLen rx := by rw [m₂.size,subToNat (by omega)]
    have d₃ : x₃.dataSize.toNat = x₂.dataSize.toNat - htcLen sta rx := by rw [m₃.size,subToNat (by omega)]
    refine ⟨by omega,(m₂.shrinks (by omega) ?_).mpr ?_,(m₃.shrinks (by omega) ?_).mpr ?_,
      (m₄.shrinks (by omega) ?_).mpr ?_⟩ <;> omega

theorem skippedSpec (fits : headerLen sta rx ≤ rx.dataSize.toNat) : (skipped sta rx).room = headerRoom sta rx ∧
      (skipped sta rx).dataSize.toNat = rx.dataSize.toNat - headerLen sta rx := by
  obtain ⟨m₂,m₃,m₄⟩ := laterMoves sta rx
  have m₅ := markAmpduMoves (skipPad (skipHtc sta (skipQos (skipHeader rx))))
  have d₁ : (skipHeader rx).dataSize = rx.dataSize - BitVec.ofNat 16 length80211 := rfl
  have r₁ : (skipHeader rx).room = length80211 := rfl
  unfold headerLen at fits
  unfold skipped headerRoom headerLen
  rw [m₅.room,m₄.room,m₃.room,m₂.room,m₅.size,m₄.size,m₃.size,m₂.size,r₁,d₁]
  rw [BitVec.sub_zero,BitVec.sub_zero]
  have e₁ := subToNat (x := rx.dataSize) (k := length80211) (by omega)
  have e₂ := subToNat (x := rx.dataSize - BitVec.ofNat 16 length80211) (k := qosLen rx) (by omega)
  rw [subToNat (by omega),e₂,e₁]
  omega

theorem skippedWcid : (skipped sta rx).wcid = rx.wcid := by
  unfold skipped markAmpdu skipPad skipHtc skipQos skipHeader
  grind

theorem headerRoomShort : headerRoom sta rx ≤ 32 := by
  unfold headerRoom headerLen qosLen htcLen padLen length80211
  grind

end Steps

section Mic
variable {env : Env} {sta : RxSta} {rx : RxBlk}

theorem skippedTaken (fits : headerLen sta rx ≤ rx.dataSize.toNat) :
    Defragment.kindOf sta.rxwiSize sta.fragFrame (skipped sta rx) = .taken ↔
      rx.header.frag ≠ 0 ∧ rx.header.sequence = sta.fragFrame.sequence ∧
      rx.header.frag = sta.fragFrame.lastFrag + 1 ∧
      sta.fragFrame.rxSize + (rx.dataSize.toNat - headerLen sta rx) ≤ maxFrameSize + sta.rxwiSize ∧
      bytesAt (fun i => rx.frame (headerRoom sta rx + i)) 0 6 ≠ snap8021H := by
  obtain ⟨room,size⟩ := skippedSpec sta rx fits
  have data : (skipped sta rx).data = fun i => rx.frame (headerRoom sta rx + i) := by
    unfold RxBlk.data
    rw [room,(skippedSame sta rx).1]
  rw [Defragment.kindTaken,skippedHeader,size,data]

theorem completedSome (fits : headerLen sta rx ≤ rx.dataSize.toNat) (fragment : isFragment rx = true) {f msdu} :
    completed env sta (skipped sta rx) = (f,some msdu) ↔ Completes env sta rx ∧ ∃ packet, env.fragPacket = some packet ∧
      f = {nextFragment sta.fragFrame (skipped sta rx) with buffer := packet} ∧
      msdu = reassembled sta.rxwiSize (nextFragment sta.fragFrame (skipped sta rx)) (skipped sta rx) := by
  unfold completed
  rw [skippedFragment,fragment,if_pos rfl,Defragment.deFragmentKind]
  constructor
  · intro done
    cases kind : Defragment.kindOf sta.rxwiSize sta.fragFrame (skipped sta rx) with
    | first | whole | encapsulated | broken =>
      rw [kind] at done
      cases done
    | taken =>
      obtain ⟨later,sequence,number,large,body⟩ := (skippedTaken fits).mp kind
      rw [kind] at done
      cases more : rx.header.moreFrag with
      | true =>
        simp only [skippedHeader,more] at done
        cases done
      | false =>
        cases memory : env.fragPacket with
        | none =>
          simp only [skippedHeader,more,memory] at done
          cases done
        | some packet =>
          simp only [skippedHeader,more,memory] at done
          cases done
          exact ⟨⟨later,⟨sequence,number⟩,large,body,more,by rw [memory]; rfl⟩,packet,rfl,rfl,rfl⟩
  · rintro ⟨completes,packet,memory,rfl,rfl⟩
    have kind := (skippedTaken fits).mpr
      ⟨completes.later,completes.next.1,completes.next.2,completes.size,completes.body⟩
    rw [kind]
    simp only [skippedHeader,completes.last,memory]
    rfl

theorem micStrippedMoves (taken : tkipMicTaken sta rx = true) (f) :
    Moves 0 8 (reassembled sta.rxwiSize f (skipped sta rx))
      (micStripped sta true (reassembled sta.rxwiSize f (skipped sta rx))) := by
  simp only [tkipMicTaken,Bool.and_eq_true,beq_iff_eq] at taken
  have info : (reassembled sta.rxwiSize f (skipped sta rx)).info.decrypted = true := by
    show (skipped sta rx).info.decrypted = true
    rw [skippedInfo]
    exact taken.1.2
  have cipher : sta.entryWepStatus (reassembled sta.rxwiSize f (skipped sta rx)).wcid = .tkipEnable := by
    show sta.entryWepStatus (skipped sta rx).wcid = .tkipEnable
    rw [skippedWcid]
    exact taken.2
  unfold micStripped
  rw [if_pos ⟨rfl,info,cipher⟩]
  exact ⟨rfl,rfl⟩

theorem micShrinks {f msdu} (moves : Moves 0 8 (reassembled sta.rxwiSize f rx) msdu)
    (chip : sta.rxwiSize < 256) (room : rx.room ≤ 32) (size : f.rxSize ≤ maxFrameSize + sta.rxwiSize) :
    Shrinks (f.rxSize - sta.rxwiSize) (reassembled sta.rxwiSize f rx) msdu ↔
      sta.rxwiSize + rx.room + 8 ≤ f.rxSize := by
  have small : maxFrameSize = 2346 := rfl
  unfold Shrinks
  rw [moves.size,moves.room]
  simp only [reassembled,BitVec.toNat_sub,BitVec.toNat_ofNat]
  omega

end Mic

theorem handledData (env sta ring beyond) :
    (∃ next outcome, rtmpRxDoneHandle env sta ring beyond = .data next outcome) ↔
    fromOtherPort ring.rxFceInfo = false ∧ rtmpCheckRxError ring (builtRxBlk ring beyond) = true ∧
      fcType (builtRxBlk ring beyond) = fcTypeData := by
  unfold rtmpRxDoneHandle
  dsimp only
  cases fromOtherPort ring.rxFceInfo with
  | true => simp
  | false =>
    cases rtmpCheckRxError ring (builtRxBlk ring beyond) with
    | false => simp
    | true =>
      by_cases data : fcType (builtRxBlk ring beyond) = fcTypeData
      · simp [data]
      · simp only [Bool.false_eq_true,Bool.not_true,if_false,data,and_false,iff_false]
        split_ifs <;> rintro ⟨_,_,⟨⟩⟩

theorem neverWrapsIff (env sta rx) (chip : sta.rxwiSize < 256) (start : rx.room = 0) :
    NeverWraps env sta rx ↔ (refused sta rx = false → LongEnough env sta rx) := by
  unfold NeverWraps
  refine imp_congr_right fun _ => ?_
  rw [headerChain sta rx start]
  have short := headerRoomShort sta rx
  have fragment : tkipMicTaken sta rx = true → isFragment rx = true := by
    intro taken
    simp only [tkipMicTaken,Bool.and_eq_true] at taken
    exact taken.1.1
  constructor
  · rintro ⟨fits,mic⟩
    obtain ⟨room,size⟩ := skippedSpec sta rx fits
    refine ⟨fits,fun one taken completes => ?_⟩
    obtain ⟨packet,memory⟩ := Option.isSome_iff_exists.mp completes.memory
    have step := mic _ _ one taken ((completedSome fits (fragment taken)).mpr ⟨completes,packet,memory,rfl,rfl⟩)
    have large := completes.size
    have mic := (micShrinks (micStrippedMoves taken _) chip (by omega) (by simp only [nextFragment]; omega)).mp step
    simp only [nextFragment] at mic
    omega
  · rintro ⟨fits,mic⟩
    obtain ⟨room,size⟩ := skippedSpec sta rx fits
    refine ⟨fits,fun f msdu one taken done => ?_⟩
    obtain ⟨completes,packet,memory,rfl,rfl⟩ := (completedSome fits (fragment taken)).mp done
    have enough := mic one taken completes
    have large := completes.size
    refine (micShrinks (micStrippedMoves taken _) chip (by omega) (by simp only [nextFragment]; omega)).mpr ?_
    simp only [nextFragment]
    omega

theorem strippingNeverWraps (env : Env) (sta : RxSta) (chip : sta.rxwiSize < 256) (ring : BulkIn.RxBlk)
    (beyond : Nat → UInt8) :
    (∀ next outcome, rtmpRxDoneHandle env sta ring beyond = .data next outcome →
      NeverWraps env sta (builtRxBlk ring beyond)) ↔
    (fromOtherPort ring.rxFceInfo = false → rtmpCheckRxError ring (builtRxBlk ring beyond) = true →
      fcType (builtRxBlk ring beyond) = fcTypeData → refused sta (builtRxBlk ring beyond) = false →
      LongEnough env sta (builtRxBlk ring beyond)) := by
  have iff := neverWrapsIff env sta (builtRxBlk ring beyond) chip rfl
  constructor
  · intro never port checked data
    obtain ⟨next,outcome,handled⟩ := (handledData env sta ring beyond).mpr ⟨port,checked,data⟩
    exact iff.mp (never next outcome handled)
  · intro long next outcome handled
    obtain ⟨port,checked,data⟩ := (handledData env sta ring beyond).mp ⟨next,outcome,handled⟩
    exact iff.mpr (long port checked data)

def sampleRing (count : Nat) : BulkIn.RxBlk :=
  {BulkIn.rxBlkOf BulkIn.sampleContext.transferBuffer 0 with
    rxInfo := [0x90,0,0,0]
    rxFceInfo := [0,0,8,0]
    packet := List.replicate 28 0 ++ bytesAt (sampleFrame 0x02) 0 40
    mpduTotalByteCnt := count }

theorem strippingNeverWrapsForty :
    refused (sampleRxSta 1) (builtRxBlk (sampleRing 40) fun _ => 0) = false ∧
      (∃ next outcome, rtmpRxDoneHandle sampleEnv (sampleRxSta 1) (sampleRing 40) (fun _ => 0) =
        .data next outcome) ∧
      NeverWraps sampleEnv (sampleRxSta 1) (builtRxBlk (sampleRing 40) fun _ => 0) := by
  have handled := (handledData sampleEnv (sampleRxSta 1) (sampleRing 40) fun _ => 0).mpr
    ⟨by decide,by decide,by decide⟩
  refine ⟨by decide,handled,?_⟩
  obtain ⟨next,outcome,data⟩ := handled
  refine (strippingNeverWraps _ _ (by decide) _ _).mpr (fun _ _ _ _ => ⟨by decide,fun _ taken => ?_⟩) next outcome data
  exact absurd taken (by decide)

theorem shortFrameWraps :
    (∃ next outcome, rtmpRxDoneHandle sampleEnv (sampleRxSta 1) (sampleRing 10) (fun _ => 0) =
        .data next outcome) ∧
      (skipped (sampleRxSta 1) (builtRxBlk (sampleRing 10) fun _ => 0)).dataSize = 65522 ∧
      ¬ NeverWraps sampleEnv (sampleRxSta 1) (builtRxBlk (sampleRing 10) fun _ => 0) := by
  refine ⟨(handledData _ _ _ _).mpr ⟨by decide,by decide,by decide⟩,by decide,fun never => ?_⟩
  have fits := (headerChain (sampleRxSta 1) (builtRxBlk (sampleRing 10) fun _ => 0) rfl).mp (never (by decide)).1
  exact absurd fits (by decide)

end RtmpDriver.RxDone
