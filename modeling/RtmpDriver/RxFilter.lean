import RtmpDriver.WpaSupplicant

/-! The receive path of the station, STAHandleRxDataFrame, up to the indication of a packet: the checks on the header,
the skipping of headers, RTMPDeFragmentDataFrame, and in STARxDataFrameAnnounce the filter for clear text. -/
namespace RtmpDriver.RxFilter
open EapolFrame WpaSupplicant
open RsnSuites (WepStatus)

structure Header where
  subType : Nat
  toDs : Bool
  frDs : Bool
  moreFrag : Bool
  wep : Bool
  order : Bool
  addr2 : Bytes
  addr3 : Bytes
  frag : Nat
  sequence : Nat
  deriving DecidableEq, Repr

def headerOf (frame : Nat → UInt8) : Header where
  subType := (frame 0).toNat / 16
  toDs := (frame 1).toNat.testBit 0
  frDs := (frame 1).toNat.testBit 1
  moreFrag := (frame 1).toNat.testBit 2
  wep := (frame 1).toNat.testBit 6
  order := (frame 1).toNat.testBit 7
  addr2 := bytesAt frame 10 6
  addr3 := bytesAt frame 16 6
  frag := (frame 22).toNat % 16
  sequence := (frame 22).toNat / 16 + (frame 23).toNat * 16

structure RxInfo where
  myBss : Bool
  bcast : Bool
  mcast : Bool
  u2m : Bool
  l2pad : Bool
  ba : Bool
  decrypted : Bool
  deriving DecidableEq, Repr

/- RX_BLK. `frame` is the memory from pHeader on and `room` the distance from there to pData. -/
structure RxBlk where
  info : RxInfo
  rxwi : Nat → UInt8
  frame : Nat → UInt8
  room : Nat
  dataSize : BitVec 16
  wcid : UInt8
  legacyRate : Bool
  amsdu : Bool
  ampdu : Bool
  aralink : Bool

def RxBlk.header (rx : RxBlk) : Header := headerOf rx.frame
def RxBlk.data (rx : RxBlk) : Nat → UInt8 := fun i => rx.frame (rx.room + i)

/- FRAGMENT_FRAME with the memory of its packet, where the RXWI stands before the header. -/
structure FragFrame where
  buffer : Nat → UInt8
  rxSize : Nat
  sequence : Nat
  lastFrag : Nat

/- `known` is MacTableLookup on an address, `entryWepStatus` the WepStatus of `Content[wcid]`. -/
structure RxSta where
  infra : Bool
  mlmeBssid : Bytes
  bssid : Bytes
  currentAddress : Bytes
  known : Bytes → Bool
  entryWepStatus : UInt8 → WepStatus
  aggregationInUsed : Bool
  mediaConnected : Bool
  wepStatus : WepStatus
  portSecured : UInt8
  disableReordering : Bool
  wpaSupplicantUp : Bool
  rxwiSize : Nat
  fragFrame : FragFrame

def maxLenOfMacTable : Nat := 116
def maxFrameSize : Nat := 2346
def portNotSecured : UInt8 := 2
def snap8021H : Bytes := [0xaa,0xaa,0x03,0x00,0x00,0x00]
def snapBridgeTunnel : Bytes := [0xaa,0xaa,0x03,0x00,0x00,0xf8]
def eapolType : Bytes := [0x88,0x8e]

/- What a call finds outside: the new buffer for fragments, the copy of the second MSDU of an
aggregate, the verdict of STACheckTkipMICValue. -/
structure Env where
  fragPacket : Option (Nat → UInt8)
  duplicate : Bool
  tkipMic : RxBlk → Bool

/- What became of the packet. `kept` is a fragment that completes nothing. -/
inductive Outcome where
  | freed | kept | legacy | ampdu | amsdu | aralink | eapAmpdu | eapLegacy | eapMlme
  deriving DecidableEq, Repr

def Outcome.indicates : Outcome → Bool
  | .freed | .kept | .eapMlme => false
  | _ => true

def rtmpCheckWpaFrame (data : Nat → UInt8) (dataByteCount : Nat) : Bool :=
  if dataByteCount < length8021H + lengthEapolH then false
  else
    let llc := if bytesAt data 0 6 = snap8021H ∨ bytesAt data 0 6 = snapBridgeTunnel then 6 else 0
    if bytesAt data llc 2 = eapolType then decide ((data (llc + 3)).toNat ≤ 4) else false

def refused (sta : RxSta) (rx : RxBlk) : Bool :=
  if rx.header.frDs ∧ rx.header.toDs then true
  else if !rx.info.myBss then true
  else if rx.header.subType.testBit 2 then true
  else if (if sta.infra then rx.header.addr2 ≠ sta.mlmeBssid else rx.header.addr3 ≠ sta.bssid) then true
  else ¬ rx.wcid.toNat < maxLenOfMacTable ∧ !sta.known rx.header.addr2

def skipHeader (rx : RxBlk) : RxBlk :=
  {rx with room := length80211, dataSize := rx.dataSize - BitVec.ofNat 16 length80211}

def skipQos (rx : RxBlk) : RxBlk :=
  if rx.header.subType.testBit 3 then
    {rx with
      amsdu := rx.amsdu || (rx.data 0).toNat.testBit 7
      room := rx.room + 2
      dataSize := rx.dataSize - 2}
  else rx

/- The order bit means an aggregate of two MSDUs at a legacy rate, else an HT control field. -/
def skipHtc (sta : RxSta) (rx : RxBlk) : RxBlk :=
  if rx.header.order then
    if rx.legacyRate ∧ sta.aggregationInUsed then {rx with aralink := true}
    else {rx with room := rx.room + 4, dataSize := rx.dataSize - 4}
  else rx

def skipPad (rx : RxBlk) : RxBlk := if rx.info.l2pad then {rx with room := rx.room + 2} else rx

def markAmpdu (rx : RxBlk) : RxBlk := if rx.info.ba then {rx with ampdu := true} else rx

def skipped (sta : RxSta) (rx : RxBlk) : RxBlk := markAmpdu (skipPad (skipHtc sta (skipQos (skipHeader rx))))

def resetFragFrame (f : FragFrame) : FragFrame := {f with rxSize := 0, sequence := 0, lastFrag := 0}

def moveMemory (buffer : Nat → UInt8) (offset : Nat) (data : Nat → UInt8) (len : Nat) : Nat → UInt8 :=
  fun i => if offset ≤ i ∧ i < offset + len then data (i - offset) else buffer i

def firstFragment (rxwiSize : Nat) (f : FragFrame) (rx : RxBlk) : FragFrame where
  buffer := moveMemory (moveMemory f.buffer 0 rx.rxwi rxwiSize) rxwiSize rx.frame (rx.dataSize.toNat + rx.room)
  rxSize := rx.dataSize.toNat + rx.room + rxwiSize
  sequence := rx.header.sequence
  lastFrag := rx.header.frag

def nextFragment (f : FragFrame) (rx : RxBlk) : FragFrame where
  buffer := moveMemory f.buffer f.rxSize rx.data rx.dataSize.toNat
  rxSize := f.rxSize + rx.dataSize.toNat
  sequence := f.sequence
  lastFrag := rx.header.frag

def reassembled (rxwiSize : Nat) (f : FragFrame) (rx : RxBlk) : RxBlk :=
  {rx with
    rxwi := f.buffer
    frame := fun i => f.buffer (rxwiSize + i)
    dataSize := BitVec.ofNat 16 f.rxSize - BitVec.ofNat 16 rx.room - BitVec.ofNat 16 rxwiSize}

def rtmpDeFragmentDataFrame (env : Env) (sta : RxSta) (rx : RxBlk) : FragFrame × Option RxBlk :=
  let f := sta.fragFrame
  let header := rx.header
  if header.frag = 0 then
    if header.moreFrag then (firstFragment sta.rxwiSize f rx,none) else (f,none)
  else if header.sequence ≠ f.sequence ∨ header.frag ≠ f.lastFrag + 1 then (resetFragFrame f,none)
  else if maxFrameSize + sta.rxwiSize < f.rxSize + rx.dataSize.toNat then (resetFragFrame f,none)
  else if bytesAt rx.data 0 6 = snap8021H then (f,none)
  else
    let f := nextFragment f rx
    if header.moreFrag then (f,none)
    else match env.fragPacket with
      | some buffer => ({f with buffer := buffer},some (reassembled sta.rxwiSize f rx))
      | none => (resetFragFrame f,none)

def cmmRxnonRalinkFrameIndicate (sta : RxSta) (rx : RxBlk) : Outcome :=
  if rx.ampdu ∧ !sta.disableReordering then .ampdu
  else if rx.amsdu then .amsdu
  else .legacy

def cmmRxRalinkFrameIndicate (env : Env) (rx : RxBlk) : Outcome :=
  let msdu2Size := (rx.data 0).toNat + (rx.data 1).toNat * 256
  if msdu2Size ≤ 1536 ∧ msdu2Size < rx.dataSize.toNat then
    if env.duplicate then .aralink else .freed
  else .freed

def staRxDataFrameAnnounce (env : Env) (sta : RxSta) (rx : RxBlk) : Outcome :=
  if !rtmpCheckWpaFrame rx.data rx.dataSize.toNat then
    if !sta.mediaConnected then .freed
    else if rx.header.wep ∧ sta.wepStatus = .wepDisabled then .freed
    else if !rx.header.wep ∧ sta.wepStatus ≠ .wepDisabled ∧ sta.portSecured = portNotSecured then .freed
    else if !rx.aralink then cmmRxnonRalinkFrameIndicate sta rx
    else cmmRxRalinkFrameIndicate env rx
  else if rx.ampdu ∧ !sta.disableReordering then .eapAmpdu
  else if sta.wpaSupplicantUp then .eapLegacy
  else .eapMlme

def isFragment (rx : RxBlk) : Bool := !(rx.header.frag = 0 ∧ !rx.header.moreFrag)

def completed (env : Env) (sta : RxSta) (rx : RxBlk) : FragFrame × Option RxBlk :=
  if isFragment rx then rtmpDeFragmentDataFrame env sta rx else (sta.fragFrame,some rx)

def micStripped (sta : RxSta) (fragment : Bool) (rx : RxBlk) : RxBlk :=
  if fragment ∧ rx.info.decrypted ∧ sta.entryWepStatus rx.wcid = .tkipEnable then {rx with dataSize := rx.dataSize - 8}
  else rx

def micFails (env : Env) (sta : RxSta) (fragment : Bool) (rx : RxBlk) : Bool :=
  fragment ∧ rx.info.decrypted ∧ sta.entryWepStatus rx.wcid = .tkipEnable ∧
    !env.tkipMic (micStripped sta fragment rx)

def staHandleRxDataFrame (env : Env) (sta : RxSta) (rx : RxBlk) : RxSta × Outcome :=
  if refused sta rx then (sta,.freed)
  else
    let rx := skipped sta rx
    if rx.info.bcast ∨ rx.info.mcast then
      if rx.header.moreFrag then (sta,.freed)
      else if rx.header.frDs ∧ rx.header.addr3 = sta.currentAddress then (sta,.freed)
      else (sta,.legacy)
    else if rx.info.u2m then
      match completed env sta rx with
      | (f,none) => ({sta with fragFrame := f},.kept)
      | (f,some msdu) =>
        let sta := {sta with fragFrame := f}
        if micFails env sta (isFragment rx) msdu then (sta,.freed)
        else (sta,staRxDataFrameAnnounce env sta (micStripped sta (isFragment rx) msdu))
    else (sta,.freed)

def announced (env : Env) (sta : RxSta) (rx : RxBlk) : Option RxBlk :=
  match (completed env sta (skipped sta rx)).2 with
  | none => none
  | some msdu =>
    if micFails env sta (isFragment (skipped sta rx)) msdu then none
    else some (micStripped sta (isFragment (skipped sta rx)) msdu)

def groupAddressed (rx : RxBlk) : Bool := rx.info.bcast || rx.info.mcast

def isEapol (env : Env) (sta : RxSta) (rx : RxBlk) : Bool :=
  if groupAddressed rx then rtmpCheckWpaFrame (skipped sta rx).data (skipped sta rx).dataSize.toNat
  else match announced env sta rx with
    | none => false
    | some msdu => rtmpCheckWpaFrame msdu.data msdu.dataSize.toNat

def Stopped (env : Env) (sta : RxSta) (rx msdu : RxBlk) : Prop :=
  sta.mediaConnected = false ∨
    sta.portSecured = portNotSecured ∧ (isFragment rx = true → msdu.header.wep = false) ∨
    msdu.aralink = true ∧ cmmRxRalinkFrameIndicate env msdu = .freed

def Filtered (env : Env) (sta : RxSta) (rx : RxBlk) : Prop :=
  refused sta rx = true ∨
    (if groupAddressed rx then
      rx.header.moreFrag = true ∨ rx.header.frDs = true ∧ rx.header.addr3 = sta.currentAddress
    else rx.info.u2m = true → ∀ msdu, announced env sta rx = some msdu → Stopped env sta rx msdu)

def SameFrame (a b : RxBlk) : Prop := a.frame = b.frame ∧ a.info = b.info

theorem skipQosSame (rx) : SameFrame (skipQos rx) rx := by
  unfold skipQos
  split <;> exact ⟨rfl,rfl⟩

theorem skipHtcSame (sta rx) : SameFrame (skipHtc sta rx) rx := by
  unfold skipHtc
  split
  · split <;> exact ⟨rfl,rfl⟩
  · exact ⟨rfl,rfl⟩

theorem skipPadSame (rx) : SameFrame (skipPad rx) rx := by
  unfold skipPad
  split <;> exact ⟨rfl,rfl⟩

theorem markAmpduSame (rx) : SameFrame (markAmpdu rx) rx := by
  unfold markAmpdu
  split <;> exact ⟨rfl,rfl⟩

theorem skippedSame (sta rx) : SameFrame (skipped sta rx) rx := by
  obtain ⟨frame₁,info₁⟩ := skipQosSame (skipHeader rx)
  obtain ⟨frame₂,info₂⟩ := skipHtcSame sta (skipQos (skipHeader rx))
  obtain ⟨frame₃,info₃⟩ := skipPadSame (skipHtc sta (skipQos (skipHeader rx)))
  obtain ⟨frame₄,info₄⟩ := markAmpduSame (skipPad (skipHtc sta (skipQos (skipHeader rx))))
  exact ⟨frame₄.trans (frame₃.trans (frame₂.trans frame₁)),info₄.trans (info₃.trans (info₂.trans info₁))⟩

@[simp] theorem skippedHeader (sta rx) : (skipped sta rx).header = rx.header :=
  congrArg headerOf (skippedSame sta rx).1

@[simp] theorem skippedInfo (sta rx) : (skipped sta rx).info = rx.info := (skippedSame sta rx).2

@[simp] theorem skippedFragment (sta rx) : isFragment (skipped sta rx) = isFragment rx := by
  simp [isFragment]

theorem micStrippedHeader (sta fragment rx) : (micStripped sta fragment rx).header = rx.header := by
  unfold micStripped
  split <;> rfl

theorem announcedHeader {env sta rx msdu} (whole : isFragment rx = false)
    (ok : announced env sta rx = some msdu) : msdu.header = rx.header := by
  simp only [announced,completed,skippedFragment,whole] at ok
  split at ok
  · cases ok
  rename_i found
  cases Option.some.inj found
  split at ok
  · cases ok
  cases Option.some.inj ok
  rw [micStrippedHeader,skippedHeader]

section Path
variable {env : Env} {sta : RxSta} {rx : RxBlk}

theorem handleRefused (no : refused sta rx = true) : staHandleRxDataFrame env sta rx = (sta,.freed) := by
  simp [staHandleRxDataFrame,no]

theorem handleGroup (yes : refused sta rx = false) (group : groupAddressed rx = true) :
    (staHandleRxDataFrame env sta rx).2 =
      if rx.header.moreFrag = true ∨ rx.header.frDs = true ∧ rx.header.addr3 = sta.currentAddress then .freed
      else .legacy := by
  have group : rx.info.bcast = true ∨ rx.info.mcast = true := by simpa [groupAddressed] using group
  simp only [staHandleRxDataFrame,yes,skippedInfo,skippedHeader,if_pos group]
  cases rx.header.moreFrag with
  | true => simp
  | false => by_cases relayed : rx.header.frDs = true ∧ rx.header.addr3 = sta.currentAddress <;> simp [relayed]

theorem handleNeither (group : groupAddressed rx = false) (other : rx.info.u2m = false) :
    (staHandleRxDataFrame env sta rx).2 = .freed := by
  have group : ¬ (rx.info.bcast = true ∨ rx.info.mcast = true) := by simpa [groupAddressed] using group
  simp [staHandleRxDataFrame,group,other]

theorem handleUnicast (yes : refused sta rx = false) (group : groupAddressed rx = false) (u2m : rx.info.u2m = true) :
    (staHandleRxDataFrame env sta rx).2.indicates =
      match announced env sta rx with
      | none => false
      | some msdu => (staRxDataFrameAnnounce env sta msdu).indicates := by
  have group : ¬ (rx.info.bcast = true ∨ rx.info.mcast = true) := by simpa [groupAddressed] using group
  simp only [staHandleRxDataFrame,announced,yes,skippedInfo,if_neg group,u2m]
  rcases completed env sta (skipped sta rx) with ⟨f,_ | msdu⟩
  · rfl
  · have same : micFails env {sta with fragFrame := f} (isFragment (skipped sta rx)) msdu =
        micFails env sta (isFragment (skipped sta rx)) msdu := rfl
    simp only [Bool.false_eq_true,if_false,if_true,same]
    split <;> rfl

theorem nonRalinkIndicates (sta msdu) : (cmmRxnonRalinkFrameIndicate sta msdu).indicates = true := by
  unfold cmmRxnonRalinkFrameIndicate
  split
  · rfl
  · split <;> rfl

theorem ralinkIndicates (env msdu) :
    (cmmRxRalinkFrameIndicate env msdu).indicates = false ↔ cmmRxRalinkFrameIndicate env msdu = .freed := by
  unfold cmmRxRalinkFrameIndicate
  simp only
  split
  · split <;> simp [Outcome.indicates]
  · simp [Outcome.indicates]

theorem passedIndicates (env sta msdu) :
    (if (!msdu.aralink) = true then cmmRxnonRalinkFrameIndicate sta msdu
      else cmmRxRalinkFrameIndicate env msdu).indicates = false ↔
      msdu.aralink = true ∧ cmmRxRalinkFrameIndicate env msdu = .freed := by
  cases msdu.aralink with
  | false => simp [nonRalinkIndicates]
  | true => simp [ralinkIndicates]

theorem announceStopped {msdu} (encrypted : sta.wepStatus ≠ .wepDisabled) (clear : rx.header.wep = false)
    (whole : isFragment rx = false → msdu.header = rx.header)
    (data : rtmpCheckWpaFrame msdu.data msdu.dataSize.toNat = false) :
    (staRxDataFrameAnnounce env sta msdu).indicates = false ↔ Stopped env sta rx msdu := by
  have filter : (isFragment rx = true → msdu.header.wep = false) ↔ msdu.header.wep = false := by
    constructor
    · intro first
      cases fragment : isFragment rx with
      | true => exact first fragment
      | false => rw [whole fragment,clear]
    · exact fun clear _ => clear
  simp only [staRxDataFrameAnnounce,data,Stopped,filter]
  cases sta.mediaConnected with
  | false => simp [Outcome.indicates]
  | true =>
    cases msdu.header.wep with
    | true =>
      simp only [encrypted,and_false,if_false,Bool.not_false,Bool.not_true,if_true,Bool.false_eq_true,
        false_and,Bool.true_eq_false,false_or]
      exact passedIndicates env sta msdu
    | false =>
      by_cases closed : sta.portSecured = portNotSecured
      · simp [encrypted,closed,Outcome.indicates]
      · simp only [closed,and_false,if_false,Bool.not_false,Bool.not_true,if_true,Bool.false_eq_true,
          false_and,Bool.true_eq_false,false_or]
        exact passedIndicates env sta msdu

end Path

theorem clearTextFiltered (env : Env) (sta : RxSta) (rx : RxBlk) (encrypted : sta.wepStatus ≠ .wepDisabled)
    (clear : rx.header.wep = false) (data : isEapol env sta rx = false) :
    (staHandleRxDataFrame env sta rx).2.indicates = false ↔ Filtered env sta rx := by
  cases no : refused sta rx with
  | true => simp [handleRefused no,Filtered,no,Outcome.indicates]
  | false =>
    cases group : groupAddressed rx with
    | true =>
      rw [handleGroup no group]
      simp only [Filtered,no,group,if_true,Bool.false_eq_true,false_or]
      split
      · rename_i dropped
        simp [dropped,Outcome.indicates]
      · rename_i passed
        simp [passed,Outcome.indicates]
    | false =>
      cases u2m : rx.info.u2m with
      | false => simp [handleNeither group u2m,Filtered,group,u2m,Outcome.indicates]
      | true =>
        rw [handleUnicast no group u2m]
        simp only [Filtered,no,group,u2m,if_false,Bool.false_eq_true,false_or,true_implies]
        cases ok : announced env sta rx with
        | none => simp
        | some msdu =>
          have other : rtmpCheckWpaFrame msdu.data msdu.dataSize.toNat = false := by
            simpa [isEapol,group,ok] using data
          have stopped : (staRxDataFrameAnnounce env sta msdu).indicates = false ↔ Stopped env sta rx msdu :=
            announceStopped encrypted clear (fun whole => announcedHeader whole ok) other
          simpa using stopped

def sampleFrame (flags : UInt8) : Nat → UInt8 :=
  let bytes := [0x08,flags,0,0] ++ List.replicate 6 9 ++ sampleAddr ++ List.replicate 6 3 ++ [0,0] ++ snap8021H ++
    [0x08,0x00,0x45]
  fun i => bytes.getD i 0

def sampleRx (flags : UInt8) (bcast : Bool) : RxBlk where
  info := ⟨true,bcast,false,!bcast,false,false,false⟩
  rxwi := fun _ => 0
  frame := sampleFrame flags
  room := 0
  dataSize := 60
  wcid := 1
  legacyRate := false
  amsdu := false
  ampdu := false
  aralink := false

def sampleRxSta (portSecured : UInt8) : RxSta where
  infra := true
  mlmeBssid := sampleAddr
  bssid := sampleAddr
  currentAddress := List.replicate 6 9
  known := fun _ => true
  entryWepStatus := fun _ => .aesEnable
  aggregationInUsed := false
  mediaConnected := true
  wepStatus := .aesEnable
  portSecured := portSecured
  disableReordering := false
  wpaSupplicantUp := false
  rxwiSize := 28
  fragFrame := ⟨fun _ => 0,0,0,0⟩

def sampleEnv : Env := ⟨some fun _ => 0,true,fun _ => true⟩

theorem clearTextFilteredUnicast :
    (sampleRx 0x02 false).header.wep = false ∧
      (staHandleRxDataFrame sampleEnv (sampleRxSta portNotSecured) (sampleRx 0x02 false)).2.indicates = false := by
  refine ⟨by decide,(clearTextFiltered _ _ _ (by decide) (by decide) (by decide)).mpr (.inr fun _ msdu _ => ?_)⟩
  exact .inr (.inl ⟨rfl,fun fragment => absurd fragment (by decide)⟩)

theorem clearTextIndicated :
    ((sampleRx 0x02 true).header.wep = false ∧
      isEapol sampleEnv (sampleRxSta portNotSecured) (sampleRx 0x02 true) = false ∧
      (staHandleRxDataFrame sampleEnv (sampleRxSta portNotSecured) (sampleRx 0x02 true)).2 = .legacy) ∧
    ((sampleRx 0x02 false).header.wep = false ∧ isEapol sampleEnv (sampleRxSta 1) (sampleRx 0x02 false) = false ∧
      (staHandleRxDataFrame sampleEnv (sampleRxSta 1) (sampleRx 0x02 false)).2 = .legacy) := by
  decide

end RtmpDriver.RxFilter
