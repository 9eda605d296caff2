import RtmpDriver.CipherParse

/-! PeerBeaconAndProbeRspSanity in station mode, with DOT11_N_SUPPORT, DOT11_VHT_AC and RT_CFG80211_SUPPORT. The
received frame is a memory from 0 on and a pointer into it is an offset. Every read of the frame is noted, and
`memcmp` reads the number of bytes it is given. -/
namespace RtmpDriver.BeaconParse
open AccessLog ByteMemory
open CipherParse (wpaOui rsnOui)

abbrev Bytes := List UInt8

def maxVieLen : Nat := 1024
def maxLenOfSsid : Nat := 32
def maxLenOfSupportedRates : Nat := 12
def sizeHtCapIe : Nat := 26
def sizeAddHtInfoIe : Nat := 22
def ckipNegotiationLength : Nat := 30
def sizeExtCapInfo : Nat := 8
def sizeVhtCapIe : Nat := 12
def sizeVhtOpIe : Nat := 5
def wscIeMax : Nat := 512
def fixedPart : Nat := 36

def ciscoOui : Bytes := [0x00,0x40,0x96]
def ralinkOui : Bytes := [0x00,0x0c,0x43]
def wmeInfoElem : Bytes := [0x00,0x50,0xf2,0x02,0x00,0x01]
def wmeParmElem : Bytes := [0x00,0x50,0xf2,0x02,0x01,0x01]
def broadcomOui : Bytes := [0x00,0x90,0x4c]
def wpsOui : Bytes := [0x00,0x50,0xf2,0x04]

inductive Eid where
  | ssid | suppRates | fhParm | dsParm | cfParm | tim | ibssParm | country | qbssLoad | channelSwitchAnnouncement
  | erp | htCap | rsn | extSuppRates | addHt | secondaryChOffset | extCapability | aironetCkip | apTxPower
  | vhtCap | vhtOp | operatingModeNotify | vendorSpecific | other
  deriving DecidableEq, Repr

def eidOf (b : UInt8) : Eid :=
  match b.toNat with
  | 0 => .ssid
  | 1 => .suppRates
  | 2 => .fhParm
  | 3 => .dsParm
  | 4 => .cfParm
  | 5 => .tim
  | 6 => .ibssParm
  | 7 => .country
  | 11 => .qbssLoad
  | 37 => .channelSwitchAnnouncement
  | 42 => .erp
  | 45 => .htCap
  | 48 => .rsn
  | 50 => .extSuppRates
  | 61 => .addHt
  | 62 => .secondaryChOffset
  | 127 => .extCapability
  | 133 => .aironetCkip
  | 150 => .apTxPower
  | 191 => .vhtCap
  | 192 => .vhtOp
  | 199 => .operatingModeNotify
  | 221 => .vendorSpecific
  | _ => .other

structure CfParm where
  cfpCount : UInt8
  cfpPeriod : UInt8
  cfpMaxDuration : Nat
  cfpDurRemaining : Nat

structure EdcaParm where
  bValid : Bool
  bQAck : Bool
  bQueueRequest : Bool
  bTxopRequest : Bool
  bAPSDCapable : Bool
  edcaUpdateCount : UInt8
  aifsn : Nat → UInt8
  cwmin : Nat → UInt8
  cwmax : Nat → UInt8
  txop : Nat → Nat
  bACM : Nat → Bool
  deriving Inhabited

structure QbssLoadParm where
  staNum : Nat
  channelUtilization : UInt8
  remainingAdmissionControl : Nat

/- BCN_IE_LIST, as far as the function writes it. An array and its length are one list; CfParm and QbssLoad are
`none` until bValid is set. -/
structure BcnIeList where
  addr2 : Bytes
  bssid : Bytes
  timeStamp : Bytes
  beaconPeriod : Nat
  capabilityInfo : Nat
  bssInfra : Bool
  ssid : Bytes
  supRate : Bytes
  extRate : Bytes
  htCapability : Bytes
  htCapabilityLen : Nat
  preNHtCapabilityLen : Nat
  addHtInfo : Bytes
  addHtInfoLen : Nat
  newExtChannelOffset : UInt8
  channel : UInt8
  newChannel : UInt8
  cfParm : Option CfParm
  atimWin : Nat
  bcastFlag : Bool
  dtimCount : UInt8
  dtimPeriod : UInt8
  messageToMe : Bool
  ralinkIe : Nat
  edcaParm : EdcaParm
  erp : UInt8
  ckipFlag : UInt8
  aironetCellPowerLimit : UInt8
  qbssLoad : Option QbssLoadParm
  extCapInfo : Bytes
  vhtCapIe : Bytes
  vhtOpIe : Bytes
  operatingMode : UInt8
  deriving Inhabited

/- What is read of the adapter, with the result of the allocation of pPeerWscIe. -/
structure Adapter where
  channelList : List UInt8
  infraOn : Bool
  bssid : Bytes
  aid : BitVec 16
  wmmCwMin : UInt8
  wmmCwMax : UInt8
  latchRfChannel : Nat
  wideBand : Bool
  mlmeAuxChannel : UInt8
  commonChannel : UInt8
  wscAllocated : Bool

inductive Access where
  | read (span : Span)
  | wscCopy (length : Int)
  deriving DecidableEq, Repr

/- The three bits of Sanity are `ssid`, `rates` and `ds`. `vie` has the first *LengthVIE bytes of pVIE, `wscIe` what
was moved into pPeerWscIe; `forced` is what is written to the operating mode of the AP's table entry. -/
structure Parse where
  ie : BcnIeList
  ssid : Bool
  rates : Bool
  ds : Bool
  ctrlChannel : UInt8
  vie : Bytes
  wscIe : Bytes
  wscIeLen : Int
  wscCheck : Bool
  forced : Option UInt8

/- How a turn of the loop ends: with `break`, with `goto SanityCheck`, or with `return FALSE`. -/
inductive Exit where
  | goOn | sanityCheck | refuse
  deriving DecidableEq, Repr

abbrev Turn := Logged Access (Parse × Exit)

def eidLen (m : Nat → UInt8) (pEid : Nat) : Nat := (m (pEid + 1)).toNat

def octet (m : Nat → UInt8) (pEid i : Nat) : UInt8 := m (pEid + 2 + i)

def moved (m : Nat → UInt8) (p n : Nat) : Logged Access Bytes := do
  note (.read ⟨p,n⟩)
  pure (load m p n)

def goOn (s : Parse) : Turn := pure (s,.goOn)

def Parse.withIe (s : Parse) (ie : BcnIeList) : Parse := { s with ie := ie }

def copyToVie (m : Nat → UInt8) (pEid : Nat) (s : Parse) : Turn := do
  let bytes ← moved m pEid (eidLen m pEid + 2)
  goOn { s with vie := s.vie ++ bytes }

def ssidCase (m : Nat → UInt8) (pEid : Nat) (s : Parse) : Turn :=
  if s.ssid then goOn s
  else if eidLen m pEid ≤ maxLenOfSsid then do
    let ssid ← moved m (pEid + 2) (eidLen m pEid)
    goOn { s with ie := { s.ie with ssid := ssid },ssid := true }
  else pure (s,.sanityCheck)

def suppRatesCase (m : Nat → UInt8) (pEid : Nat) (s : Parse) : Turn :=
  if eidLen m pEid ≤ maxLenOfSupportedRates then do
    let rates ← moved m (pEid + 2) (eidLen m pEid)
    goOn { s with ie := { s.ie with supRate := rates },rates := true }
  else pure (s,.sanityCheck)

def htCapCase (m : Nat → UInt8) (pEid : Nat) (s : Parse) : Turn :=
  if sizeHtCapIe ≤ eidLen m pEid then do
    let cap ← moved m (pEid + 2) sizeHtCapIe
    copyToVie m pEid (s.withIe { s.ie with
      htCapability := cap
      htCapabilityLen := sizeHtCapIe
      preNHtCapabilityLen := 0 })
  else goOn s

def addHtCase (m : Nat → UInt8) (pEid : Nat) (s : Parse) : Turn :=
  if sizeAddHtInfoIe ≤ eidLen m pEid then do
    let info ← moved m (pEid + 2) sizeAddHtInfoIe
    copyToVie m pEid { s with
      ie := { s.ie with addHtInfo := info,addHtInfoLen := sizeAddHtInfoIe }
      ctrlChannel := octet m pEid 0 }
  else goOn s

def dsParmCase (ad : Adapter) (m : Nat → UInt8) (pEid : Nat) (s : Parse) : Turn :=
  if eidLen m pEid = 1 then do
    note (.read ⟨pEid + 2,1⟩)
    let s := s.withIe { s.ie with channel := octet m pEid 0 }
    if octet m pEid 0 ∈ ad.channelList then goOn { s with ds := true } else pure (s,.sanityCheck)
  else pure (s,.sanityCheck)

def cfParmCase (m : Nat → UInt8) (pEid : Nat) (s : Parse) : Turn :=
  if eidLen m pEid = 6 then do
    note (.read ⟨pEid + 2,6⟩)
    goOn (s.withIe { s.ie with cfParm := some ⟨octet m pEid 0,octet m pEid 1,
      (octet m pEid 2).toNat + 256 * (octet m pEid 3).toNat,(octet m pEid 4).toNat + 256 * (octet m pEid 5).toNat⟩ })
  else pure (s,.refuse)

def ibssParmCase (m : Nat → UInt8) (pEid : Nat) (s : Parse) : Turn :=
  if eidLen m pEid = 2 then do
    note (.read ⟨pEid + 2,2⟩)
    goOn (s.withIe { s.ie with atimWin := (octet m pEid 0).toNat + 256 * (octet m pEid 1).toNat })
  else pure (s,.refuse)

structure TimBit where
  inMap : Bool
  myByte : Nat
  myBit : Nat

def timBit (m : Nat → UInt8) (ptr : Nat) (aid : BitVec 16) : TimBit :=
  let n1 := m (ptr + 4) &&& 0xfe
  let n2 := m (ptr + 1) - 4 + n1
  let myByte := (aid.toNat / 8 + 256 - n1.toNat) % 256
  ⟨!(decide (aid.toNat < n1.toNat * 8) || decide ((n2.toNat + 1) * 8 ≤ aid.toNat)),myByte,
    aid.toNat % 16 - (if myByte % 2 = 1 then 8 else 0)⟩

def getTimBit (m : Nat → UInt8) (ptr : Nat) (aid : BitVec 16) (ie : BcnIeList) : Logged Access BcnIeList := do
  note (.read ⟨ptr + 1,4⟩)
  let ie := { ie with
    dtimCount := m (ptr + 2)
    dtimPeriod := m (ptr + 3)
    bcastFlag := decide (m (ptr + 2) = 0 ∧ m (ptr + 4) &&& 1 ≠ 0) }
  let bit := timBit m ptr aid
  if bit.inMap then do
    note (.read ⟨ptr + 5 + bit.myByte,1⟩)
    pure { ie with messageToMe := (m (ptr + 5 + bit.myByte)).toNat.testBit bit.myBit }
  else pure { ie with messageToMe := false }

def timLooked (ad : Adapter) (m : Nat → UInt8) : Prop :=
  (m 0).toNat / 16 = 8 ∧ ad.infraOn = true ∧ load m 16 6 = ad.bssid

instance (ad : Adapter) (m : Nat → UInt8) : Decidable (timLooked ad m) :=
  inferInstanceAs (Decidable (_ ∧ _ ∧ _))

def timCase (ad : Adapter) (m : Nat → UInt8) (pEid : Nat) (s : Parse) : Turn :=
  if timLooked ad m then do
    let ie ← getTimBit m pEid ad.aid s.ie
    goOn (s.withIe ie)
  else goOn s

def valueCase (m : Nat → UInt8) (pEid len index : Nat) (set : BcnIeList → UInt8 → BcnIeList) (s : Parse) : Turn :=
  if eidLen m pEid = len then do
    note (.read ⟨pEid + 2 + index,1⟩)
    goOn (s.withIe (set s.ie (octet m pEid index)))
  else goOn s

def edcaOne (m : Nat → UInt8) (edca : EdcaParm) (ptr : Nat) : EdcaParm :=
  let aci := (m ptr).toNat / 32 % 4
  { edca with
    bACM := Function.update edca.bACM aci (decide (m ptr &&& 0x10 = 0x10))
    aifsn := Function.update edca.aifsn aci (m ptr &&& 0x0f)
    cwmin := Function.update edca.cwmin aci (m (ptr + 1) &&& 0x0f)
    cwmax := Function.update edca.cwmax aci (m (ptr + 1) >>> 4)
    txop := Function.update edca.txop aci ((m (ptr + 2)).toNat + 256 * (m (ptr + 3)).toNat) }

def edcaHead (m : Nat → UInt8) (pEid : Nat) (edca : EdcaParm) : EdcaParm :=
  { edca with
    bValid := true
    bQAck := false
    bQueueRequest := false
    bTxopRequest := false
    edcaUpdateCount := octet m pEid 6 &&& 0x0f
    bAPSDCapable := decide (octet m pEid 6 &&& 0x80 ≠ 0) }

def edcaParsed (m : Nat → UInt8) (pEid : Nat) (edca : EdcaParm) : EdcaParm :=
  [8,12,16,20].foldl (fun edca i => edcaOne m edca (pEid + 2 + i)) (edcaHead m pEid edca)

def edcaDefault (ad : Adapter) (m : Nat → UInt8) (pEid : Nat) (edca : EdcaParm) : EdcaParm :=
  { edcaHead m pEid edca with
    bACM := fun _ => false
    aifsn := fun ac => if ac = 0 then 3 else if ac = 1 then 7 else 2
    cwmin := fun ac => if ac = 2 then ad.wmmCwMin - 1 else if ac = 3 then ad.wmmCwMin - 2 else ad.wmmCwMin
    cwmax := fun ac => if ac = 3 then ad.wmmCwMax - 1 else ad.wmmCwMax
    txop := fun ac => if ac = 2 then 96 else if ac = 3 then 48 else 0 }

/- The fragments of a WPS element are put together in pPeerWscIe; one that begins with version 0x10 is the first. -/
def wpsCase (ad : Adapter) (m : Nat → UInt8) (pEid : Nat) (s : Parse) : Turn :=
  if ad.wscAllocated then do
    let length : Int := (eidLen m pEid : Int) - 4
    note (.read ⟨pEid + 6,1⟩)
    if octet m pEid 4 = 0x10 then do
      note (.wscCopy length)
      let bytes ← moved m (pEid + 6) length.toNat
      goOn { s with wscIe := bytes,wscIeLen := length }
    else if s.wscIeLen + length ≤ wscIeMax then do
      note (.wscCopy length)
      let bytes ← moved m (pEid + 6) length.toNat
      goOn { s with wscIe := s.wscIe ++ bytes,wscIeLen := s.wscIeLen + length }
    else goOn { s with wscCheck := false }
  else goOn { s with wscCheck := false }

def ralinkCase (m : Nat → UInt8) (pEid : Nat) (s : Parse) : Turn := do
  note (.read ⟨pEid + 5,1⟩)
  goOn (s.withIe { s.ie with
    ralinkIe := if octet m pEid 3 ≠ 0 then (octet m pEid 3).toNat else 0xf0000000 })

def broadcomCase (m : Nat → UInt8) (pEid : Nat) (s : Parse) : Turn := do
  note (.read ⟨pEid + 5,1⟩)
  if octet m pEid 3 = 51 ∧ 30 ≤ eidLen m pEid then do
    let cap ← moved m (pEid + 6) sizeHtCapIe
    goOn (s.withIe { s.ie with htCapability := cap,preNHtCapabilityLen := sizeHtCapIe })
  else if octet m pEid 3 = 52 ∧ 26 ≤ eidLen m pEid then do
    let info ← moved m (pEid + 6) sizeAddHtInfoIe
    goOn (s.withIe { s.ie with addHtInfo := info,addHtInfoLen := sizeAddHtInfoIe })
  else goOn s

def vendorCase (ad : Adapter) (m : Nat → UInt8) (pEid : Nat) (s : Parse) : Turn := do
  note (.read ⟨pEid + 2,3⟩)
  if load m (pEid + 2) 3 = ralinkOui ∧ eidLen m pEid = 7 then ralinkCase m pEid s
  else if s.ie.htCapabilityLen = 0 ∧ load m (pEid + 2) 3 = broadcomOui ∧ 4 ≤ eidLen m pEid then broadcomCase m pEid s
  else do
    note (.read ⟨pEid + 2,4⟩)
    if load m (pEid + 2) 4 = wpaOui then copyToVie m pEid s
    else do
      note (.read ⟨pEid + 2,6⟩)
      if load m (pEid + 2) 6 = wmeParmElem ∧ eidLen m pEid = 24 then do
        note (.read ⟨pEid + 8,18⟩)
        goOn (s.withIe { s.ie with edcaParm := edcaParsed m pEid s.ie.edcaParm })
      else if load m (pEid + 2) 6 = wmeInfoElem ∧ eidLen m pEid = 7 then do
        note (.read ⟨pEid + 8,1⟩)
        goOn (s.withIe { s.ie with edcaParm := edcaDefault ad m pEid s.ie.edcaParm })
      else if load m (pEid + 2) 4 = wpsOui then wpsCase ad m pEid s
      else goOn s

def extSuppRatesCase (m : Nat → UInt8) (pEid : Nat) (s : Parse) : Turn :=
  if eidLen m pEid ≤ maxLenOfSupportedRates then do
    let rates ← moved m (pEid + 2) (eidLen m pEid)
    goOn (s.withIe { s.ie with extRate := rates })
  else goOn s

def aironetCkipCase (m : Nat → UInt8) (pEid : Nat) (s : Parse) : Turn :=
  if eidLen m pEid < ckipNegotiationLength - 2 then goOn s
  else do
    note (.read ⟨pEid + 10,1⟩)
    goOn (s.withIe { s.ie with ckipFlag := octet m pEid 8 })

def apTxPowerCase (m : Nat → UInt8) (pEid : Nat) (s : Parse) : Turn :=
  if eidLen m pEid ≠ 6 then goOn s
  else do
    note (.read ⟨pEid + 2,3⟩)
    if load m (pEid + 2) 3 = ciscoOui then do
      note (.read ⟨pEid + 6,1⟩)
      goOn (s.withIe { s.ie with aironetCellPowerLimit := octet m pEid 4 })
    else goOn s

def rsnCase (m : Nat → UInt8) (pEid : Nat) (s : Parse) : Turn := do
  note (.read ⟨pEid + 4,3⟩)
  if load m (pEid + 4) 3 = rsnOui then copyToVie m pEid s else goOn s

def qbssLoadCase (m : Nat → UInt8) (pEid : Nat) (s : Parse) : Turn :=
  if eidLen m pEid = 5 then do
    note (.read ⟨pEid + 2,5⟩)
    copyToVie m pEid (s.withIe { s.ie with qbssLoad := some ⟨(octet m pEid 0).toNat + 256 * (octet m pEid 1).toNat,
      octet m pEid 2,(octet m pEid 3).toNat + 256 * (octet m pEid 4).toNat⟩ })
  else goOn s

def extCapabilityCase (m : Nat → UInt8) (pEid : Nat) (s : Parse) : Turn :=
  if 1 ≤ eidLen m pEid then do
    let info ← moved m (pEid + 2) (min (eidLen m pEid) sizeExtCapInfo)
    goOn (s.withIe { s.ie with extCapInfo := info ++ s.ie.extCapInfo.drop info.length })
  else goOn s

def sizedCase (m : Nat → UInt8) (pEid size : Nat) (set : BcnIeList → Bytes → BcnIeList) (s : Parse) : Turn :=
  if eidLen m pEid = size then do
    let bytes ← moved m (pEid + 2) size
    goOn (s.withIe (set s.ie bytes))
  else goOn s

def operatingModeCase (ad : Adapter) (m : Nat → UInt8) (pEid : Nat) (s : Parse) : Turn :=
  if eidLen m pEid = 1 ∧ ad.infraOn = true then do
    note (.read ⟨pEid + 2,1⟩)
    goOn { s with
      ie := { s.ie with operatingMode := octet m pEid 0 }
      forced := if octet m pEid 0 &&& 0x80 = 0 then some (octet m pEid 0) else s.forced }
  else goOn s

def elementCase (ad : Adapter) (m : Nat → UInt8) (pEid : Nat) (s : Parse) : Turn :=
  match eidOf (m pEid) with
  | .ssid => ssidCase m pEid s
  | .suppRates => suppRatesCase m pEid s
  | .htCap => htCapCase m pEid s
  | .addHt => addHtCase m pEid s
  | .secondaryChOffset => valueCase m pEid 1 0 (fun ie b => { ie with newExtChannelOffset := b }) s
  | .fhParm => goOn s
  | .dsParm => dsParmCase ad m pEid s
  | .cfParm => cfParmCase m pEid s
  | .ibssParm => ibssParmCase m pEid s
  | .tim => timCase ad m pEid s
  | .channelSwitchAnnouncement => valueCase m pEid 3 1 (fun ie b => { ie with newChannel := b }) s
  | .vendorSpecific => vendorCase ad m pEid s
  | .extSuppRates => extSuppRatesCase m pEid s
  | .erp => valueCase m pEid 1 0 (fun ie b => { ie with erp := b }) s
  | .aironetCkip => aironetCkipCase m pEid s
  | .apTxPower => apTxPowerCase m pEid s
  | .rsn => rsnCase m pEid s
  | .country => copyToVie m pEid s
  | .qbssLoad => qbssLoadCase m pEid s
  | .extCapability => extCapabilityCase m pEid s
  | .vhtCap => sizedCase m pEid sizeVhtCapIe (fun ie b => { ie with vhtCapIe := b }) s
  | .vhtOp => sizedCase m pEid sizeVhtOpIe (fun ie b => { ie with vhtOpIe := b }) s
  | .operatingModeNotify => operatingModeCase ad m pEid s
  | .other => goOn s

/- The loop over the elements. The length byte is read before it is known whether it is in the message. `none` if
`fuel` turns are not enough. -/
def elementLoop (ad : Adapter) (m : Nat → UInt8) (msgLen : Nat) : Nat → Nat → Parse →
    Logged Access (Option (Parse × Exit))
  | 0,_,_ => pure none
  | fuel + 1,pEid,s => do
    note (.read ⟨pEid + 1,1⟩)
    if pEid + 2 + eidLen m pEid ≤ msgLen then
      if maxVieLen ≤ s.vie.length + eidLen m pEid + 2 then pure (some (s,.goOn))
      else do
        note (.read ⟨pEid,1⟩)
        let (s,exit) ← elementCase ad m pEid s
        match exit with
        | .goOn => elementLoop ad m msgLen fuel (pEid + 2 + eidLen m pEid) s
        | exit => pure (some (s,exit))
    else pure (some (s,.goOn))

def channelDecided (ad : Adapter) (msgChannel : UInt8) (s : Parse) : Parse :=
  if 14 < ad.latchRfChannel ∧ s.ds = false then
    let channel := if s.ctrlChannel ≠ 0 then s.ctrlChannel
      else if ad.wideBand then (if ad.mlmeAuxChannel ≠ 0 then ad.mlmeAuxChannel else ad.commonChannel)
      else msgChannel
    { s with ie := { s.ie with channel := channel },ds := true }
  else s

def wscElement (wscIe : Bytes) : Bytes := [0xdd,UInt8.ofNat (wscIe.length + 4),0x00,0x50,0xf2,0x04] ++ wscIe

def wscAppended (ad : Adapter) (s : Parse) : Parse :=
  if ad.wscAllocated = true ∧ 0 < s.wscIeLen ∧ s.wscIeLen ≤ wscIeMax ∧ s.wscCheck = true then
    let wscIe := (List.range s.wscIeLen.toNat).map fun i => s.wscIe.getD i 0
    { s with vie := s.vie ++ wscElement wscIe }
  else s

structure Outcome where
  parse : Parse
  accepted : Bool

def sanityCheck (s : Parse) : Outcome := ⟨s,s.ssid && s.rates && s.ds && s.wscCheck⟩

def initParse (m : Nat → UInt8) (ie : BcnIeList) : Parse where
  ie := { ie with
    aironetCellPowerLimit := 0xff
    newExtChannelOffset := 0xff
    addr2 := load m 10 6
    bssid := load m 16 6
    timeStamp := load m 24 8
    beaconPeriod := (m 32).toNat + 256 * (m 33).toNat
    capabilityInfo := (m 34).toNat + 256 * (m 35).toNat
    bssInfra := decide ((m 34).toNat % 2 = 1) }
  ssid := false
  rates := false
  ds := false
  ctrlChannel := 0
  vie := []
  wscIe := []
  wscIeLen := 0
  wscCheck := true
  forced := none

def peerBeaconAndProbeRspSanity (ad : Adapter) (m : Nat → UInt8) (msgLen : Nat) (msgChannel : UInt8)
    (ie : BcnIeList) : Logged Access (Option Outcome) := do
  note (.read ⟨0,2⟩)
  note (.read ⟨10,6⟩)
  note (.read ⟨16,6⟩)
  note (.read ⟨24,8⟩)
  note (.read ⟨32,2⟩)
  note (.read ⟨34,2⟩)
  let result ← elementLoop ad m msgLen (msgLen + 1) fixedPart (initParse m ie)
  pure (result.map fun (s,exit) =>
    match exit with
    | .goOn => sanityCheck (wscAppended ad (channelDecided ad msgChannel s))
    | .sanityCheck => sanityCheck s
    | .refuse => ⟨s,false⟩)

end RtmpDriver.BeaconParse
