import RtmpDriver.WpaSupplicant
import RtmpDriver.KeyWrap

/-! The authenticator's side of the EAPOL-Key messages: WpaDerivePTK, ConstructEapolMsg with ConstructEapolKeyData and
CalculateMIC. In `driverCrypto` only the keyed digests stay parameters. -/
namespace RtmpDriver.EapolBuild
open EapolFrame WpaSupplicant KeyWrap List
open RsnSuites (AuthMode WepStatus)

structure Digests where
  hmacMd5 : Bytes → Bytes → {d : Bytes // d.length = 16}
  hmacSha1 : Bytes → Bytes → {d : Bytes // d.length = 20}
  aesCmac : Bytes → Bytes → {d : Bytes // d.length = 16}

def lenPtk : Nat := 64

def prf (digests : Digests) (key label data : Bytes) (len : Nat) : Bytes :=
  (range ((len + 19) / 20)).flatMap fun i => (digests.hmacSha1 key (label ++ [0] ++ data ++ [UInt8.ofNat i])).1

def pairwiseLabel : Bytes :=
  [0x50,0x61,0x69,0x72,0x77,0x69,0x73,0x65,0x20,0x6b,0x65,0x79,0x20,0x65,0x78,0x70,0x61,0x6e,0x73,0x69,0x6f,0x6e]

def largerAddr (aa sa : Bytes) : Bytes := if rtmpCompareMemory sa aa = 1 then sa else aa

/- Equal nonces are replaced by the larger address, a patch for a proprietary STA key. -/
def concatenation (aNonce aa sNonce sa : Bytes) : Bytes :=
  let addrs := if rtmpCompareMemory sa aa = 1 then aa ++ sa else sa ++ aa
  let temp := largerAddr aa sa ++ replicate 26 0
  let nonces :=
    if rtmpCompareMemory aNonce sNonce = 0 then temp ++ temp
    else if rtmpCompareMemory aNonce sNonce = 1 then sNonce ++ aNonce
    else aNonce ++ sNonce
  addrs ++ nonces

def wpaDerivePtk (digests : Digests) (pmk aNonce aa sNonce sa : Bytes) : Bytes :=
  (prf digests pmk pairwiseLabel (concatenation aNonce aa sNonce sa) lenPtk).take lenPtk

def driverCrypto (digests : Digests) : Crypto where
  hmacMd5 := fun key data => (digests.hmacMd5 key data).1
  hmacSha1 := fun key data => (digests.hmacSha1 key data).1
  aesCmac := fun key data => (digests.aesCmac key data).1
  aesKeyUnwrap := aesKeyUnwrap
  tkipGtkKeyUnwrap := fun kek iv data => tkipGtkKeyUnwrap true kek iv data []
  wpaDerivePtk := wpaDerivePtk digests

def sampleMac (n : Nat) (key data : Bytes) : {d : Bytes // d.length = n} :=
  ⟨(range n).map fun i => key.getD i 0 + (data.take 99).sum + 1,by simp⟩

def sampleDigests : Digests := ⟨sampleMac 16,sampleMac 20,sampleMac 16⟩

def sampleCrypto : Crypto := driverCrypto sampleDigests

def signedFrame (ptk : Bytes) (low high counter nonce : UInt8) : Elem :=
  keyFrame low high counter nonce
    (expectedMic sampleCrypto ptk (eapolKey (keyFrame low high counter nonce (replicate lenKeyDescMic 0))))

def lenTkipGtk : Nat := 32
def lenAesGtk : Nat := 16

structure EapolPacket where
  descType : UInt8
  info : KeyInfo
  ekdDl : Bool
  install : Bool
  keyLength : UInt8
  replayCounter : Bytes
  keyNonce : Bytes
  keyIv : Bytes
  keyRsc : Bytes
  keyMic : Bytes
  keyData : Bytes

def bit (b : Bool) (i : Nat) : Nat := if b then 2 ^ i else 0

def infoLow (p : EapolPacket) : UInt8 :=
  UInt8.ofNat (bit p.info.keyMic 0 + bit p.info.secure 1 + bit p.info.error 2 + bit p.info.request 3 + bit p.ekdDl 4)

def infoHigh (p : EapolPacket) : UInt8 :=
  UInt8.ofNat (p.info.keyDescVer + bit p.info.pairwise 3 + 16 * p.info.keyIndex + bit p.install 6 + bit p.info.keyAck 7)

def be16Bytes (n : Nat) : Bytes := [UInt8.ofNat (n / 256),UInt8.ofNat n]

def packetHead (p : EapolPacket) : Bytes :=
  [1,3] ++ be16Bytes (minLenOfEapolKeyMsg + p.keyData.length) ++ [p.descType,infoLow p,infoHigh p,0,p.keyLength]

def beforeMic (p : EapolPacket) : Bytes :=
  packetHead p ++ p.replayCounter ++ p.keyNonce ++ p.keyIv ++ p.keyRsc ++ replicate 8 0

def afterMic (p : EapolPacket) : Bytes := be16Bytes p.keyData.length ++ p.keyData

def packetBytes (p : EapolPacket) : Bytes := beforeMic p ++ p.keyMic ++ afterMic p

def ouiWpa2 : Bytes := [0x00,0x0f,0xac]

/- RTMPInsertRSNIE without a PMKID list. The OUI is looked for in memory, past the end of a short
RSN IE too. -/
def insertRsnIe (rsnie : Nat → UInt8) (rsnieLen : Nat) : Bytes :=
  if rsnieLen = 0 then []
  else [if bytesAt rsnie 2 3 = ouiWpa2 then 48 else 221,UInt8.ofNat rsnieLen] ++ bytesAt rsnie 0 rsnieLen

def kdeHdr (dataType : UInt8) (dataLen : Nat) : Bytes := [0xdd,UInt8.ofNat (4 + dataLen)] ++ ouiWpa2 ++ [dataType]

def gtkLenOf (groupCipher : WepStatus) : Nat := if groupCipher = .aesEnable then lenAesGtk else lenTkipGtk

def keyDescVerOf (build : Build) (entry : MacEntry) (groupCipher : WepStatus) : Nat :=
  if build.pmf ∧ entry.useSha256 then keyDescExt
  else if entry.wepStatus = .aesEnable ∨ groupCipher = .aesEnable then keyDescAes
  else keyDescTkip

/- The arguments of ConstructEapolMsg; `igtk` is what PMF_InsertIGTKKDE writes. -/
structure MsgArgs where
  groupCipher : WepStatus
  type : MsgType
  defaultKeyIdx : Nat
  keyNonce : Bytes
  txRsc : Bytes
  gtk : Bytes
  rsnie : Nat → UInt8
  rsnieLen : Nat
  igtk : Bytes

def gtkIncluded (entry : MacEntry) (type : MsgType) : Bool :=
  decide (type = .pair3 ∧ entry.authMode.isWpa2 = true ∨ type = .group1)

def gtkKde (entry : MacEntry) (args : MsgArgs) : Bytes :=
  let gtkLen := gtkLenOf args.groupCipher
  (if entry.authMode.isWpa2 then kdeHdr 1 (2 + gtkLen) ++ [UInt8.ofNat (args.defaultKeyIdx % 4),0] else []) ++
    args.gtk.take gtkLen

def keyDataOf (build : Build) (entry : MacEntry) (args : MsgArgs) : Bytes :=
  (if args.type = .pair2 ∨ args.type = .pair3 then insertRsnIe args.rsnie args.rsnieLen else []) ++
    (if gtkIncluded entry args.type then
      gtkKde entry args ++ (if build.pmf ∧ entry.authMode.isWpa2 ∧ entry.pmfCapable then args.igtk else [])
    else [])

def padKeyData (data : Bytes) : Bytes :=
  if data.length % 8 = 0 then data else data ++ 0xdd :: replicate (7 - data.length % 8) 0

def aesWrapped (ver : Nat) : Bool := decide (ver = keyDescExt ∨ ver = keyDescAes)

def constructEapolKeyData (build : Build) (entry : MacEntry) (args : MsgArgs) (ver : Nat) (keyIv : Bytes) : Bytes :=
  let data := keyDataOf build entry args
  let kek := slice entry.ptk lenPtkKck lenPtkKek
  if args.type = .pair1 ∨ args.type = .pair4 ∨ args.type = .group2 then []
  else if gtkIncluded entry args.type then
    if aesWrapped ver then aesKeyWrap kek (padKeyData data) else tkipGtkKeyWrap true kek keyIv data []
  else data

def calculateMic (crypto : Crypto) (ver : Nat) (ptk frame : Bytes) : Bytes :=
  if ver = keyDescAes then (crypto.hmacSha1 (ptk.take lenPtkKck) frame).take lenKeyDescMic
  else if ver = keyDescTkip then crypto.hmacMd5 (ptk.take lenPtkKck) frame
  else if ver = keyDescExt then crypto.aesCmac (ptk.take lenPtkKck) frame
  else replicate lenKeyDescMic 0

def MsgType.fromGroup1 : MsgType → Bool
  | .group1 | .group2 => true
  | _ => false

def MsgType.fromPair3 : MsgType → Bool
  | .pair1 | .pair2 => false
  | _ => true

def keyInfoFor (entry : MacEntry) (args : MsgArgs) (ver : Nat) : KeyInfo :=
  let wpa2 := entry.authMode.isWpa2
  let group := MsgType.fromGroup1 args.type
  {keyMic := decide (args.type ≠ .pair1)
   secure := if wpa2 then MsgType.fromPair3 args.type else group
   error := false
   request := false
   keyDescVer := ver
   pairwise := !group
   keyIndex := if !wpa2 ∧ group then args.defaultKeyIdx % 4 else 0
   keyAck := decide (args.type = .pair1 ∨ args.type = .pair3 ∨ args.type = .group1)}

def keyLengthFor (entry : MacEntry) (args : MsgArgs) : UInt8 :=
  if entry.authMode.isWpa2 then
    if args.type = .pair1 ∨ args.type = .pair3 then (if entry.wepStatus = .tkipEnable then 32 else 16) else 0
  else if MsgType.fromGroup1 args.type then (if args.groupCipher = .tkipEnable then 32 else 16)
  else if entry.wepStatus = .tkipEnable then 32
  else 16

def keyIvFor (entry : MacEntry) (args : MsgArgs) : Bytes :=
  if !entry.authMode.isWpa2 ∧ args.type = .group1 then
    slice args.keyNonce 16 15 ++ [args.keyNonce.getD 31 0 + 2]
  else replicate 16 0

def keyNonceFor (entry : MacEntry) (args : MsgArgs) : Bytes :=
  if args.type = .pair1 ∨ args.type = .pair2 ∨ args.type = .pair3 ∨
      (!entry.authMode.isWpa2 ∧ args.type = .group1) then args.keyNonce
  else replicate lenKeyDescNonce 0

def constructEapolMsg (build : Build) (crypto : Crypto) (entry : MacEntry) (args : MsgArgs) : EapolPacket :=
  let wpa2 := entry.authMode.isWpa2
  let ver := keyDescVerOf build entry args.groupCipher
  let iv := keyIvFor entry args
  let p : EapolPacket :=
    {descType := if wpa2 then 0x02 else 0xfe
     info := keyInfoFor entry args ver
     ekdDl := wpa2 && decide (args.type = .pair3 ∨ args.type = .group1)
     install := decide (args.type = .pair3)
     keyLength := keyLengthFor entry args
     replayCounter := entry.rCounter.1
     keyNonce := keyNonceFor entry args
     keyIv := iv
     keyRsc := if gtkIncluded entry args.type then args.txRsc.take 6 ++ [0,0] else replicate 8 0
     keyMic := replicate lenKeyDescMic 0
     keyData := constructEapolKeyData build entry args ver iv}
  if args.type = .pair1 then p
  else {p with keyMic := calculateMic crypto ver entry.ptk (packetBytes p)}

end RtmpDriver.EapolBuild
