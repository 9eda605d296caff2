import Mathlib
import RtmpDriver.EapolFrame
import RtmpDriver.RsnSuites

/-! The EAPOL-Key state machine of `cmm_wpa.c` in station mode: the dispatcher, the handlers, PeerWpaMessageSanity with
the key data parser, and the key installers. The cryptographic primitives are parameters. -/
namespace RtmpDriver.WpaSupplicant
open EapolFrame List
open RsnSuites (AuthMode WepStatus)

inductive ApWpaState where
  | notUse | disconnect | disconnected | asInitialize | authentication | authentication2 | initPmk | initPsk
  | ptkStart | ptkInitNegotiating | ptkInitDone | updateKeys | integrityFailure | keyUpdate
  deriving DecidableEq, Repr

def ApWpaState.level : ApWpaState → Nat
  | .notUse => 0 | .disconnect => 1 | .disconnected => 2 | .asInitialize => 3 | .authentication => 4
  | .authentication2 => 5 | .initPmk => 6 | .initPsk => 7 | .ptkStart => 8 | .ptkInitNegotiating => 9
  | .ptkInitDone => 10 | .updateKeys => 11 | .integrityFailure => 12 | .keyUpdate => 13

inductive EntryType where | none | client | wds | apcli | mesh | dls | tdls | mcast | wdev
  deriving DecidableEq, Repr

inductive CipherAlg where | none | wep64 | wep128 | tkip | aes
  deriving DecidableEq, Repr

structure CipherKey where
  cipherAlg : CipherAlg
  keyLen : Nat
  key : Bytes
  txMic : Bytes
  rxMic : Bytes
  txTsc : Bytes
  rxTsc : Bytes
  deriving DecidableEq, Repr

def CipherKey.zero : CipherKey :=
  ⟨.none,0,replicate 16 0,replicate 8 0,replicate 8 0,replicate 16 0,replicate 16 0⟩

inductive MsgType where | pair1 | pair2 | pair3 | pair4 | group1 | group2
  deriving DecidableEq, Repr

inductive WpaEvent where
  | derived (ptk aNonce : Bytes)
  | accepted (type : MsgType) (ptk : Bytes) (key : EapolKey)
  | installed (ptk : Bytes)
  | secured
  | sent (type : MsgType)
  deriving DecidableEq

structure MacEntry where
  addr : Bytes
  entryType : EntryType
  authMode : AuthMode
  wepStatus : WepStatus
  associated : Bool
  wpaState : ApWpaState
  ptk : Bytes
  rCounter : Counter
  aNonce : Bytes
  sNonce : Bytes
  pairwiseKey : CipherKey
  useSha256 : Bool
  pmfCapable : Bool

/- `portSecured` is wdev.PortSecured; `halted` is set when the driver follows a NULL pointer. -/
structure Sta where
  entry : MacEntry
  portSecured : Bool
  pmk : Bytes
  currentAddress : Bytes
  groupCipher : WepStatus
  gtk : Bytes
  defaultKeyId : Nat
  sharedKey : Nat → CipherKey
  halted : Bool
  log : List WpaEvent

def Sta.emit (sta : Sta) (e : WpaEvent) : Sta := {sta with log := sta.log ++ [e]}

structure Crypto where
  hmacMd5 : Bytes → Bytes → Bytes
  hmacSha1 : Bytes → Bytes → Bytes
  aesCmac : Bytes → Bytes → Bytes
  aesKeyUnwrap : Bytes → Bytes → Bytes
  tkipGtkKeyUnwrap : Bytes → Bytes → Bytes → Bytes
  wpaDerivePtk : Bytes → Bytes → Bytes → Bytes → Bytes → Bytes

/- DOT11W_PMF_SUPPORT, with the verdict of PMF_ExtractIGTKKDE on an IGTK KDE. -/
structure Build where
  pmf : Bool
  extractIgtkKde : Bytes → Bool

structure Memory where
  keyData : Bool
  unwrap : Bool
  mpool : Bool
  deriving DecidableEq, Repr

def lenPtkKck : Nat := 16
def lenPtkKek : Nat := 16
def lenTk : Nat := 16
def lenTkipMic : Nat := 8
def keyDescTkip : Nat := 1
def keyDescAes : Nat := 2
def keyDescExt : Nat := 3

def slice (b : Bytes) (offset len : Nat) : Bytes := (b.drop offset).take len

/- 2. of PeerWpaMessageSanity: the expected MIC, zero for a version it does not know. -/
def expectedMic (crypto : Crypto) (ptk : Bytes) (key : EapolKey) : Bytes :=
  if key.info.keyDescVer = keyDescTkip then crypto.hmacMd5 (ptk.take lenPtkKck) key.covered
  else if key.info.keyDescVer = keyDescAes then
    (crypto.hmacSha1 (ptk.take lenPtkKck) key.covered).take lenKeyDescMic
  else if key.info.keyDescVer = keyDescExt then crypto.aesCmac (ptk.take lenPtkKck) key.covered
  else replicate lenKeyDescMic 0

/- 1. of PeerWpaMessageSanity. The authenticator's messages must carry a larger counter, or the
all-zero one; the supplicant's the stored one. -/
def replayDiffers (rCounter : Counter) (type : MsgType) (counter : Counter) : Bool :=
  match type with
  | .pair1 | .pair3 | .group1 =>
    rtmpCompareMemory counter.1 rCounter.1 != 1 && rtmpCompareMemory counter.1 Counter.zero.1 != 0
  | .pair2 | .pair4 | .group2 => counter.1 != rCounter.1

/- The key data to parse with its length and the group key index, or none for LabelOK. On the AES
path KeyDataLen becomes the length of the unwrapped data, whose check value nobody looks at; with
fewer than 8 bytes PlainLength wraps around and the allocation of 4 GB fails. TKIP_GTK_KEY_WRAP gives up without a
word when its own allocation fails, and KEYDATA stays zeroed. -/
def plainKeyData (crypto : Crypto) (entry : MacEntry) (mem : Memory) (key : EapolKey) (type : MsgType) :
    Option (Bytes × Nat × Nat) :=
  let wpa2 := entry.authMode.isWpa2
  let kek := slice entry.ptk lenPtkKck lenPtkKek
  if (type = .pair3 ∧ wpa2) ∨ type = .group1 then
    let index := if !wpa2 then key.info.keyIndex else 0
    if key.info.keyDescVer = keyDescExt ∨ key.info.keyDescVer = keyDescAes then
      if mem.unwrap ∧ 8 ≤ key.keyDataLen then
        some (crypto.aesKeyUnwrap kek key.keyData,key.keyDataLen - 8,index)
      else some ([],0,index)
    else some (if mem.unwrap then crypto.tkipGtkKeyUnwrap kek key.keyIv key.keyData else [],key.keyDataLen,index)
  else if type = .pair2 ∨ (type = .pair3 ∧ !wpa2) then some (key.keyData,key.keyDataLen,0)
  else none

-- KDE_GTK and, with PMF, KDE_IGTK; any other element is passed over.
def kdeAt (build : Build) (entry : MacEntry) (data : Nat → UInt8) (offset : Nat) (found : Bytes × Nat) :
    Option (Bytes × Nat) :=
  let len := (data (offset + 1)).toNat
  if data offset = 0xdd ∧ bytesAt data (offset + 2) 3 = [0x00,0x0f,0xac] then
    if data (offset + 5) = 1 then
      let gtkLen := (len + 250) % 256
      if gtkLen < 5 then none else some (bytesAt data (offset + 8) gtkLen,(data (offset + 6)).toNat % 4)
    else if build.pmf ∧ data (offset + 5) = 9 ∧ entry.pmfCapable then
      if build.extractIgtkKde (bytesAt data (offset + 6) (len - 4)) then some found else none
    else some found
  else some found

/- The walk over the elements; each is at least two bytes long, so `fuel` outlasts them. -/
def kdeLoop (build : Build) (entry : MacEntry) (data : Nat → UInt8) (keyDataLen : Nat) :
    Nat → Nat → Bytes × Nat → Option (Bytes × Nat)
  | 0,_,found => some found
  | fuel + 1,offset,found =>
    if offset + 2 + (data (offset + 1)).toNat ≤ keyDataLen then
      match kdeAt build entry data offset found with
      | some found => kdeLoop build entry data keyDataLen fuel (offset + 2 + (data (offset + 1)).toNat) found
      | none => none
    else some found

def overwrite (buffer bytes : Bytes) : Bytes := bytes ++ buffer.drop bytes.length

/- WPAInstallSharedKey as a supplicant: the entry is cleared before anything is checked. -/
def sharedKeyOf (groupCipher : WepStatus) (gtk : Bytes) (gtkLen : Nat) : CipherKey :=
  let wep (alg : CipherAlg) : CipherKey :=
    if gtkLen ≠ 5 ∧ gtkLen ≠ 13 then {CipherKey.zero with cipherAlg := alg}
    else {CipherKey.zero with cipherAlg := alg, keyLen := gtkLen, key := gtk.take gtkLen}
  let wpa (alg : CipherAlg) (txMic rxMic : Bytes) : CipherKey :=
    if gtkLen < lenTk then {CipherKey.zero with cipherAlg := alg}
    else ⟨alg,lenTk,gtk.take lenTk,txMic,rxMic,CipherKey.zero.txTsc,CipherKey.zero.rxTsc⟩
  match groupCipher with
  | .groupWep40Enabled => wep .wep64
  | .groupWep104Enabled => wep .wep128
  | .tkipEnable => wpa .tkip (slice gtk 24 lenTkipMic) (slice gtk 16 lenTkipMic)
  | .aesEnable => wpa .aes CipherKey.zero.txMic CipherKey.zero.rxMic
  | _ => CipherKey.zero

def groupKeySet (sta : Sta) (gtk : Bytes) (index : Nat) : Sta :=
  {sta with
    gtk := overwrite sta.gtk gtk
    defaultKeyId := index
    sharedKey := Function.update sta.sharedKey index
      (sharedKeyOf sta.groupCipher (overwrite sta.gtk gtk) gtk.length)}

/- KeyDataLen is a UCHAR here. -/
def rtmpParseEapolKeyData (build : Build) (sta : Sta) (keyData : Bytes) (keyDataLen groupKeyIndex : Nat)
    (type : MsgType) : Option Sta :=
  let wpa2 := sta.entry.authMode.isWpa2
  if type = .pair2 ∨ (type = .pair3 ∧ !wpa2) then some sta
  else
    let found :=
      if wpa2 ∧ (type = .pair3 ∨ type = .group1) then
        kdeLoop build sta.entry (fun i => keyData.getD i 0) keyDataLen (keyDataLen + 1) 0 ([],0)
      else if !wpa2 ∧ type = .group1 then
        some ((range keyDataLen).map fun i => keyData.getD i 0,groupKeyIndex)
      else some ([],0)
    match found with
    | some (gtk,index) => if 3 < index then none else some (groupKeySet sta gtk index)
    | none => none

def keyDataChecked (build : Build) (crypto : Crypto) (sta : Sta) (mem : Memory) (key : EapolKey)
    (type : MsgType) : Option Sta :=
  if key.keyDataLen = 0 then some sta
  else match plainKeyData crypto sta.entry mem key type with
    | none => some sta
    | some (data,len,index) => rtmpParseEapolKeyData build sta data (len % 256) index type

def peerWpaMessageSanity (build : Build) (crypto : Crypto) (sta : Sta) (mem : Memory) (key : EapolKey)
    (type : MsgType) : Option Sta :=
  if !mem.keyData then none
  else if replayDiffers sta.entry.rCounter type key.replayCounter then none
  else if type ≠ .pair1 ∧ key.keyMic ≠ expectedMic crypto sta.entry.ptk key then none
  else keyDataChecked build crypto sta mem key type

/- WPAInstallPairwiseKey. The whole CIPHER_KEY is cleared first, packet numbers included. -/
def wpaInstallPairwiseKey (entry : MacEntry) (bAE : Bool) : CipherKey :=
  let first := slice entry.ptk 48 lenTkipMic
  let second := slice entry.ptk 56 lenTkipMic
  match entry.wepStatus with
  | .tkipEnable =>
    {CipherKey.zero with
      cipherAlg := .tkip
      keyLen := lenTk
      key := slice entry.ptk 32 lenTk
      txMic := if bAE then first else second
      rxMic := if bAE then second else first}
  | .aesEnable => {CipherKey.zero with cipherAlg := .aes, keyLen := lenTk, key := slice entry.ptk 32 lenTk}
  | _ => CipherKey.zero

def addOne : Bytes → Bytes
  | [] => []
  | b :: bs => if b + 1 = 0 then 0 :: addOne bs else (b + 1) :: bs

theorem addOneLength (b) : (addOne b).length = b.length := by
  induction b with
  | nil => rfl
  | cons b bs ih =>
    unfold addOne
    split
    · simp [ih]
    · rfl

def Counter.next (c : Counter) : Counter :=
  ⟨(addOne c.1.reverse).reverse,by simp [addOneLength,c.2]⟩

def EntryType.isPeer : EntryType → Bool
  | .client | .apcli => true
  | _ => false

-- The `break` branches of the version checks; the PMF branch only logs.
def versionRefused (build : Build) (entry : MacEntry) (ver : Nat) : Bool :=
  if entry.wepStatus = .tkipEnable ∧ ver ≠ keyDescTkip then true
  else if build.pmf ∧ entry.useSha256 ∧ ver ≠ keyDescExt then false
  else entry.wepStatus = .aesEnable ∧ ver ≠ keyDescAes ∧ ver ≠ keyDescExt

def msgTypeOf (key : EapolKey) : Option MsgType :=
  let info := key.info
  if info.keyAck then
    if !info.secure ∧ !info.request ∧ !info.error ∧ info.pairwise then
      if !info.keyMic then some .pair1 else some .pair3
    else if info.secure ∧ info.keyMic ∧ !info.request ∧ !info.error then
      if info.pairwise then some .pair3 else some .group1
    else none
  else if !info.request ∧ !info.error ∧ info.keyMic then
    if !info.secure ∧ info.pairwise then
      if key.keyDataLen = 0 then some .pair4 else some .pair2
    else if info.secure ∧ info.pairwise then some .pair4
    else if info.secure ∧ !info.pairwise then some .group2
    else none
  else none

/- The handler WpaEAPOLKeyAction calls. The subtraction is on ULONG and may wrap. -/
def dispatch (build : Build) (entry : MacEntry) (elem : Elem) : Option MsgType :=
  let key := eapolKey elem
  if addr2 elem ≠ entry.addr ∨ !entry.entryType.isPeer then none
  else if entry.authMode.belowWpa then none
  else if (elem.msgLen - BitVec.ofNat 64 (length80211 + length8021H)).toNat < key.eapolLen then none
  else if (key.proVer ≠ 1 ∧ key.proVer ≠ 2) ∨ (key.descType ≠ 0xfe ∧ key.descType ≠ 0x02) then none
  else if versionRefused build entry key.info.keyDescVer then none
  else if entry.associated ∧ ApWpaState.initPsk.level ≤ entry.wpaState.level then msgTypeOf key
  else none

/- From here on the driver as it is configured, without DOT11W_PMF_SUPPORT. -/
def noPmf : Build := ⟨false,fun _ => true⟩

def accept (crypto : Crypto) (sta : Sta) (mem : Memory) (key : EapolKey) (type : MsgType) : Option Sta :=
  (peerWpaMessageSanity noPmf crypto sta mem key type).map
    fun next => next.emit (.accepted type sta.entry.ptk key)

def ptkDerived (crypto : Crypto) (sta : Sta) (key : EapolKey) (sNonce : Bytes) : Bytes :=
  crypto.wpaDerivePtk sta.pmk key.keyNonce sta.entry.addr sNonce sta.currentAddress

def ptkStored (crypto : Crypto) (sta : Sta) (key : EapolKey) (sNonce : Bytes) : Sta :=
  {sta with
    entry := {sta.entry with
      rCounter := key.replayCounter
      aNonce := key.keyNonce
      sNonce := sNonce
      ptk := ptkDerived crypto sta key sNonce
      wpaState := .ptkInitNegotiating}
    log := sta.log ++ [.derived (ptkDerived crypto sta key sNonce) key.keyNonce]}

def counterStored (sta : Sta) (key : EapolKey) : Sta :=
  {sta with entry := {sta.entry with rCounter := key.replayCounter}}

def keyInstalled (sta : Sta) (bAE : Bool) : Sta :=
  {sta with
    entry := {sta.entry with wpaState := .ptkInitDone, pairwiseKey := wpaInstallPairwiseKey sta.entry bAE}
    log := sta.log ++ [.installed sta.entry.ptk]}

def staPortSecured (sta : Sta) : Sta := {sta with portSecured := true, log := sta.log ++ [.secured]}

def peerPairMsg1Action (crypto : Crypto) (sta : Sta) (elem : Elem) (sNonce : Bytes) (mem : Memory) : Sta :=
  let key := eapolKey elem
  if !sta.entry.entryType.isPeer ∨ shortMsg elem then sta
  else match accept crypto sta mem key .pair1 with
    | none => sta
    | some sta =>
      let sta := ptkStored crypto sta key sNonce
      if mem.mpool then sta.emit (.sent .pair2) else sta

/- In station mode no PMK and no BSSID are looked up, so the handler stops at their check. -/
def peerPairMsg2Action (sta : Sta) (elem : Elem) : Sta :=
  if sta.entry.entryType ≠ .client ∨ shortMsg elem then sta
  else if sta.entry.wpaState.level < ApWpaState.ptkStart.level then sta
  else {sta with entry := {sta.entry with sNonce := (eapolKey elem).keyNonce}}

def peerPairMsg3Action (crypto : Crypto) (sta : Sta) (elem : Elem) (mem : Memory) : Sta :=
  let key := eapolKey elem
  if !sta.entry.entryType.isPeer ∨ shortMsg elem then sta
  else match accept crypto sta mem key .pair3 with
    | none => sta
    | some sta =>
      let sta := counterStored sta key
      if sta.entry.aNonce ≠ key.keyNonce then sta
      else if !mem.mpool then sta
      else
        let sta := keyInstalled sta false
        let sta := if sta.entry.authMode.isWpa2 then staPortSecured sta else sta
        sta.emit (.sent .pair4)

/- WPAStart2WayGroupHS in station mode: GNonce is NULL when ConstructEapolMsg copies from it. -/
def wpaStart2WayGroupHs (sta : Sta) (mem : Memory) : Sta :=
  if !mem.mpool then sta
  else {sta with entry := {sta.entry with rCounter := Counter.next sta.entry.rCounter}, halted := true}

def peerPairMsg4Action (crypto : Crypto) (sta : Sta) (elem : Elem) (mem : Memory) : Sta :=
  if sta.entry.entryType ≠ .client ∨ shortMsg elem then sta
  else if sta.entry.wpaState.level < ApWpaState.ptkInitNegotiating.level then sta
  else match accept crypto sta mem (eapolKey elem) .pair4 with
    | none => sta
    | some sta =>
      let sta := keyInstalled sta true
      if sta.entry.authMode.isWpa2 then sta else wpaStart2WayGroupHs sta mem

/- Alone among the handlers of the pairwise and group messages this one checks no length. -/
def peerGroupMsg1Action (crypto : Crypto) (sta : Sta) (elem : Elem) (mem : Memory) : Sta :=
  let key := eapolKey elem
  if !sta.entry.entryType.isPeer then sta
  else match accept crypto sta mem key .group1 with
    | none => sta
    | some sta =>
      let sta := counterStored sta key
      if mem.mpool then (staPortSecured sta).emit (.sent .group2) else sta

def peerGroupMsg2Action (crypto : Crypto) (sta : Sta) (elem : Elem) (mem : Memory) : Sta :=
  let msgLen := (elem.msgLen - BitVec.ofNat 64 length80211).toNat % 2 ^ 32
  if sta.entry.entryType ≠ .client then sta
  else if msgLen < length8021H + lengthEapolH + minLenOfEapolKeyMsg then sta
  else if sta.entry.wpaState ≠ .ptkInitDone then sta
  else (accept crypto sta mem (eapolKey elem) .group2).getD sta

def wpaEapolKeyAction (crypto : Crypto) (sta : Sta) (elem : Elem) (sNonce : Bytes) (mem : Memory) : Sta :=
  match dispatch noPmf sta.entry elem with
  | none => sta
  | some .pair1 => peerPairMsg1Action crypto sta elem sNonce mem
  | some .pair2 => peerPairMsg2Action sta elem
  | some .pair3 => peerPairMsg3Action crypto sta elem mem
  | some .pair4 => peerPairMsg4Action crypto sta elem mem
  | some .group1 => peerGroupMsg1Action crypto sta elem mem
  | some .group2 => peerGroupMsg2Action crypto sta elem mem

/- A frame from the MLME queue with the random SNonce it may draw, or data traffic, which moves the
packet numbers of the pairwise key. -/
inductive WpaOp where
  | eapolKey (elem : Elem) (sNonce : Bytes) (mem : Memory)
  | traffic (txTsc rxTsc : Bytes)

def wpaStep (crypto : Crypto) (sta : Sta) (op : WpaOp) : Sta :=
  if sta.halted then sta
  else match op with
    | .eapolKey elem sNonce mem => wpaEapolKeyAction crypto sta elem sNonce mem
    | .traffic txTsc rxTsc =>
      {sta with entry := {sta.entry with pairwiseKey := {sta.entry.pairwiseKey with txTsc := txTsc, rxTsc := rxTsc}}}

def sampleAddr : Bytes := [2,0,0,0,0,1]

def keyFrame (low high counter nonce : UInt8) (mic : Bytes) : Elem :=
  let bytes := replicate 10 0 ++ sampleAddr ++ replicate 16 0 ++ [1,3,0,95,2,low,high,0,16] ++
    replicate 7 0 ++ [counter] ++ replicate lenKeyDescNonce nonce ++ replicate 32 0 ++ mic ++ [0,0]
  ⟨fun i => bytes.getD i 0,131⟩

def sampleSta (authMode : AuthMode) (wepStatus : WepStatus) : Sta where
  entry :=
    {addr := sampleAddr, entryType := .client, authMode := authMode, wepStatus := wepStatus, associated := true,
     wpaState := .initPsk, ptk := replicate 64 0, rCounter := Counter.zero,
     aNonce := replicate lenKeyDescNonce 0, sNonce := replicate lenKeyDescNonce 0,
     pairwiseKey := CipherKey.zero, useSha256 := false, pmfCapable := false}
  portSecured := false
  pmk := replicate 32 7
  currentAddress := [2,0,0,0,0,9]
  groupCipher := .aesEnable
  gtk := replicate 32 0
  defaultKeyId := 0
  sharedKey := fun _ => CipherKey.zero
  halted := false
  log := []

def allMemory : Memory := ⟨true,true,true⟩

end RtmpDriver.WpaSupplicant
