import RtmpDriver.EapolBuild
import RtmpDriver.WpaMic

/-! The group key on its way from the driver's authenticator to the driver's supplicant. -/
namespace RtmpDriver.WpaTransport
open EapolFrame WpaSupplicant KeyWrap EapolBuild List
open RsnSuites (AuthMode WepStatus)
open WpaMic (replayPasses)

section Ptk

theorem compareSwap (a b) :
    rtmpCompareMemory a b = 0 ∧ rtmpCompareMemory b a = 0 ∨ rtmpCompareMemory a b = 1 ∧ rtmpCompareMemory b a = 2 ∨
      rtmpCompareMemory a b = 2 ∧ rtmpCompareMemory b a = 1 := by
  induction a generalizing b with
  | nil => cases b <;> simp [rtmpCompareMemory]
  | cons x xs ih =>
    cases b with
    | nil => simp [rtmpCompareMemory]
    | cons y ys =>
      by_cases more : y < x
      · simp [rtmpCompareMemory,more,UInt8.lt_asymm more]
      by_cases less : x < y
      · simp [rtmpCompareMemory,less,UInt8.lt_asymm less]
      · simpa [rtmpCompareMemory,more,less] using ih ys

theorem concatenationSwap {aNonce aa sNonce sa} (addrs : aa.length = sa.length) :
    concatenation aNonce aa sNonce sa = concatenation sNonce sa aNonce aa := by
  have larger : largerAddr aa sa = largerAddr sa aa ∧
      (if rtmpCompareMemory sa aa = 1 then aa ++ sa else sa ++ aa) =
        (if rtmpCompareMemory aa sa = 1 then sa ++ aa else aa ++ sa) := by
    rcases compareSwap sa aa with ⟨one,other⟩ | ⟨one,other⟩ | ⟨one,other⟩
    · have same : sa = aa := (compareMemoryIs addrs.symm).2.mp one
      subst same
      exact ⟨rfl,rfl⟩
    · simp [largerAddr,one,other]
    · simp [largerAddr,one,other]
  simp only [concatenation,larger.1,larger.2]
  rcases compareSwap aNonce sNonce with ⟨one,other⟩ | ⟨one,other⟩ | ⟨one,other⟩ <;> simp [one,other]

theorem derivePtkSwap (digests pmk) {aNonce aa sNonce sa} (addrs : aa.length = sa.length) :
    wpaDerivePtk digests pmk aNonce aa sNonce sa = wpaDerivePtk digests pmk sNonce sa aNonce aa := by
  rw [wpaDerivePtk,concatenationSwap addrs,← wpaDerivePtk]

end Ptk

section Packet
variable {m : Nat → UInt8} {l front seg rest : Bytes} {offset len : Nat}

theorem bytesAtOf (same : ∀ i < l.length, m i = l.getD i 0) (inside : offset + len ≤ l.length) :
    bytesAt m offset len = slice l offset len := by
  apply ext_getElem
  · simp only [bytesAt,slice,length_map,length_range,length_take,length_drop]
    omega
  · intro i left right
    have small : i < len := by simpa [bytesAt] using left
    simp only [bytesAt,slice,getElem_map,getElem_range,getElem_take,getElem_drop]
    rw [same _ (by omega),getD_eq_getElem _ _ (by omega)]

theorem sliceMiddle (first : front.length = offset) (size : seg.length = len) :
    slice (front ++ seg ++ rest) offset len = seg := by
  rw [slice,append_assoc,drop_left' first,take_left' size]

end Packet

def Carries (elem : Elem) (packet : Bytes) : Prop :=
  ∀ i < packet.length, elem.msg (length80211 + length8021H + i) = packet.getD i 0

structure Sized (p : EapolPacket) : Prop where
  replayCounter : p.replayCounter.length = lenKeyDescReplay
  keyNonce : p.keyNonce.length = lenKeyDescNonce
  keyIv : p.keyIv.length = 16
  keyRsc : p.keyRsc.length = 8
  keyMic : p.keyMic.length = lenKeyDescMic
  keyData : p.keyData.length < 2 ^ 15
  keyDescVer : p.info.keyDescVer < 8
  keyIndex : p.info.keyIndex < 4

def micCleared (p : EapolPacket) : EapolPacket := {p with keyMic := replicate lenKeyDescMic 0}

structure ReadBack (p : EapolPacket) (key : EapolKey) : Prop where
  info : key.info = p.info
  replayCounter : key.replayCounter.1 = p.replayCounter
  keyIv : key.keyIv = p.keyIv
  keyMic : key.keyMic = p.keyMic
  keyDataLen : key.keyDataLen = p.keyData.length
  keyData : key.keyData = p.keyData
  covered : key.covered = packetBytes (micCleared p)

section Read
variable {p : EapolPacket} {elem : Elem}

theorem lowRead : ∀ mic secure error request ekd : Bool,
    let low := (UInt8.ofNat (bit mic 0 + bit secure 1 + bit error 2 + bit request 3 + bit ekd 4)).toNat
    low.testBit 0 = mic ∧ low.testBit 1 = secure ∧ low.testBit 2 = error ∧ low.testBit 3 = request := by
  decide

theorem highRead : ∀ ver < 8, ∀ index < 4, ∀ pairwise install ack : Bool,
    let high := (UInt8.ofNat (ver + bit pairwise 3 + 16 * index + bit install 6 + bit ack 7)).toNat
    high % 8 = ver ∧ high.testBit 3 = pairwise ∧ high / 16 % 4 = index ∧ high.testBit 7 = ack := by
  decide +kernel

theorem infoRead (sized : Sized p) : keyInfoOf (infoLow p) (infoHigh p) = p.info := by
  obtain ⟨mic,secure,error,request⟩ := lowRead p.info.keyMic p.info.secure p.info.error p.info.request p.ekdDl
  obtain ⟨ver,pairwise,index,ack⟩ :=
    highRead _ sized.keyDescVer _ sized.keyIndex p.info.pairwise p.install p.info.keyAck
  simp only [keyInfoOf,infoLow,infoHigh,mic,secure,error,request,ver,pairwise,index,ack]

theorem be16Of {m offset n} (high : m offset = UInt8.ofNat (n / 256))
    (low : m (offset + 1) = UInt8.ofNat n) (small : n < 2 ^ 16) : be16 m offset = n := by
  simp only [be16,high,low,UInt8.toNat_ofNat']
  omega

theorem beforeMicLength (sized : Sized p) : (beforeMic p).length = 81 := by
  simp only [beforeMic,packetHead,be16Bytes,length_append,length_cons,length_nil,
    length_replicate,sized.replayCounter,sized.keyNonce,sized.keyIv,sized.keyRsc]
  rfl

theorem packetLength (sized : Sized p) : (packetBytes p).length = 99 + p.keyData.length := by
  simp only [packetBytes,afterMic,be16Bytes,length_append,beforeMicLength sized,sized.keyMic,
    length_cons,length_nil,lenKeyDescMic]
  omega

theorem packetGetD (sized : Sized p) (i) : (packetBytes p).getD i 0 =
    if i < 81 then (beforeMic p).getD i 0
    else if i < 97 then p.keyMic.getD (i - 81) 0
    else (afterMic p).getD (i - 97) 0 := by
  have first := beforeMicLength sized
  have mic : p.keyMic.length = 16 := sized.keyMic
  rw [packetBytes,append_assoc]
  by_cases one : i < 81
  · rw [if_pos one,getD_append _ _ _ _ (by omega)]
  rw [if_neg one,getD_append_right _ _ _ _ (by omega),first]
  by_cases two : i < 97
  · rw [if_pos two,getD_append _ _ _ _ (by omega)]
  · rw [if_neg two,getD_append_right _ _ _ _ (by omega),mic]
    congr 1

theorem coveredRead {m} (carried : ∀ i < (packetBytes p).length, m i = (packetBytes p).getD i 0) (sized : Sized p) :
    bytesAt (micZeroed m 81) 0 (packetBytes p).length = packetBytes (micCleared p) := by
  have cleared : Sized (micCleared p) := {sized with keyMic := length_replicate}
  have length : (packetBytes p).length = (packetBytes (micCleared p)).length := by
    rw [packetLength sized,packetLength cleared]
    rfl
  have same : ∀ i < (packetBytes (micCleared p)).length, micZeroed m 81 i = (packetBytes (micCleared p)).getD i 0 := by
    intro i inside
    rw [packetGetD cleared]
    by_cases mic : 81 ≤ i ∧ i < 97
    · have zero : micZeroed m 81 i = 0 := if_pos mic
      have zeros : (micCleared p).keyMic.getD (i - 81) 0 = 0 := by simp [micCleared]
      rw [zero,if_neg (by omega),if_pos mic.2,zeros]
    · have kept : micZeroed m 81 i = m i := if_neg mic
      rw [kept,carried i (by omega),packetGetD sized]
      by_cases before : i < 81
      · rw [if_pos before,if_pos before]
        rfl
      · rw [if_neg before,if_neg before,if_neg (by omega),if_neg (by omega)]
        rfl
  rw [length,bytesAtOf same (by omega),slice,drop_zero,take_length]

theorem readBack (carries : Carries elem (packetBytes p)) (sized : Sized p) : ReadBack p (eapolKey elem) := by
  have length := packetLength sized
  have data := sized.keyData
  let m := fun i => elem.msg (length80211 + length8021H + i)
  have carried : ∀ i < (packetBytes p).length, m i = (packetBytes p).getD i 0 := carries
  have bodyLen : be16 m 2 = minLenOfEapolKeyMsg + p.keyData.length :=
    be16Of (carried 2 (by omega)) (carried 3 (by omega)) (by simp [minLenOfEapolKeyMsg]; omega)
  have dataLen : be16 m 97 = p.keyData.length := by
    refine be16Of ?_ ?_ (by omega)
    · rw [carried 97 (by omega),packetGetD sized]
      rfl
    · rw [carried 98 (by omega),packetGetD sized]
      rfl
  have total : be16 m 2 + lengthEapolH = (packetBytes p).length := by
    rw [bodyLen,length,minLenOfEapolKeyMsg,lengthEapolH]
    omega
  refine ⟨?_,?_,?_,?_,dataLen,?_,?_⟩
  · rw [← infoRead sized]
    exact congrArg₂ keyInfoOf (carried 5 (by omega)) (carried 6 (by omega))
  · have front : (packetHead p).length = 9 := rfl
    have view : packetBytes p = packetHead p ++ p.replayCounter ++ (p.keyNonce ++ p.keyIv ++ p.keyRsc ++
        replicate 8 0 ++ p.keyMic ++ afterMic p) := by
      simp [packetBytes,beforeMic,append_assoc]
    have read : bytesAt m 9 lenKeyDescReplay = slice (packetBytes p) 9 lenKeyDescReplay :=
      bytesAtOf carried (by simp [lenKeyDescReplay]; omega)
    rw [view,sliceMiddle front sized.replayCounter] at read
    exact read
  · have front : (packetHead p ++ p.replayCounter ++ p.keyNonce).length = 49 := by
      simp [sized.replayCounter,sized.keyNonce,packetHead,be16Bytes,lenKeyDescReplay,lenKeyDescNonce]
    have view : packetBytes p = (packetHead p ++ p.replayCounter ++ p.keyNonce) ++ p.keyIv ++ (p.keyRsc ++
        replicate 8 0 ++ p.keyMic ++ afterMic p) := by
      simp [packetBytes,beforeMic,append_assoc]
    have read : bytesAt m 49 16 = slice (packetBytes p) 49 16 := bytesAtOf carried (by omega)
    rw [view,sliceMiddle front sized.keyIv] at read
    exact read
  · have read : bytesAt m 81 lenKeyDescMic = slice (packetBytes p) 81 lenKeyDescMic :=
      bytesAtOf carried (by simp [lenKeyDescMic]; omega)
    rw [packetBytes,sliceMiddle (beforeMicLength sized) sized.keyMic] at read
    exact read
  · have front : (beforeMic p ++ p.keyMic ++ be16Bytes p.keyData.length).length = 99 := by
      simp [beforeMicLength sized,sized.keyMic,be16Bytes,lenKeyDescMic]
    have view : packetBytes p = (beforeMic p ++ p.keyMic ++ be16Bytes p.keyData.length) ++ p.keyData ++ [] := by
      simp [packetBytes,afterMic,append_assoc]
    have read : bytesAt m 99 p.keyData.length = slice (packetBytes p) 99 p.keyData.length :=
      bytesAtOf carried (by omega)
    rw [view,sliceMiddle front rfl,← dataLen] at read
    exact read
  · have read := coveredRead carried sized
    rw [← total] at read
    exact read

end Read

section Walk
variable {build : Build} {entry : MacEntry} {data : Nat → UInt8} {len offset : Nat} {found next : Bytes × Nat}

theorem walkElement {fuel} (fits : offset + 2 + (data (offset + 1)).toNat ≤ len)
    (element : kdeAt build entry data offset found = some next) :
    kdeLoop build entry data len (fuel + 1) offset found =
      kdeLoop build entry data len fuel (offset + 2 + (data (offset + 1)).toNat) next := by
  simp [kdeLoop,fits,element]

theorem kdeAtOther (other : data offset ≠ 0xdd ∨ bytesAt data (offset + 2) 3 ≠ ouiWpa2) :
    kdeAt build entry data offset found = some found := by
  have neither : ¬ (data offset = 0xdd ∧ bytesAt data (offset + 2) 3 = [0x00,0x0f,0xac]) := by
    rintro ⟨eid,oui⟩
    rcases other with h | h
    · exact h eid
    · exact h oui
  rw [kdeAt,if_neg neither]

theorem walkZeros (fuel) (zeros : ∀ i, offset ≤ i → data i = 0) :
    kdeLoop build entry data len fuel offset found = some found := by
  induction fuel generalizing offset with
  | zero => rfl
  | succ fuel ih =>
    have element : kdeAt build entry data offset found = some found :=
      kdeAtOther (.inl (by rw [zeros offset (Nat.le_refl offset)]; decide))
    by_cases fits : offset + 2 + (data (offset + 1)).toNat ≤ len
    · rw [walkElement fits element]
      exact ih fun i later => zeros i (by omega)
    · simp [kdeLoop,fits]

theorem walkPadding (fuel) (zeros : ∀ i, offset < i → data i = 0) :
    kdeLoop build entry data len fuel offset found = some found := by
  cases fuel with
  | zero => rfl
  | succ fuel =>
    have third : data (offset + 2) = 0 := zeros _ (by omega)
    have oui : bytesAt data (offset + 2) 3 ≠ ouiWpa2 := by
      simp [bytesAt,range_succ,ouiWpa2,third,zeros (offset + 2 + 1) (by omega)]
    have element : kdeAt build entry data offset found = some found :=
      kdeAtOther (.inr oui)
    by_cases fits : offset + 2 + (data (offset + 1)).toNat ≤ len
    · rw [walkElement fits element]
      exact walkZeros fuel fun i later => zeros i (by omega)
    · simp [kdeLoop,fits]

end Walk

def Padding (tail : Bytes) : Prop := ∀ i, 0 < i → tail.getD i 0 = 0

theorem padKeyDataTail (data) : ∃ tail, padKeyData data = data ++ tail ∧ Padding tail := by
  unfold padKeyData
  split
  · exact ⟨[],by simp,fun _ _ => rfl⟩
  · refine ⟨0xdd :: replicate (7 - data.length % 8) 0,rfl,?_⟩
    intro i later
    obtain ⟨k,rfl⟩ := Nat.exists_eq_add_of_lt later
    simp

section Elements
variable {build : Build} {entry : MacEntry} {front gtk tail : Bytes} {index : UInt8} {found : Bytes × Nat}

def gtkElement (index : UInt8) (gtk : Bytes) : Bytes := kdeHdr 1 (2 + gtk.length) ++ [index,0] ++ gtk

theorem gtkElementLength : (gtkElement index gtk).length = 8 + gtk.length := by
  simp [gtkElement,kdeHdr,ouiWpa2]
  omega

theorem getDBehind (front rest : Bytes) (i) : (front ++ rest).getD (front.length + i) 0 = rest.getD i 0 := by
  rw [getD_append_right _ _ _ _ (by omega)]
  congr 1
  omega

theorem gtkByteAt (i) : (front ++ gtkElement index gtk ++ tail).getD (front.length + i) 0 =
    ([0xdd,UInt8.ofNat (6 + gtk.length),0x00,0x0f,0xac,1,index,0] ++ (gtk ++ tail)).getD i 0 := by
  rw [append_assoc,getDBehind]
  have size : 4 + (2 + gtk.length) = 6 + gtk.length := by omega
  simp [gtkElement,kdeHdr,ouiWpa2,size]

theorem bytesAtShift (data offset start len) :
    bytesAt data (offset + start) len = bytesAt (fun i => data (offset + i)) start len := by
  simp [bytesAt,Nat.add_assoc]

theorem kdeAtGtk {data offset} (least : 5 ≤ gtk.length) (most : gtk.length ≤ 32) (shown : ∀ i, data (offset + i) =
      ([0xdd,UInt8.ofNat (6 + gtk.length),0x00,0x0f,0xac,1,index,0] ++ (gtk ++ tail)).getD i 0) :
    kdeAt build entry data offset found = some (gtk,index.toNat % 4) ∧
      (data (offset + 1)).toNat = 6 + gtk.length := by
  have eid : data offset = 0xdd := shown 0
  have length : (data (offset + 1)).toNat = 6 + gtk.length := by
    rw [shown 1]
    simp only [cons_append,getD_cons_succ,getD_cons_zero,UInt8.toNat_ofNat']
    omega
  have oui : bytesAt data (offset + 2) 3 = [0x00,0x0f,0xac] := by
    rw [bytesAtShift,bytesAtOf (fun i _ => shown i) (by simp)]
    rfl
  have type : data (offset + 5) = 1 := shown 5
  have kid : data (offset + 6) = index := shown 6
  have key : bytesAt data (offset + 8) gtk.length = gtk := by
    rw [bytesAtShift,bytesAtOf (fun i _ => shown i) (by simp; omega),← append_assoc]
    exact sliceMiddle rfl rfl
  have size : (6 + gtk.length + 250) % 256 = gtk.length := by omega
  refine ⟨?_,length⟩
  simp only [kdeAt,eid,oui,type,length,size,kid,key]
  simp [show ¬ gtk.length < 5 by omega]

theorem walkGtk (least : 5 ≤ gtk.length) (most : gtk.length ≤ 32) (padding : Padding tail) (fuel) :
    kdeLoop build entry (fun i => (front ++ gtkElement index gtk ++ tail).getD i 0)
      (front ++ gtkElement index gtk ++ tail).length (fuel + 1) front.length found = some (gtk,index.toNat % 4) := by
  have total : (front ++ gtkElement index gtk ++ tail).length = front.length + (8 + gtk.length) + tail.length := by
    rw [length_append,length_append,gtkElementLength]
  obtain ⟨element,length⟩ : kdeAt build entry (fun i => (front ++ gtkElement index gtk ++ tail).getD i 0) front.length
      found = some (gtk,index.toNat % 4) ∧
      ((front ++ gtkElement index gtk ++ tail).getD (front.length + 1) 0).toNat = 6 + gtk.length :=
    kdeAtGtk least most gtkByteAt
  rw [walkElement (by rw [length,total]; omega) element,length]
  apply walkPadding
  intro i later
  have behind := getDBehind (front ++ gtkElement index gtk) tail (i - (front ++ gtkElement index gtk).length)
  rw [length_append,gtkElementLength] at behind
  rw [show front.length + (8 + gtk.length) + (i - (front.length + (8 + gtk.length))) = i by omega] at behind
  rw [behind]
  exact padding _ (by omega)

end Elements

/- An RSN IE begins with its version, so it cannot be taken for a KDE. -/
def WellFormedRsn (rsnie : Nat → UInt8) (rsnieLen : Nat) : Prop := 3 ≤ rsnieLen → bytesAt rsnie 0 3 ≠ ouiWpa2

section Rsn
variable {build : Build} {entry : MacEntry} {rsnie : Nat → UInt8} {rsnieLen : Nat} {rest : Bytes} {found : Bytes × Nat}

theorem rsnOui (wellFormed : WellFormedRsn rsnie rsnieLen) (positive : 0 < rsnieLen) (follows : rest.getD 0 0 = 0xdd) :
    bytesAt (fun i => (bytesAt rsnie 0 rsnieLen ++ rest).getD i 0) 0 3 ≠ ouiWpa2 := by
  have length : (bytesAt rsnie 0 rsnieLen).length = rsnieLen := by simp [bytesAt]
  have next : (bytesAt rsnie 0 rsnieLen ++ rest).getD rsnieLen 0 = 0xdd := by
    have behind := getDBehind (bytesAt rsnie 0 rsnieLen) rest 0
    rw [length,Nat.add_zero] at behind
    rw [behind,follows]
  by_cases long : 3 ≤ rsnieLen
  · rw [bytesAtOf (fun i _ => rfl) (by rw [length_append,length]; omega),slice,drop_zero,
      take_append_of_le_length (by omega)]
    intro oui
    refine wellFormed long ?_
    rw [← oui,bytesAt,bytesAt,← map_take,take_range,Nat.min_eq_left long]
  · intro oui
    have same : (bytesAt rsnie 0 rsnieLen ++ rest).getD rsnieLen 0 = ouiWpa2.getD rsnieLen 0 := by
      rw [← oui,bytesAt]
      have few : rsnieLen = 1 ∨ rsnieLen = 2 := by omega
      rcases few with rfl | rfl <;> rfl
    rw [next] at same
    have few : rsnieLen = 1 ∨ rsnieLen = 2 := by omega
    rcases few with rfl | rfl <;> revert same <;> decide

theorem kdeAtRsn (wellFormed : WellFormedRsn rsnie rsnieLen) (positive : 0 < rsnieLen) (small : rsnieLen ≤ 255)
    (follows : rest.getD 0 0 = 0xdd) :
    kdeAt build entry (fun i => (insertRsnIe rsnie rsnieLen ++ rest).getD i 0) 0 found = some found ∧
      ((insertRsnIe rsnie rsnieLen ++ rest).getD 1 0).toNat = rsnieLen := by
  have oui := rsnOui wellFormed positive follows
  rw [insertRsnIe,if_neg (by omega)]
  refine ⟨kdeAtOther (.inr oui),?_⟩
  · simp only [cons_append,nil_append,getD_cons_succ,getD_cons_zero,UInt8.toNat_ofNat']
    omega

theorem insertRsnLength (positive : 0 < rsnieLen) : (insertRsnIe rsnie rsnieLen).length = rsnieLen + 2 := by
  rw [insertRsnIe,if_neg (by omega)]
  simp [bytesAt]

end Rsn

def plainOf (build : Build) (entry : MacEntry) (args : MsgArgs) : Bytes :=
  if aesWrapped (keyDescVerOf build entry args.groupCipher) then padKeyData (keyDataOf build entry args)
  else keyDataOf build entry args

/- The shared key holds this GTK and nothing else: for TKIP the temporal key and both MIC keys. -/
def HoldsGtk (cipher : WepStatus) (key : CipherKey) (gtk : Bytes) : Prop :=
  match cipher with
  | .groupWep40Enabled => key.cipherAlg = .wep64 ∧ key.keyLen = gtk.length ∧ key.key = gtk
  | .groupWep104Enabled => key.cipherAlg = .wep128 ∧ key.keyLen = gtk.length ∧ key.key = gtk
  | .tkipEnable => key.cipherAlg = .tkip ∧ key.keyLen = lenTk ∧ gtk.length = 32 ∧
      gtk = key.key ++ key.rxMic ++ key.txMic
  | .aesEnable => key.cipherAlg = .aes ∧ key.keyLen = lenTk ∧ gtk.length = 16 ∧ gtk = key.key
  | _ => False

def KeyFits (cipher : WepStatus) (gtk : Bytes) : Prop :=
  match cipher with
  | .groupWep40Enabled | .groupWep104Enabled => gtk.length = 5 ∨ gtk.length = 13
  | .tkipEnable => gtk.length = 32
  | .aesEnable => gtk.length = 16
  | _ => False

structure GtkInstalled (sta next : Sta) (gtk : Bytes) (index : Nat) : Prop where
  buffer : next.gtk = gtk ++ sta.gtk.drop gtk.length
  keyId : next.defaultKeyId = index
  key : HoldsGtk sta.groupCipher (next.sharedKey index) gtk
  others : ∀ i, i ≠ index → next.sharedKey i = sta.sharedKey i

theorem sliceAppend (a b offset len) (inside : offset + len ≤ a.length) :
    slice (a ++ b) offset len = slice a offset len := by
  have first : offset ≤ a.length := by omega
  rw [slice,slice,drop_append_of_le_length first,take_append_of_le_length]
  rw [length_drop]
  omega

theorem tkipParts {key} (length : key.length = 32) (rest) :
    key = (key ++ rest).take lenTk ++ slice (key ++ rest) 16 lenTkipMic ++ slice (key ++ rest) 24 lenTkipMic := by
  rw [sliceAppend key rest 16 lenTkipMic (by simp [length,lenTkipMic]),
    sliceAppend key rest 24 lenTkipMic (by simp [length,lenTkipMic]),
    take_append_of_le_length (by simp [length,lenTk])]
  have last : slice key 24 lenTkipMic = key.drop 24 :=
    take_of_length_le (by simp [length,lenTkipMic])
  have middle : slice key 16 lenTkipMic ++ key.drop 24 = key.drop 16 := by
    have split := take_append_drop lenTkipMic (key.drop 16)
    rw [drop_drop] at split
    exact split
  rw [last,append_assoc,middle]
  exact (take_append_drop 16 key).symm

theorem holdsFits {cipher key} (rest) (fits : KeyFits cipher key) :
    HoldsGtk cipher (sharedKeyOf cipher (key ++ rest) key.length) key := by
  cases cipher with
  | groupWep40Enabled | groupWep104Enabled =>
    have known : ¬ (key.length ≠ 5 ∧ key.length ≠ 13) := fun both => fits.elim both.1 both.2
    simp only [HoldsGtk,sharedKeyOf,if_neg known]
    exact ⟨trivial,trivial,take_left⟩
  | tkipEnable =>
    have size : key.length = 32 := fits
    have long : ¬ key.length < lenTk := by simp [size,lenTk]
    simp only [HoldsGtk,sharedKeyOf,if_neg long]
    exact ⟨trivial,trivial,size,tkipParts size rest⟩
  | aesEnable =>
    have size : key.length = 16 := fits
    have long : ¬ key.length < lenTk := by simp [size,lenTk]
    simp only [HoldsGtk,sharedKeyOf,if_neg long]
    exact ⟨trivial,trivial,size,(take_left' size).symm⟩
  | _ => cases fits

theorem setInstalled {sta gtk} (fits : KeyFits sta.groupCipher gtk) (index) :
    GtkInstalled sta (groupKeySet sta gtk index) gtk index := by
  refine ⟨rfl,rfl,?_,fun i other => Function.update_of_ne other ..⟩
  simp only [groupKeySet,Function.update_self]
  exact holdsFits _ fits

structure Transport (build : Build) (auth : MacEntry) (args : MsgArgs) (sta : Sta) (mem : Memory) : Prop where
  included : gtkIncluded auth args.type = true
  cipher : args.groupCipher = .tkipEnable ∨ args.groupCipher = .aesEnable
  gtk : args.gtk.length = gtkLenOf args.groupCipher
  index : args.defaultKeyIdx < 4
  keyNonce : args.keyNonce.length = lenKeyDescNonce
  txRsc : args.txRsc.length = 6
  rsn : WellFormedRsn args.rsnie args.rsnieLen
  noIgtk : build.pmf = true → auth.pmfCapable = false
  fits : (plainOf build auth args).length ≤ 255
  sameMode : sta.entry.authMode.isWpa2 = auth.authMode.isWpa2
  sameCipher : sta.groupCipher = args.groupCipher
  larger : sta.entry.rCounter.value < auth.rCounter.value
  keyData : mem.keyData = true
  unwrap : mem.unwrap = true

section Build
variable {build : Build} {auth : MacEntry} {args : MsgArgs} {sta : Sta} {mem : Memory}

section
variable (t : Transport build auth args sta mem)
include t

theorem gtkSize : 5 ≤ args.gtk.length ∧ args.gtk.length ≤ 32 ∧
    args.gtk.length % 8 = 0 := by
  rw [t.gtk]
  rcases t.cipher with h | h <;> rw [h] <;> decide

theorem keyDataNoIgtk : keyDataOf build auth args =
    (if args.type = .pair2 ∨ args.type = .pair3 then insertRsnIe args.rsnie args.rsnieLen else []) ++
      gtkKde auth args := by
  have none : ¬ (build.pmf = true ∧ auth.authMode.isWpa2 = true ∧ auth.pmfCapable = true) := by
    rintro ⟨pmf,_,capable⟩
    rw [t.noIgtk pmf] at capable
    cases capable
  simp [keyDataOf,t.included,none]

theorem gtkKdeWpa2 (wpa2 : auth.authMode.isWpa2 = true) :
    gtkKde auth args = gtkElement (UInt8.ofNat args.defaultKeyIdx) args.gtk := by
  simp only [gtkKde,gtkElement,wpa2,if_true,← t.gtk,take_length,Nat.mod_eq_of_lt t.index,append_assoc]

theorem keyDataWpa (wpa : auth.authMode.isWpa2 = false) :
    args.type = .group1 ∧ keyDataOf build auth args = args.gtk := by
  have kind : args.type = .group1 := by simpa [gtkIncluded,wpa] using t.included
  refine ⟨kind,?_⟩
  rw [keyDataNoIgtk t,kind]
  simp [gtkKde,wpa,← t.gtk]

theorem plainWpa2 (wpa2 : auth.authMode.isWpa2 = true) :
    ∃ tail, Padding tail ∧ plainOf build auth args =
      (if args.type = .pair2 ∨ args.type = .pair3 then insertRsnIe args.rsnie args.rsnieLen else []) ++
        gtkElement (UInt8.ofNat args.defaultKeyIdx) args.gtk ++ tail := by
  have data := keyDataNoIgtk t
  rw [gtkKdeWpa2 t wpa2] at data
  unfold plainOf
  split
  · obtain ⟨tail,padded,padding⟩ := padKeyDataTail (keyDataOf build auth args)
    exact ⟨tail,padding,by rw [padded,data]⟩
  · exact ⟨[],fun _ _ => rfl,by rw [data,append_nil]⟩

theorem plainWpa (wpa : auth.authMode.isWpa2 = false) :
    plainOf build auth args = args.gtk := by
  have data := (keyDataWpa t wpa).2
  have whole : padKeyData args.gtk = args.gtk := if_pos (gtkSize t).2.2
  simp only [plainOf,data,whole,ite_self]

end

theorem walkBehindRsn {rsnie rsnieLen gtk tail index} (entry)
    (wellFormed : WellFormedRsn rsnie rsnieLen) (positive : 0 < rsnieLen) (least : 5 ≤ gtk.length)
    (most : gtk.length ≤ 32) (padding : Padding tail)
    (fits : (insertRsnIe rsnie rsnieLen ++ gtkElement index gtk ++ tail).length ≤ 255) (fuel) :
    kdeLoop build entry (fun i => (insertRsnIe rsnie rsnieLen ++ gtkElement index gtk ++ tail).getD i 0)
      (insertRsnIe rsnie rsnieLen ++ gtkElement index gtk ++ tail).length (fuel + 2) 0 ([],0) =
      some (gtk,index.toNat % 4) := by
  have length : (insertRsnIe rsnie rsnieLen).length = 0 + 2 + rsnieLen := by
    rw [insertRsnLength positive]
    omega
  have total : (insertRsnIe rsnie rsnieLen ++ gtkElement index gtk ++ tail).length =
      rsnieLen + 2 + (8 + gtk.length) + tail.length := by
    rw [length_append,length_append,gtkElementLength,length]
    omega
  obtain ⟨element,size⟩ : kdeAt build entry
      (fun i => (insertRsnIe rsnie rsnieLen ++ gtkElement index gtk ++ tail).getD i 0) 0 ([],0) = some ([],0) ∧
      ((insertRsnIe rsnie rsnieLen ++ gtkElement index gtk ++ tail).getD 1 0).toNat = rsnieLen := by
    rw [append_assoc]
    exact kdeAtRsn wellFormed positive (by omega) rfl
  rw [walkElement (by rw [size]; omega) element,size,← length]
  exact walkGtk least most padding fuel

theorem walkPlain (t : Transport build auth args sta mem) (wpa2 : auth.authMode.isWpa2 = true) (entry) :
    kdeLoop build entry (fun i => (plainOf build auth args).getD i 0) (plainOf build auth args).length
      ((plainOf build auth args).length + 1) 0 ([],0) = some (args.gtk,args.defaultKeyIdx) := by
  obtain ⟨tail,padding,plain⟩ := plainWpa2 t wpa2
  obtain ⟨least,most,_⟩ := gtkSize t
  have fits := t.fits
  have index : (UInt8.ofNat args.defaultKeyIdx).toNat % 4 = args.defaultKeyIdx := by
    have small := t.index
    simp only [UInt8.toNat_ofNat']
    omega
  rw [← index]
  by_cases rsn : (args.type = .pair2 ∨ args.type = .pair3) ∧ 0 < args.rsnieLen
  · rw [if_pos rsn.1] at plain
    rw [plain] at fits ⊢
    have more : (insertRsnIe args.rsnie args.rsnieLen ++ gtkElement (UInt8.ofNat args.defaultKeyIdx) args.gtk ++
        tail).length + 1 = (args.rsnieLen + 7 + args.gtk.length + tail.length) + 2 + 2 := by
      rw [length_append,length_append,gtkElementLength,insertRsnLength rsn.2]
      omega
    rw [more]
    exact walkBehindRsn entry t.rsn rsn.2 least most padding fits _
  · have nothing :
        (if args.type = .pair2 ∨ args.type = .pair3 then insertRsnIe args.rsnie args.rsnieLen else []) = [] := by
      split
      · rename_i kind
        have zero : args.rsnieLen = 0 := by
          by_contra some
          exact rsn ⟨kind,by omega⟩
        rw [zero]
        rfl
      · rfl
    rw [nothing] at plain
    rw [plain]
    exact walkGtk least most padding _

theorem keyDescVerSmall (build entry groupCipher) : keyDescVerOf build entry groupCipher < 8 := by
  unfold keyDescVerOf
  split
  · decide
  · split <;> decide

theorem wrappedData (t : Transport build auth args sta mem) (iv) :
    constructEapolKeyData build auth args (keyDescVerOf build auth args.groupCipher) iv =
      if aesWrapped (keyDescVerOf build auth args.groupCipher) then
        aesKeyWrap (slice auth.ptk lenPtkKck lenPtkKek) (plainOf build auth args)
      else tkipGtkKeyWrap true (slice auth.ptk lenPtkKck lenPtkKek) iv (plainOf build auth args) [] := by
  have kind : ¬ (args.type = .pair1 ∨ args.type = .pair4 ∨ args.type = .group2) := by
    have included := t.included
    rintro (h | h | h) <;> simp [gtkIncluded,h] at included
  simp only [constructEapolKeyData,if_neg kind,t.included,if_true,plainOf]
  split <;> rfl

theorem wrappedLength (t : Transport build auth args sta mem) (iv) :
    (constructEapolKeyData build auth args (keyDescVerOf build auth args.groupCipher) iv).length =
      (plainOf build auth args).length + if aesWrapped (keyDescVerOf build auth args.groupCipher) then 8 else 0 := by
  rw [wrappedData t]
  split
  · exact aesWrapLength _ _
  · exact tkipWrapLength _ _ _ _

theorem calculateMicLength (digests ver ptk frame) :
    (calculateMic (driverCrypto digests) ver ptk frame).length = lenKeyDescMic := by
  unfold calculateMic
  split
  · rw [length_take]
    simp only [driverCrypto,(digests.hmacSha1 _ _).2]
    rfl
  · split
    · exact (digests.hmacMd5 _ _).2
    · split
      · exact (digests.aesCmac _ _).2
      · exact length_replicate

theorem notFirst (t : Transport build auth args sta mem) : args.type ≠ .pair1 := by
  have included := t.included
  intro h
  simp [gtkIncluded,h] at included

theorem builtSized (t : Transport build auth args sta mem) (digests) :
    Sized (constructEapolMsg build (driverCrypto digests) auth args) := by
  have fits := t.fits
  rw [constructEapolMsg,if_neg (notFirst t)]
  refine ⟨auth.rCounter.2,?_,?_,?_,calculateMicLength digests _ _ _,?_,keyDescVerSmall _ _ _,?_⟩
  · simp only [keyNonceFor]
    split
    · exact t.keyNonce
    · exact length_replicate
  · simp only [keyIvFor]
    split
    · simp [slice,t.keyNonce,lenKeyDescNonce]
    · exact length_replicate
  · simp [t.included,t.txRsc]
  · simp only [wrappedLength t]
    split <;> omega
  · simp only [keyInfoFor]
    split
    · exact Nat.mod_lt _ (by decide)
    · decide

theorem expectedCalculated (crypto ptk key) :
    expectedMic crypto ptk key = calculateMic crypto key.info.keyDescVer ptk key.covered := by
  unfold expectedMic calculateMic
  by_cases tkip : key.info.keyDescVer = keyDescTkip
  · simp [tkip,keyDescTkip,keyDescAes]
  · simp [tkip]

theorem builtMic (t : Transport build auth args sta mem) (crypto) :
    (constructEapolMsg build crypto auth args).keyMic =
      calculateMic crypto (constructEapolMsg build crypto auth args).info.keyDescVer auth.ptk
        (packetBytes (micCleared (constructEapolMsg build crypto auth args))) := by
  rw [constructEapolMsg,if_neg (notFirst t)]
  rfl

theorem builtFields (build crypto auth args) :
    (constructEapolMsg build crypto auth args).info = keyInfoFor auth args (keyDescVerOf build auth args.groupCipher) ∧
      (constructEapolMsg build crypto auth args).replayCounter = auth.rCounter.1 ∧
      (constructEapolMsg build crypto auth args).keyIv = keyIvFor auth args ∧
      (constructEapolMsg build crypto auth args).keyData =
        constructEapolKeyData build auth args (keyDescVerOf build auth args.groupCipher) (keyIvFor auth args) := by
  simp only [constructEapolMsg]
  split <;> exact ⟨rfl,rfl,rfl,rfl⟩

theorem wrappedKind (t : Transport build auth args sta mem) :
    (args.type = .pair3 ∧ sta.entry.authMode.isWpa2 = true) ∨ args.type = .group1 := by
  have included := t.included
  rw [t.sameMode]
  simpa [gtkIncluded] using included

theorem readIndex (t : Transport build auth args sta mem) (ver) :
    (if (!sta.entry.authMode.isWpa2) = true then (keyInfoFor auth args ver).keyIndex else 0) =
      if auth.authMode.isWpa2 = true then 0 else args.defaultKeyIdx := by
  rw [t.sameMode]
  cases wpa2 : auth.authMode.isWpa2 with
  | true => rfl
  | false =>
    have kind := (keyDataWpa t wpa2).1
    simp [keyInfoFor,wpa2,kind,MsgType.fromGroup1,Nat.mod_eq_of_lt t.index]

theorem plainRead {digests key} (t : Transport build auth args sta mem)
    (read : ReadBack (constructEapolMsg build (driverCrypto digests) auth args) key) (ptk : sta.entry.ptk = auth.ptk) :
    plainKeyData (driverCrypto digests) sta.entry mem key args.type =
      some (plainOf build auth args,(plainOf build auth args).length,
        if auth.authMode.isWpa2 then 0 else args.defaultKeyIdx) := by
  obtain ⟨info,_,iv,data⟩ := builtFields build (driverCrypto digests) auth args
  have ver : (keyInfoFor auth args (keyDescVerOf build auth args.groupCipher)).keyDescVer =
      keyDescVerOf build auth args.groupCipher := rfl
  have wrapped := wrappedData t (keyIvFor auth args)
  have index := readIndex t (keyDescVerOf build auth args.groupCipher)
  simp only [plainKeyData,if_pos (wrappedKind t),ptk,read.info,info,index,ver,read.keyDataLen,read.keyData,read.keyIv,
    iv,data,t.unwrap,wrapped]
  by_cases aes : keyDescVerOf build auth args.groupCipher = keyDescExt ∨
      keyDescVerOf build auth args.groupCipher = keyDescAes
  · have wrap : aesWrapped (keyDescVerOf build auth args.groupCipher) = true := decide_eq_true aes
    simp [aes,wrap,driverCrypto,aesUnwrapWrap,aesWrapLength]
  · have wrap : aesWrapped (keyDescVerOf build auth args.groupCipher) = false := decide_eq_false aes
    simp [aes,wrap,driverCrypto,tkipUnwrapWrap,tkipWrapLength]

theorem parsePlain (t : Transport build auth args sta mem) :
    rtmpParseEapolKeyData build sta (plainOf build auth args) ((plainOf build auth args).length % 256)
      (if auth.authMode.isWpa2 then 0 else args.defaultKeyIdx) args.type =
        some (groupKeySet sta args.gtk args.defaultKeyIdx) := by
  have fits := t.fits
  have small : ¬ 3 < args.defaultKeyIdx := by
    have index := t.index
    omega
  rw [Nat.mod_eq_of_lt (by omega)]
  cases wpa2 : auth.authMode.isWpa2 with
  | true =>
    have walk := walkPlain t wpa2 sta.entry
    have mode : sta.entry.authMode.isWpa2 = true := t.sameMode.trans wpa2
    have kind : args.type = .pair3 ∨ args.type = .group1 := (wrappedKind t).imp_left And.left
    rcases kind with kind | kind <;> simp only [rtmpParseEapolKeyData,mode,kind,walk] <;> simp [small]
  | false =>
    have mode : sta.entry.authMode.isWpa2 = false := t.sameMode.trans wpa2
    have kind := (keyDataWpa t wpa2).1
    have same : (range args.gtk.length).map (fun i => args.gtk.getD i 0) = args.gtk := by
      have whole := bytesAtOf (m := fun i => args.gtk.getD i 0) (l := args.gtk) (fun _ _ => rfl) (Nat.zero_add _).le
      simpa [bytesAt,slice] using whole
    simp only [rtmpParseEapolKeyData,mode,kind,plainWpa t wpa2,same]
    simp [small]

theorem gtkFits (t : Transport build auth args sta mem) : KeyFits sta.groupCipher args.gtk := by
  have size := t.gtk
  rw [t.sameCipher]
  rcases t.cipher with cipher | cipher <;> rw [cipher] at size ⊢ <;> exact size

theorem plainPositive (t : Transport build auth args sta mem) : 0 < (plainOf build auth args).length := by
  obtain ⟨least,_,_⟩ := gtkSize t
  cases wpa2 : auth.authMode.isWpa2 with
  | true =>
    obtain ⟨tail,_,plain⟩ := plainWpa2 t wpa2
    rw [plain,length_append,length_append,gtkElementLength]
    omega
  | false =>
    rw [plainWpa t wpa2]
    omega

theorem checkedPlain {digests key} (t : Transport build auth args sta mem)
    (read : ReadBack (constructEapolMsg build (driverCrypto digests) auth args) key) (ptk : sta.entry.ptk = auth.ptk) :
    keyDataChecked build (driverCrypto digests) sta mem key args.type =
      some (groupKeySet sta args.gtk args.defaultKeyIdx) := by
  obtain ⟨_,_,_,data⟩ := builtFields build (driverCrypto digests) auth args
  have some : key.keyDataLen ≠ 0 := by
    have positive := plainPositive t
    rw [read.keyDataLen,data,wrappedLength t]
    omega
  rw [keyDataChecked,if_neg some,plainRead t read ptk]
  exact parsePlain t

end Build

theorem groupKeyTransport (build : Build) (digests : Digests) (pmk aNonce aa sNonce sa : Bytes) (auth : MacEntry)
    (args : MsgArgs) (sta : Sta) (mem : Memory) (elem : Elem) (addrs : aa.length = sa.length)
    (authPtk : auth.ptk = wpaDerivePtk digests pmk aNonce aa sNonce sa)
    (staPtk : sta.entry.ptk = wpaDerivePtk digests pmk aNonce aa sNonce sa ∨
      sta.entry.ptk = wpaDerivePtk digests pmk sNonce sa aNonce aa)
    (t : Transport build auth args sta mem)
    (carries : Carries elem (packetBytes (constructEapolMsg build (driverCrypto digests) auth args))) :
    wpaDerivePtk digests pmk aNonce aa sNonce sa = wpaDerivePtk digests pmk sNonce sa aNonce aa ∧
      (eapolKey elem).keyMic = expectedMic (driverCrypto digests) sta.entry.ptk (eapolKey elem) ∧
      ∃ next, peerWpaMessageSanity build (driverCrypto digests) sta mem (eapolKey elem) args.type = some next ∧
        GtkInstalled sta next args.gtk args.defaultKeyIdx ∧
        next = {sta with gtk := next.gtk, defaultKeyId := next.defaultKeyId, sharedKey := next.sharedKey} := by
  have swap : wpaDerivePtk digests pmk aNonce aa sNonce sa = wpaDerivePtk digests pmk sNonce sa aNonce aa :=
    derivePtkSwap digests pmk addrs
  have ptk : sta.entry.ptk = auth.ptk := by
    rcases staPtk with h | h
    · rw [h,authPtk]
    · rw [h,authPtk,swap]
  have read := readBack carries (builtSized t digests)
  have mic : (eapolKey elem).keyMic = expectedMic (driverCrypto digests) sta.entry.ptk (eapolKey elem) := by
    rw [expectedCalculated,read.info,read.covered,read.keyMic,ptk]
    exact builtMic t (driverCrypto digests)
  have counter : (eapolKey elem).replayCounter = auth.rCounter :=
    Subtype.ext (read.replayCounter.trans (builtFields build (driverCrypto digests) auth args).2.1)
  refine ⟨swap,mic,groupKeySet sta args.gtk args.defaultKeyIdx,?_,setInstalled (gtkFits t) _,rfl⟩
  have larger := replayPasses t.larger ((wrappedKind t).imp_left And.left)
  rw [peerWpaMessageSanity,t.keyData,counter,larger]
  simp [mic.symm,checkedPlain t read ptk]

def sampleRsn : Bytes :=
  [0x01,0x00,0x00,0x0f,0xac,0x04,0x01,0x00,0x00,0x0f,0xac,0x04,0x01,0x00,0x00,0x0f,0xac,0x02,0x00,0x00]

def sampleArgs : MsgArgs where
  groupCipher := .aesEnable
  type := .pair3
  defaultKeyIdx := 2
  keyNonce := replicate 32 7
  txRsc := replicate 6 0
  gtk := replicate 16 0x5a
  rsnie := fun i => sampleRsn.getD i 0
  rsnieLen := 20
  igtk := []

def samplePtkOf : Bytes :=
  wpaDerivePtk sampleDigests (replicate 32 9) (replicate 32 7) sampleAddr (replicate 32 8) [2,0,0,0,0,9]

def sampleAuth : MacEntry :=
  {(sampleSta .wpa2Psk .aesEnable).entry with ptk := samplePtkOf, rCounter := ⟨[0,0,0,0,0,0,0,1],rfl⟩}

def sampleSupplicant : Sta :=
  {sampleSta .wpa2Psk .aesEnable with entry := {(sampleSta .wpa2Psk .aesEnable).entry with ptk := samplePtkOf}}

def sampleMessage : Elem :=
  let packet := constructEapolMsg noPmf (driverCrypto sampleDigests) sampleAuth sampleArgs
  ⟨fun i => (packetBytes packet).getD (i - 32) 0,187⟩

theorem groupKeyTransportMsg3 :
    ∃ next, peerWpaMessageSanity noPmf (driverCrypto sampleDigests) sampleSupplicant allMemory
      (eapolKey sampleMessage) .pair3 = some next ∧
        GtkInstalled sampleSupplicant next (replicate 16 0x5a) 2 := by
  have carries : Carries sampleMessage
      (packetBytes (constructEapolMsg noPmf (driverCrypto sampleDigests) sampleAuth sampleArgs)) := fun i _ => by
    have start : length80211 + length8021H + i - 32 = i := by
      simp [length80211,length8021H]
    exact congrArg (fun k => getD _ k 0) start
  obtain ⟨next,sane,installed,_⟩ := (groupKeyTransport noPmf sampleDigests (replicate 32 9) (replicate 32 7)
    sampleAddr (replicate 32 8) [2,0,0,0,0,9] sampleAuth sampleArgs sampleSupplicant allMemory sampleMessage
    rfl rfl (.inl rfl) ⟨by decide,.inr rfl,by decide,by decide,by decide,by decide,by unfold WellFormedRsn; decide,
      fun _ => rfl,by decide +kernel,rfl,rfl,by decide,rfl,rfl⟩ carries).2.2
  exact ⟨next,sane,installed⟩

end RtmpDriver.WpaTransport
