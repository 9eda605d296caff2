import RtmpDriver.Aes
import RtmpDriver.CounterMode
import RtmpDriver.EapolFrame

/-! AES-CCM of `crypt_aes.c` and the CCMP functions of `cmm_aes.c`. Encryption works in place; decryption writes the
plain text onto the CCMP header. -/
namespace RtmpDriver.Ccmp
open EapolFrame Aes ByteMemory CounterMode List

def aesBlockSizes : Nat := 16
def lenCcmpHdr : Nat := 8
def lenCcmpMic : Nat := 8
def fcTypeData : UInt8 := 2

def add32 (a b : Nat) : Nat := (a + b) % 2 ^ 32
def sub32 (a b : Nat) : Nat := (a + 2 ^ 32 - b) % 2 ^ 32

def xorBytes (a b : Bytes) : Bytes := zipWith (· ^^^ ·) a b

def zeroFilled (b : Bytes) : Bytes := b ++ replicate (aesBlockSizes - b.length) 0

/- The loops of AES_CCM_MAC over the AAD and over the payload. `front` is what Block holds already. -/
def macLoop (key : Bytes) : Nat → Bytes → Bytes → Bytes → Bytes
  | 0,_,_,mac => mac
  | fuel + 1,front,data,mac =>
    if data = [] then mac
    else
      let copyLength := aesBlockSizes - front.length
      let block := zeroFilled (front ++ data.take copyLength)
      macLoop key fuel [] (data.drop copyLength) (rtAesEncrypt key (xorBytes block mac))

def byteOf (n shift : Nat) : UInt8 := UInt8.ofNat (n >>> shift)

def firstBlock (nonce aad : Bytes) (macLength payloadLength : Nat) : Bytes :=
  let flags : UInt8 := (if aad.length > 0 then 0x40 else 0) ||| UInt8.ofNat ((macLength - 2) / 2 * 8) |||
    UInt8.ofNat (15 - nonce.length - 1)
  let block := zeroFilled (flags :: nonce)
  let block := if nonce.length < 12 then block.set 12 (byteOf payloadLength 24) else block
  let block := if nonce.length < 13 then block.set 13 (byteOf payloadLength 16) else block
  (block.set 14 (byteOf payloadLength 8)).set 15 (byteOf payloadLength 0)

def aadFront (aadLength : Nat) : Bytes :=
  if 0 < aadLength ∧ aadLength < 0xff00 then [byteOf aadLength 8,byteOf aadLength 0]
  else [0,0,byteOf aadLength 24,byteOf aadLength 16,byteOf aadLength 8,byteOf aadLength 0]

def aesCcmMac (payload key nonce aad : Bytes) (macLength : Nat) : Bytes :=
  let mac := rtAesEncrypt key (firstBlock nonce aad macLength payload.length)
  let mac := macLoop key aad.length (aadFront aad.length) aad mac
  (macLoop key payload.length [] payload mac).take macLength

def counterBlock (nonce : Bytes) : Bytes := zeroFilled (UInt8.ofNat (15 - nonce.length - 1) :: nonce)

/- Block_CTR[15] += 1 before each block, and the block under the key is the pad. -/
def counterMode (key : Bytes) : Mode Bytes UInt8 where
  mix := (· ^^^ ·)
  cancel := xor_cancel_right
  next ctr := ctr.modify 15 (· + 1)
  pad ctr i := (rtAesEncrypt key ctr).getD i 0
  size := aesBlockSizes
  positive := by decide

def checkLengths (keyLength nonceLength macLength : Nat) : Except Int Unit :=
  if keyLength ≠ 16 then .error (-1)
  else if nonceLength < 7 ∨ 13 < nonceLength then .error (-2)
  else if macLength ∉ [4,6,8,10,12,14,16] then .error (-3)
  else .ok ()

def aesCcmEncrypt (m : Nat → UInt8) (plain plainLength : Nat) (key : Bytes) (keyLength : Nat) (nonce aad : Bytes)
    (macLength cipher cipherLength : Nat) : Except Int ((Nat → UInt8) × Nat) :=
  (checkLengths keyLength nonce.length macLength).bind fun _ =>
    if cipherLength < add32 plainLength macLength then .error (-4)
    else
      let ctr := counterBlock nonce
      let mac := aesCcmMac (load m plain plainLength) key nonce aad macLength
      let mac := xorBytes mac (rtAesEncrypt key ctr)
      let m := (counterMode key).loop plainLength ctr plain cipher plainLength m
      .ok (store m (cipher + plainLength) mac,add32 plainLength macLength)

def aesCcmDecrypt (m : Nat → UInt8) (cipher cipherLength : Nat) (key : Bytes) (keyLength : Nat) (nonce aad : Bytes)
    (macLength plain plainLength : Nat) : Except Int ((Nat → UInt8) × Nat) :=
  (checkLengths keyLength nonce.length macLength).bind fun _ =>
    let textLength := sub32 cipherLength macLength
    if plainLength < textLength then .error (-4)
    else
      let ctr := counterBlock nonce
      let macFromCipher := xorBytes (load m (cipher + textLength) macLength) (rtAesEncrypt key ctr)
      let m := (counterMode key).loop textLength ctr cipher plain textLength m
      if macFromCipher ≠ aesCcmMac (load m plain textLength) key nonce aad macLength then .error (-5)
      else .ok (m,textLength)

def frameType (hdr : Nat → UInt8) : UInt8 := hdr 0 >>> 2 &&& 0x03

def frameSubtype (hdr : Nat → UInt8) : UInt8 := hdr 0 >>> 4 &&& 0x0f

def a4Exists (hdr : Nat → UInt8) : Bool :=
  let fromDs := (hdr 1 &&& 0x02) >>> 1
  let toDs := hdr 1 &&& 0x01
  fromDs &&& toDs != 0

def qcExists (hdr : Nat → UInt8) : Bool :=
  frameType hdr == fcTypeData && [8,9,10,11].contains (frameSubtype hdr)

def rtmpConstructCcmpAad (hdr : Nat → UInt8) (isDataFrame a4Exists qcExists : Bool) : Bytes :=
  let frameControl : Bytes := [if isDataFrame then hdr 0 &&& 0x8f else hdr 0,hdr 1 &&& 0xc7 ||| 0x40]
  let sequenceControl : Bytes := [hdr 22 &&& 0x0f,0]
  let addr4 : Bytes := if a4Exists then load hdr 24 6 else []
  let qosControl : Bytes :=
    if qcExists && a4Exists then [hdr 30 &&& 0x0f,0] else if qcExists && !a4Exists then [hdr 24 &&& 0x0f,0] else []
  frameControl ++ load hdr 4 18 ++ sequenceControl ++ addr4 ++ qosControl

def rtmpConstructCcmpNonce (hdr : Nat → UInt8) (a4Exists qcExists : Bool) (pn : Bytes) : Bytes :=
  let priority : UInt8 :=
    if qcExists && a4Exists then hdr 30 &&& 0x0f else if qcExists && !a4Exists then hdr 24 &&& 0x0f else 0
  priority :: load hdr 10 6 ++ (range 6).map fun i => pn.getD (5 - i) 0

def rtmpConstructCcmpHdr (keyIdx : UInt8) (pn : Bytes) : Bytes :=
  [pn.getD 0 0,pn.getD 1 0,0,keyIdx <<< 6 ||| 0x20,pn.getD 2 0,pn.getD 3 0,pn.getD 4 0,pn.getD 5 0]

def aadOf (hdr : Nat → UInt8) : Bytes :=
  rtmpConstructCcmpAad hdr (frameType hdr == fcTypeData) (a4Exists hdr) (qcExists hdr)

def nonceOf (hdr : Nat → UInt8) (pn : Bytes) : Bytes :=
  rtmpConstructCcmpNonce hdr (a4Exists hdr) (qcExists hdr) pn

def rtmpSoftEncryptCcmp (hdr : Nat → UInt8) (iv key : Bytes) (m : Nat → UInt8) (data dataLen : Nat) :
    Option (Nat → UInt8) :=
  match aesCcmEncrypt m data dataLen key 16 (nonceOf hdr iv) (aadOf hdr) lenCcmpMic data (add32 dataLen 8) with
  | .error _ => none
  | .ok (m,_) => some m

def rtmpSoftDecryptCcmp (hdr : Nat → UInt8) (key : Bytes) (m : Nat → UInt8) (data dataLen : Nat) :
    Option ((Nat → UInt8) × Nat) :=
  let pn := [m data,m (data + 1),m (data + 4),m (data + 5),m (data + 6),m (data + 7)]
  let cipherDataLen := sub32 dataLen lenCcmpHdr
  if key.length = 0 then none
  else if dataLen ≤ lenCcmpHdr then none
  else
    match aesCcmDecrypt m (data + lenCcmpHdr) cipherDataLen key 16 (nonceOf hdr pn) (aadOf hdr) lenCcmpMic data
        dataLen with
    | .error _ => none
    | .ok (m,outLen) => some (m,outLen % 65536)

variable {m m' : Nat → UInt8} {hdr hdr' : Nat → UInt8} {key nonce aad payload pn : Bytes}
  {plain cipher macLength start : Nat}

theorem xorBytesTwice {a b} (fits : a.length ≤ b.length) : xorBytes (xorBytes a b) b = a := by
  induction a generalizing b with
  | nil => rfl
  | cons x a ih =>
    cases b with
    | nil => exact absurd fits (by simp)
    | cons y b =>
      have rest := ih (Nat.le_of_succ_le_succ fits)
      simp only [xorBytes,zipWith_cons_cons,xor_cancel_right,cons.injEq,true_and]
      exact rest

theorem macLoopLength {fuel front data mac} (size : mac.length = aesBlockSizes) :
    (macLoop key fuel front data mac).length = aesBlockSizes := by
  induction fuel generalizing front data mac with
  | zero => exact size
  | succ fuel ih =>
    rw [macLoop]
    split
    · exact size
    · exact ih (aesEncryptLength _ _)

theorem aesCcmMacLength (fits : macLength ≤ aesBlockSizes) :
    (aesCcmMac payload key nonce aad macLength).length = macLength := by
  have whole : (macLoop key payload.length [] payload (macLoop key aad.length (aadFront aad.length) aad
      (rtAesEncrypt key (firstBlock nonce aad macLength payload.length)))).length = aesBlockSizes :=
    macLoopLength (macLoopLength (aesEncryptLength _ _))
  unfold aesCcmMac
  rw [length_take,whole]
  exact Nat.min_eq_left fits

def sealedText (payload key nonce : Bytes) : Bytes :=
  (counterMode key).text payload.length (counterBlock nonce) payload

def sealedMic (payload key nonce aad : Bytes) (macLength : Nat) : Bytes :=
  xorBytes (aesCcmMac payload key nonce aad macLength) (rtAesEncrypt key (counterBlock nonce))

theorem sealedTextLength : (sealedText payload key nonce).length = payload.length := textLength (Nat.le_refl _)

theorem sealedMicLength (fits : macLength ≤ aesBlockSizes) :
    (sealedMic payload key nonce aad macLength).length = macLength := by
  unfold sealedMic xorBytes
  rw [length_zipWith,aesCcmMacLength fits,aesEncryptLength]
  exact Nat.min_eq_left fits

theorem aesCcmEncryptIs (key aad) (checked : checkLengths 16 nonce.length macLength = .ok ())
    (small : payload.length + macLength < 2 ^ 32) (holds : Holds m plain payload) :
    ∃ m', aesCcmEncrypt m plain payload.length key 16 nonce aad macLength plain (payload.length + macLength) =
        .ok (m',payload.length + macLength) ∧
      Holds m' plain (sealedText payload key nonce ++ sealedMic payload key nonce aad macLength) := by
  have total : add32 payload.length macLength = payload.length + macLength := Nat.mod_eq_of_lt small
  have loaded : load m plain payload.length = payload := holds
  have looped : (counterMode key).loop payload.length (counterBlock nonce) plain plain payload.length m =
      store m plain (sealedText payload key nonce) := by
    rw [loopIs (.inl (Nat.le_refl _)),loaded]
    rfl
  unfold aesCcmEncrypt
  simp only [checked,Except.bind,total,loaded,looped]
  refine ⟨_,if_neg (Nat.lt_irrefl _),?_⟩
  have text := holdsStore (m := m) (p := plain) (b := sealedText payload key nonce)
  have whole := text.extend (c := sealedMic payload key nonce aad macLength)
  rw [sealedTextLength] at whole
  exact whole

theorem aesCcmDecryptIs (checked : checkLengths 16 nonce.length macLength = .ok ())
    (small : payload.length + macLength < 2 ^ 32) (fits : macLength ≤ aesBlockSizes) (behind : plain ≤ cipher)
    (capacity) (room : payload.length ≤ capacity)
    (holds : Holds m cipher (sealedText payload key nonce ++ sealedMic payload key nonce aad macLength)) :
    aesCcmDecrypt m cipher (payload.length + macLength) key 16 nonce aad macLength plain capacity =
      .ok (store m plain payload,payload.length) := by
  have length : sub32 (payload.length + macLength) macLength = payload.length := by
    unfold sub32
    omega
  obtain ⟨text,mic⟩ := holdsAppend.mp holds
  rw [sealedTextLength] at mic
  have text' : load m cipher payload.length = sealedText payload key nonce := by
    rw [Holds,sealedTextLength] at text
    exact text
  have mic' : load m (cipher + payload.length) macLength = sealedMic payload key nonce aad macLength := by
    rw [Holds,sealedMicLength fits] at mic
    exact mic
  have looped : (counterMode key).loop payload.length (counterBlock nonce) cipher plain payload.length m =
      store m plain payload := by
    rw [loopIs (.inl behind),text',sealedText,textTwice (Nat.le_refl _)]
  have written : load (store m plain payload) plain payload.length = payload := holdsStore
  have same : xorBytes (sealedMic payload key nonce aad macLength) (rtAesEncrypt key (counterBlock nonce)) =
      aesCcmMac payload key nonce aad macLength := by
    apply xorBytesTwice
    rwa [aesCcmMacLength fits,aesEncryptLength]
  have room' : ¬capacity < payload.length := Nat.not_lt.mpr room
  unfold aesCcmDecrypt
  simp only [checked,Except.bind,length,if_neg room',looped,mic',written,same,ne_eq,not_true,if_false]

/- The bits of a MAC header that the AAD and the nonce are made of: the Retry, PwrMgt and MoreData bits, the
duration and the sequence number may differ. -/
structure SameProtected (hdr hdr' : Nat → UInt8) : Prop where
  control : hdr' 0 = hdr 0
  flags : hdr' 1 &&& 0xc7 = hdr 1 &&& 0xc7
  addresses : ∀ i, 4 ≤ i → i < 22 → hdr' i = hdr i
  fragment : hdr' 22 &&& 0x0f = hdr 22 &&& 0x0f
  rest : ∀ i, 24 ≤ i → i < 32 → hdr' i = hdr i

theorem SameProtected.bits (same : SameProtected hdr hdr') (mask) (inside : 0xc7 &&& mask = mask) :
    hdr' 1 &&& mask = hdr 1 &&& mask := by
  rw [← inside,← UInt8.and_assoc,same.flags,UInt8.and_assoc]

theorem SameProtected.a4 (same : SameProtected hdr hdr') : a4Exists hdr' = a4Exists hdr := by
  unfold a4Exists
  rw [same.bits 0x02 (by decide),same.bits 0x01 (by decide)]

theorem SameProtected.qc (same : SameProtected hdr hdr') : qcExists hdr' = qcExists hdr := by
  simp only [qcExists,frameType,frameSubtype,same.control]

theorem SameProtected.sameAad (same : SameProtected hdr hdr') : aadOf hdr' = aadOf hdr := by
  have three : load hdr' 4 18 = load hdr 4 18 :=
    loadCongr fun i low high => same.addresses i low high
  have four : load hdr' 24 6 = load hdr 24 6 :=
    loadCongr fun i low high => same.rest i low (by omega)
  unfold aadOf frameType rtmpConstructCcmpAad
  rw [same.a4,same.qc,same.control,same.flags,same.fragment,three,four,same.rest 24 (by decide) (by decide),
    same.rest 30 (by decide) (by decide)]

theorem SameProtected.sameNonce (same : SameProtected hdr hdr') (pn) : nonceOf hdr' pn = nonceOf hdr pn := by
  have transmitter : load hdr' 10 6 = load hdr 10 6 :=
    loadCongr fun i low high => same.addresses i (by omega) (by omega)
  simp only [nonceOf,same.a4,same.qc,rtmpConstructCcmpNonce,transmitter,
    same.rest 24 (by decide) (by decide),same.rest 30 (by decide) (by decide)]

theorem ccmpChecked (hdr pn) : checkLengths 16 (nonceOf hdr pn).length lenCcmpMic = .ok () := rfl

theorem nonceReceived {keyIdx} (hdr) (holds : Holds m start (rtmpConstructCcmpHdr keyIdx pn)) :
    nonceOf hdr [m start,m (start + 1),m (start + 4),m (start + 5),m (start + 6),m (start + 7)] = nonceOf hdr pn := by
  have bytes : [m start,m (start + 1),m (start + 2),m (start + 3),m (start + 4),m (start + 5),m (start + 6),
      m (start + 7)] = rtmpConstructCcmpHdr keyIdx pn := holds
  simp only [rtmpConstructCcmpHdr,cons.injEq,and_true] at bytes
  obtain ⟨b₀,b₁,_,_,b₄,b₅,b₆,b₇⟩ := bytes
  rw [b₀,b₁,b₄,b₅,b₆,b₇]
  rfl

def sealedMpdu (hdr : Nat → UInt8) (keyIdx : UInt8) (pn key payload : Bytes) : Bytes :=
  rtmpConstructCcmpHdr keyIdx pn ++ (sealedText payload key (nonceOf hdr pn) ++
    sealedMic payload key (nonceOf hdr pn) (aadOf hdr) lenCcmpMic)

theorem encryptIs (small : payload.length + 16 < 65536) (holds : Holds m plain payload) :
    ∃ m', rtmpSoftEncryptCcmp hdr pn key m plain payload.length = some m' ∧
      ∀ keyIdx, rtmpConstructCcmpHdr keyIdx pn ++ load m' plain (payload.length + lenCcmpMic) =
        sealedMpdu hdr keyIdx pn key payload := by
  have total : add32 payload.length 8 = payload.length + lenCcmpMic := by
    unfold add32 lenCcmpMic
    omega
  have small' : payload.length + lenCcmpMic < 2 ^ 32 := by
    unfold lenCcmpMic
    omega
  obtain ⟨m',ok,whole⟩ := aesCcmEncryptIs key (aadOf hdr) (ccmpChecked hdr pn) small' holds
  refine ⟨m',?_,fun keyIdx => ?_⟩
  · unfold rtmpSoftEncryptCcmp
    rw [total,ok]
  · rw [Holds,length_append,sealedTextLength,sealedMicLength (by decide)] at whole
    rw [whole]
    rfl

theorem decryptIs {keyIdx} (same : SameProtected hdr hdr') (filled : key.length ≠ 0)
    (nonempty : 1 ≤ payload.length) (small : payload.length + 16 < 65536)
    (holds : Holds m start (sealedMpdu hdr keyIdx pn key payload)) :
    rtmpSoftDecryptCcmp hdr' key m start (payload.length + 16) = some (store m start payload,payload.length) := by
  obtain ⟨header,sealed⟩ := holdsAppend.mp holds
  have nonce := nonceReceived hdr header
  have length : sub32 (payload.length + 16) lenCcmpHdr = payload.length + lenCcmpMic := by
    unfold sub32 lenCcmpHdr lenCcmpMic
    omega
  have small' : payload.length + lenCcmpMic < 2 ^ 32 := by
    unfold lenCcmpMic
    omega
  have opened := aesCcmDecryptIs (ccmpChecked hdr pn) small' (by decide) (Nat.le_add_right start lenCcmpHdr)
    (payload.length + 16) (by omega) sealed
  have long : ¬payload.length + 16 ≤ lenCcmpHdr := by
    unfold lenCcmpHdr
    omega
  unfold rtmpSoftDecryptCcmp
  simp only [if_neg filled,if_neg long,same.sameNonce,same.sameAad,nonce,length,opened]
  rw [Nat.mod_eq_of_lt (by omega)]

theorem ccmpRoundTrip (key : Bytes) (keySize : key.length = 16) (keyIdx : UInt8) (pn : Bytes)
    (hdr hdr' : Nat → UInt8) (same : SameProtected hdr hdr') (payload : Bytes) (nonempty : 1 ≤ payload.length)
    (small : payload.length + 16 < 65536) (m : Nat → UInt8) (data : Nat) (holds : Holds m data payload) :
    ∃ m', rtmpSoftEncryptCcmp hdr pn key m data payload.length = some m' ∧
      ∀ (frame : Nat → UInt8) (start : Nat),
        Holds frame start (rtmpConstructCcmpHdr keyIdx pn ++ load m' data (payload.length + lenCcmpMic)) →
        ∃ after, rtmpSoftDecryptCcmp hdr' key frame start (payload.length + 16) = some (after,payload.length) ∧
          Holds after start payload := by
  obtain ⟨m',ok,mpdu⟩ := encryptIs small holds
  refine ⟨m',ok,fun frame start received => ?_⟩
  rw [mpdu keyIdx] at received
  have filled : key.length ≠ 0 := by omega
  exact ⟨_,decryptIs same filled nonempty small received,holdsStore⟩

def qosHeader (i : Nat) : UInt8 := if i = 0 then 0x88 else if i = 1 then 0x43 else if i = 22 then 0x10 else 5

def qosHeaderRetried (i : Nat) : UInt8 :=
  if i = 0 then 0x88 else if i = 1 then 0x7b else if i = 22 then 0xf0 else if i = 23 then 9 else 5

theorem retriedSame : SameProtected qosHeader qosHeaderRetried := by
  have others : ∀ i, 1 < i → i ≠ 22 → i ≠ 23 → qosHeaderRetried i = qosHeader i := by
    intro i high not22 not23
    unfold qosHeaderRetried qosHeader
    rw [if_neg (by omega),if_neg (by omega),if_neg not22,if_neg not23,if_neg (by omega),if_neg (by omega),if_neg not22]
  refine ⟨rfl,by decide,?_,by decide,?_⟩
  · intro i low high
    exact others i (by omega) (by omega) (by omega)
  · intro i low high
    exact others i (by omega) (by omega) (by omega)

theorem ccmpRoundTripRetried :
    ∃ m', rtmpSoftEncryptCcmp qosHeader [1,2,3,4,5,6] (replicate 16 7) (fun i => [10,20,30].getD i 0) 0 3 =
        some m' ∧
      ∀ (frame : Nat → UInt8) (start : Nat),
        Holds frame start (rtmpConstructCcmpHdr 1 [1,2,3,4,5,6] ++ load m' 0 (3 + lenCcmpMic)) →
        ∃ after, rtmpSoftDecryptCcmp qosHeaderRetried (replicate 16 7) frame start 19 = some (after,3) ∧
          Holds after start [10,20,30] :=
  ccmpRoundTrip (replicate 16 7) rfl 1 [1,2,3,4,5,6] qosHeader qosHeaderRetried retriedSame [10,20,30]
    (by decide) (by decide) _ 0 (holdsGetD [10,20,30] 0)

end RtmpDriver.Ccmp
