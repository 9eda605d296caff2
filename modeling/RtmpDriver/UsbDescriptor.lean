import Mathlib.Tactic.Common
import RtmpDriver.ByteMemory

/-! The transmit descriptor in front of every frame of a bulk transfer: four bytes of TXINFO, then the TXWI, read and
set on the bytes themselves, little-endian. `framesIn` reads a transfer the way the descriptors chain it. -/
namespace RtmpDriver.UsbDescriptor
open ByteMemory List

abbrev Bytes := List UInt8

def fifoEdca : UInt8 := 2
def modeCck : UInt8 := 0

def byteAt (b : Bytes) (i : Nat) : UInt8 := b[i]?.getD 0

def txInfoPktLen (b : Bytes) : Nat := (byteAt b 0).toNat + 256 * (byteAt b 1).toNat
def txInfoUdmaNextVld (b : Bytes) : Bool := byteAt b 2 &&& 0x01 != 0
def txInfoSwLstRnd (b : Bytes) : Bool := byteAt b 2 &&& 0x04 != 0
def phyMode (b : Bytes) : UInt8 := byteAt b 7 >>> 5
def mpduTotalByteCnt (b : Bytes) : Nat := (byteAt b 10).toNat + 256 * (byteAt b 11 &&& 0x3f).toNat

def setPktLen (n : Nat) (b : Bytes) : Bytes :=
  (b.modify 0 fun _ => UInt8.ofNat n).modify 1 fun _ => UInt8.ofNat (n / 256)
def setNextVld (v : Bool) (b : Bytes) : Bytes := b.modify 2 fun x => if v then x ||| 0x01 else x &&& 0xfe
def setSwLstRnd (v : Bool) (b : Bytes) : Bytes := b.modify 2 fun x => if v then x ||| 0x04 else x &&& 0xfb
def setQsel (q : UInt8) (b : Bytes) : Bytes := b.modify 3 fun x : UInt8 => (x &&& (0xf9 : UInt8)) ||| (q <<< 1)

/- The 14 bits of MPDUtotalByteCnt: ten bytes into the descriptor, in the second TXWI word. -/
def mpduField : Nat := 10
def putMpduCount (n : Nat) (b : Bytes) : Bytes :=
  (b.modify 0 fun _ => UInt8.ofNat n).modify 1 fun x => (x &&& 0xc0) ||| (UInt8.ofNat (n / 256) &&& 0x3f)
def setMpduCount (n : Nat) (b : Bytes) : Bytes := b.take mpduField ++ putMpduCount n (b.drop mpduField)

def rltUsbWriteTxinfo (usbDmaPktLen : Nat) (bWiv : Bool) (queueSel : UInt8) (txBurst : Bool) (b : Bytes) : Bytes :=
  ((setPktLen usbDmaPktLen b).modify 2
      fun x => (x &&& 0xc0) ||| 0x08 ||| (if txBurst then 0x02 else 0)).modify 3
    fun _ => (queueSel <<< 1) ||| (if bWiv then 0x01 else 0)

/- What a frame keeps from its writer to the wire: everything but TxInfoUDMANextVld, TxInfoSwLstRnd and
TxInfoQSEL. -/
def mask (b : Bytes) : Bytes := (b.modify 2 fun x => x &&& 0xfa).modify 3 fun x => x &&& 0xf9

def framesIn : Nat → Bytes → List Bytes
  | 0,_ => []
  | fuel + 1,b =>
    let size := txInfoPktLen b + 4
    b.take size :: if txInfoUdmaNextVld b then framesIn fuel (b.drop size) else []

def contents (transfer : Bytes) : List Bytes := framesIn transfer.length transfer

theorem readMasked {k m r} (both : k &&& m = r) (x : UInt8) : x &&& k &&& m = x &&& r := by
  rw [UInt8.and_assoc,both]

theorem readCleared {k m} (apart : k &&& m = 0) (x : UInt8) : x &&& k &&& m = 0 := by
  rw [readMasked apart,UInt8.and_zero]

theorem readOr (x k m : UInt8) : (x ||| k) &&& m = (x &&& m) ||| (k &&& m) :=
  UInt8.toBitVec_inj.mp BitVec.and_or_distrib_right

theorem readApart {k m} (apart : k &&& m = 0) (x : UInt8) : (x ||| k) &&& m = x &&& m := by
  rw [readOr,apart,UInt8.or_zero]

theorem readSet (x m : UInt8) : (x ||| m) &&& m = m := by
  have bits : (x.toBitVec ||| m.toBitVec) &&& m.toBitVec = m.toBitVec := by
    ext i
    rw [BitVec.getElem_and,BitVec.getElem_or]
    cases m.toBitVec[i] <;> simp
  exact UInt8.toBitVec_inj.mp bits

theorem byteAtModify {b i j f} (inside : j < b.length) :
    byteAt (b.modify i f) j = if i = j then f (byteAt b j) else byteAt b j := by
  unfold byteAt
  rw [getElem?_modify,getElem?_eq_getElem inside]
  split <;> rfl

theorem byteAtOther {b i j f} (other : i ≠ j) : byteAt (b.modify i f) j = byteAt b j := by
  unfold byteAt
  rw [getElem?_modify]
  simp [other]

theorem byteAtAppend {b} (c) {i} (inside : i < b.length) : byteAt (b ++ c) i = byteAt b i := by
  unfold byteAt
  rw [getElem?_append_left inside]

theorem pktLenAppend {b} (c) (long : 4 ≤ b.length) : txInfoPktLen (b ++ c) = txInfoPktLen b := by
  simp only [txInfoPktLen,byteAtAppend (b := b) (i := 0) c (by omega),byteAtAppend (b := b) (i := 1) c (by omega)]

theorem nextVldAppend {b} (c) (long : 4 ≤ b.length) : txInfoUdmaNextVld (b ++ c) = txInfoUdmaNextVld b := by
  simp only [txInfoUdmaNextVld,byteAtAppend (b := b) (i := 2) c (by omega)]

theorem swLstRndAppend {b} (c) (long : 4 ≤ b.length) : txInfoSwLstRnd (b ++ c) = txInfoSwLstRnd b := by
  simp only [txInfoSwLstRnd,byteAtAppend (b := b) (i := 2) c (by omega)]

section Fields
variable {b : Bytes} {v : Bool} {q : UInt8} {n : Nat}

@[simp] theorem setNextVldLength : (setNextVld v b).length = b.length := length_modify ..
@[simp] theorem setSwLstRndLength : (setSwLstRnd v b).length = b.length := length_modify ..
@[simp] theorem setQselLength : (setQsel q b).length = b.length := length_modify ..
@[simp] theorem setPktLenLength : (setPktLen n b).length = b.length := by simp [setPktLen]
@[simp] theorem maskLength : (mask b).length = b.length := by simp [mask]
@[simp] theorem rltUsbWriteTxinfoLength {burst wiv} :
    (rltUsbWriteTxinfo n wiv q burst b).length = b.length := by simp [rltUsbWriteTxinfo]

theorem setNextVldFront : Front 4 (setNextVld v) := frontModify (by decide)
theorem setSwLstRndFront : Front 4 (setSwLstRnd v) := frontModify (by decide)
theorem setQselFront : Front 4 (setQsel q) := frontModify (by decide)
theorem setPktLenFront : Front 4 (setPktLen n) := (frontModify (by decide)).comp (frontModify (by decide))

theorem nextVldOfSet (long : 2 < b.length) : txInfoUdmaNextVld (setNextVld v b) = v := by
  unfold txInfoUdmaNextVld setNextVld
  rw [byteAtModify long,if_pos rfl]
  cases v with
  | false => simp only [Bool.false_eq_true,if_false,readCleared (k := 0xfe) (m := 0x01) rfl]; rfl
  | true => simp only [if_true,readSet]; rfl

theorem swLstRndOfSet (long : 2 < b.length) : txInfoSwLstRnd (setSwLstRnd v b) = v := by
  unfold txInfoSwLstRnd setSwLstRnd
  rw [byteAtModify long,if_pos rfl]
  cases v with
  | false => simp only [Bool.false_eq_true,if_false,readCleared (k := 0xfb) (m := 0x04) rfl]; rfl
  | true => simp only [if_true,readSet]; rfl

theorem swLstRndOfNextVld (long : 2 < b.length) : txInfoSwLstRnd (setNextVld v b) = txInfoSwLstRnd b := by
  unfold txInfoSwLstRnd setNextVld
  rw [byteAtModify long,if_pos rfl]
  cases v with
  | false => simp only [Bool.false_eq_true,if_false,readMasked (k := 0xfe) (m := 0x04) rfl]; rfl
  | true => simp only [if_true,readApart (k := 0x01) (m := 0x04) rfl]

theorem swLstRndOfQsel : txInfoSwLstRnd (setQsel q b) = txInfoSwLstRnd b := by
  simp only [txInfoSwLstRnd,setQsel,byteAtOther (i := 3) (j := 2) (by decide)]

theorem swLstRndOfPktLen : txInfoSwLstRnd (setPktLen n b) = txInfoSwLstRnd b := by
  simp only [txInfoSwLstRnd,setPktLen,byteAtOther (i := 1) (j := 2) (by decide),
    byteAtOther (i := 0) (j := 2) (by decide)]

theorem pktLenOfSwLstRnd : txInfoPktLen (setSwLstRnd v b) = txInfoPktLen b := by
  simp only [txInfoPktLen,setSwLstRnd,byteAtOther (i := 2) (j := 0) (by decide),
    byteAtOther (i := 2) (j := 1) (by decide)]

theorem pktLenOfMask : txInfoPktLen (mask b) = txInfoPktLen b := by
  simp only [txInfoPktLen,mask,byteAtOther (i := 3) (j := 0) (by decide),byteAtOther (i := 3) (j := 1) (by decide),
    byteAtOther (i := 2) (j := 0) (by decide),byteAtOther (i := 2) (j := 1) (by decide)]

theorem mpduOfMask : mpduTotalByteCnt (mask b) = mpduTotalByteCnt b := by
  simp only [mpduTotalByteCnt,mask,byteAtOther (i := 3) (j := 10) (by decide),
    byteAtOther (i := 3) (j := 11) (by decide),byteAtOther (i := 2) (j := 10) (by decide),
    byteAtOther (i := 2) (j := 11) (by decide)]

theorem twoBytes (small : n < 65536) : (UInt8.ofNat n).toNat + 256 * (UInt8.ofNat (n / 256)).toNat = n := by
  simp only [UInt8.toNat_ofNat']
  omega

theorem pktLenOfSet (long : 1 < b.length) (small : n < 65536) : txInfoPktLen (setPktLen n b) = n := by
  have low : byteAt (setPktLen n b) 0 = UInt8.ofNat n := by
    unfold setPktLen
    rw [byteAtOther (by decide),byteAtModify (by omega),if_pos rfl]
  have high : byteAt (setPktLen n b) 1 = UInt8.ofNat (n / 256) := by
    unfold setPktLen
    rw [byteAtModify (by simpa using long),if_pos rfl]
  unfold txInfoPktLen
  rw [low,high]
  exact twoBytes small

theorem maskOfNextVld : mask (setNextVld v b) = mask b := by
  unfold mask setNextVld
  rw [modify_modify_eq]
  congr 2
  funext x
  cases v with
  | false => exact readMasked (k := 0xfe) (m := 0xfa) rfl x
  | true => exact readApart (k := 0x01) (m := 0xfa) rfl x

theorem maskOfSwLstRnd : mask (setSwLstRnd v b) = mask b := by
  unfold mask setSwLstRnd
  rw [modify_modify_eq]
  congr 2
  funext x
  cases v with
  | false => exact readMasked (k := 0xfb) (m := 0xfa) rfl x
  | true => exact readApart (k := 0x04) (m := 0xfa) rfl x

theorem maskOfQsel : mask (setQsel fifoEdca b) = mask b := by
  unfold mask setQsel
  rw [modify_modify_ne _ _ _ (by decide : 3 ≠ 2),modify_modify_eq]
  congr 1
  funext x
  exact (readApart (k := fifoEdca <<< 1) (m := 0xf9) rfl _).trans (readMasked (k := 0xf9) (m := 0xf9) rfl x)

theorem pktLenOfWrite {burst wiv} (long : 1 < b.length) (small : n < 65536) :
    txInfoPktLen (rltUsbWriteTxinfo n wiv q burst b) = n := by
  have same : txInfoPktLen (rltUsbWriteTxinfo n wiv q burst b) = txInfoPktLen (setPktLen n b) := by
    simp only [txInfoPktLen,rltUsbWriteTxinfo,byteAtOther (i := 3) (j := 0) (by decide),
      byteAtOther (i := 3) (j := 1) (by decide),byteAtOther (i := 2) (j := 0) (by decide),
      byteAtOther (i := 2) (j := 1) (by decide)]
  rw [same]
  exact pktLenOfSet long small

theorem swLstRndOfWrite {burst wiv} (long : 2 < b.length) :
    txInfoSwLstRnd (rltUsbWriteTxinfo n wiv q burst b) = false := by
  unfold txInfoSwLstRnd rltUsbWriteTxinfo
  rw [byteAtOther (by decide),byteAtModify (by simpa using long),if_pos rfl]
  have apart : (if burst then (0x02 : UInt8) else 0) &&& 0x04 = 0 := by cases burst <;> rfl
  rw [readApart apart,readApart (k := 0x08) (m := 0x04) rfl,readCleared (k := 0xc0) (m := 0x04) rfl]
  rfl

theorem putMpduCountFront : Front 2 (putMpduCount n) := (frontModify (by decide)).comp (frontModify (by decide))

@[simp] theorem setMpduCountLength : (setMpduCount n b).length = b.length := by
  simp [setMpduCount,putMpduCount]
  omega

theorem byteOfMpduCount {i} (before : i < mpduField) (long : mpduField ≤ b.length) :
    byteAt (setMpduCount n b) i = byteAt b i := by
  unfold setMpduCount
  rw [byteAtAppend _ (by rw [length_take_of_le long]; exact before)]
  unfold byteAt
  rw [getElem?_take_of_lt before]

theorem pktLenOfMpduCount (long : mpduField ≤ b.length) : txInfoPktLen (setMpduCount n b) = txInfoPktLen b := by
  simp only [txInfoPktLen,byteOfMpduCount (i := 0) (by decide) long,byteOfMpduCount (i := 1) (by decide) long]

theorem swLstRndOfMpduCount (long : mpduField ≤ b.length) : txInfoSwLstRnd (setMpduCount n b) = txInfoSwLstRnd b := by
  simp only [txInfoSwLstRnd,byteOfMpduCount (i := 2) (by decide) long]

theorem apartBits (x y : UInt8) : ((x &&& 0xc0) ||| (y &&& 0x3f)) &&& 0x3f = y &&& 0x3f := by
  rw [readOr,readCleared (k := 0xc0) (m := 0x3f) rfl,readMasked (k := 0x3f) (m := 0x3f) (r := 0x3f) rfl,UInt8.zero_or]

theorem mpduOfSet (long : mpduField + 1 < b.length) (small : n < 16384) : mpduTotalByteCnt (setMpduCount n b) = n := by
  have size : (b.take mpduField).length = mpduField := length_take_of_le (by omega)
  have rest : 1 < (b.drop mpduField).length := by rw [length_drop]; omega
  have field : ∀ i, byteAt (setMpduCount n b) (mpduField + i) = byteAt (putMpduCount n (b.drop mpduField)) i := by
    intro i
    unfold setMpduCount byteAt
    rw [getElem?_append_right (by omega),size,Nat.add_sub_cancel_left]
  have low : byteAt (setMpduCount n b) 10 = UInt8.ofNat n := by
    refine (field 0).trans ?_
    unfold putMpduCount
    rw [byteAtOther (by decide),byteAtModify (by omega),if_pos rfl]
  have high : byteAt (setMpduCount n b) 11 &&& 0x3f = UInt8.ofNat (n / 256) &&& 0x3f := by
    have here : byteAt (setMpduCount n b) 11 = byteAt (putMpduCount n (b.drop mpduField)) 1 := field 1
    rw [here]
    unfold putMpduCount
    rw [byteAtModify (by simpa using rest),if_pos rfl]
    exact apartBits _ _
  have six : ∀ x : UInt8, (x &&& 0x3f).toNat = x.toNat % 64 :=
    fun x => (UInt8.toNat_and x 0x3f).trans (Nat.and_two_pow_sub_one_eq_mod x.toNat 6)
  unfold mpduTotalByteCnt
  rw [low,high,six,UInt8.toNat_ofNat',UInt8.toNat_ofNat']
  omega

end Fields

inductive Chained : List Bytes → Prop where
  | last (f : Bytes) (stop : txInfoUdmaNextVld f = false) : Chained [f]
  | cons (f : Bytes) (rest : List Bytes) (more : txInfoUdmaNextVld f = true) (tail : Chained rest) :
      Chained (f :: rest)

def Sized (f : Bytes) : Prop := f.length = txInfoPktLen f + 4 ∧ 12 ≤ f.length

theorem Sized.append {f} (sized : Sized f) (c) :
    (f ++ c).take (txInfoPktLen (f ++ c) + 4) = f ∧ (f ++ c).drop (txInfoPktLen (f ++ c) + 4) = c ∧
      txInfoUdmaNextVld (f ++ c) = txInfoUdmaNextVld f := by
  obtain ⟨size,long⟩ := sized
  rw [pktLenAppend c (by omega),← size]
  exact ⟨take_left,drop_left,nextVldAppend c (by omega)⟩

theorem framesInChained {frames} (chained : Chained frames) (sized : ∀ f ∈ frames, Sized f)
    {fuel} (enough : frames.length ≤ fuel) (tail : Bytes) : framesIn fuel (frames.flatten ++ tail) = frames := by
  induction chained generalizing fuel with
  | last f stop =>
    obtain ⟨fuel,rfl⟩ : ∃ k, fuel = k + 1 := ⟨fuel - 1,by simp at enough; omega⟩
    obtain ⟨front,back,next⟩ := (sized f mem_cons_self).append tail
    simp only [flatten_cons,flatten_nil,append_nil,framesIn]
    rw [next,stop,front]
    rfl
  | cons f rest more _ ih =>
    obtain ⟨fuel,rfl⟩ : ∃ k, fuel = k + 1 := ⟨fuel - 1,by simp at enough; omega⟩
    obtain ⟨front,back,next⟩ := (sized f mem_cons_self).append (rest.flatten ++ tail)
    have later := ih (fun g mem => sized g (mem_cons_of_mem f mem)) (by simpa using enough)
    simp only [flatten_cons,append_assoc,framesIn]
    rw [next,more,front,back,later]
    rfl

theorem flattenLong {frames : List Bytes} (sized : ∀ f ∈ frames, Sized f) : frames.length ≤ frames.flatten.length := by
  induction frames with
  | nil => exact Nat.le_refl _
  | cons f rest ih =>
    have here := (sized f mem_cons_self).2
    have later := ih fun g mem => sized g (mem_cons_of_mem f mem)
    simp only [length_cons,flatten_cons,length_append]
    omega

theorem contentsChained {frames : List Bytes} (chained : Chained frames) (sized : ∀ f ∈ frames, Sized f)
    (tail) : contents (frames.flatten ++ tail) = frames := by
  refine framesInChained chained sized ?_ tail
  rw [length_append]
  exact Nat.le_add_right_of_le (flattenLong sized)

end RtmpDriver.UsbDescriptor
