import RtmpDriver.CcmRfc

/-! AES_CMAC of `crypt_aes.c` and the CMAC of RFC 4493, which doubles the subkeys as numbers of 128 bits. -/
namespace RtmpDriver.Cmac
open EapolFrame BigEndian Ccmp CcmRfc StepMachine List
open Aes hiding aesBlockSizes

def constZero : Bytes := replicate 16 0
def constRb : Bytes := replicate 15 0 ++ [0x87]
def aesMacLength : Nat := 16

def topBit (b : UInt8) : UInt8 := if b &&& 0x80 ≠ 0 then 1 else 0

def shiftStep (k : Bytes) (index : Nat) : Bytes :=
  k.set index (k.getD index 0 <<< 1 ||| topBit (k.getD (index + 1) 0))

def reduced (msb : UInt8) (k : Bytes) : Bytes := if 0 < msb then xorBytes k constRb else k

def subKey1 (l : Bytes) : Bytes :=
  let k := run shiftStep l (range 15)
  reduced (l.getD 0 0 &&& 0x80) (k.set 15 (k.getD 15 0 <<< 1))

def subKey2 (k : Bytes) : Bytes :=
  reduced (k.getD 0 0 &&& 0x80)
    ((range 15).map (fun index => k.getD index 0 <<< 1 ||| topBit (k.getD (index + 1) 0)) ++ [k.getD 15 0 <<< 1])

def aesCmacGenerateSubKey (key : Bytes) : Bytes × Bytes :=
  let k1 := subKey1 (rtAesEncrypt key constZero)
  (k1,subKey2 k1)

def cmacLoop (key : Bytes) : Nat → Bytes → Bytes → Bytes × Bytes
  | 0,x,rest => (x,rest)
  | fuel + 1,x,rest =>
    if aesBlockSizes < rest.length then
      cmacLoop key fuel (rtAesEncrypt key (xorBytes (rest.take aesBlockSizes) x)) (rest.drop aesBlockSizes)
    else (x,rest)

def lastBlock (k1 k2 x rest : Bytes) : Bytes :=
  if rest.length = aesBlockSizes then xorBytes (xorBytes rest x) k1
  else xorBytes (xorBytes ((zeroFilled rest).set rest.length 0x80) x) k2

/- MACText and *MACTextLength; none where the function returns without writing. -/
def aesCmac (plain key : Bytes) (keyLength macTextLength : Nat) : Option (Bytes × Nat) :=
  if macTextLength < aesMacLength then none
  else if keyLength ≠ 16 then none
  else
    let keys := aesCmacGenerateSubKey key
    let last := cmacLoop key plain.length constZero plain
    some (rtAesEncrypt key (lastBlock keys.1 keys.2 last.1 last.2),aesMacLength)

def doubled (x : BitVec 128) : BitVec 128 := x <<< 1 ^^^ (if x.msb then 0x87#128 else 0#128)

def bitsOf (block : Bytes) : BitVec 128 := BitVec.ofNat 128 (value block)

def bytesOf (x : BitVec 128) : Bytes := encode 16 x.toNat

def rfcSubKeys (key : Bytes) : BitVec 128 × BitVec 128 :=
  let k1 := doubled (bitsOf (rtAesEncrypt key (bytesOf 0#128)))
  (k1,doubled k1)

def padding (m : Bytes) : Bytes := m ++ [0x80] ++ replicate (15 - m.length) 0

def rfcCmac (key m : Bytes) : Bytes :=
  let keys := rfcSubKeys key
  let n := if m.length = 0 then 1 else (m.length + 15) / 16
  let complete := m.length ≠ 0 ∧ m.length % 16 = 0
  let tail := m.drop (16 * (n - 1))
  let last := if complete then xorBytes tail (bytesOf keys.1) else xorBytes (padding tail) (bytesOf keys.2)
  let x := cbcMac key (bytesOf 0#128) ((range (n - 1)).map fun i => (m.drop (16 * i)).take 16)
  rtAesEncrypt key (xorBytes last x)

section SubKeys

def shifted : Bytes → Bytes
  | [] => []
  | [b] => [b <<< 1]
  | b :: c :: rest => (b <<< 1 ||| topBit c) :: shifted (c :: rest)

theorem shiftedLength (l) : (shifted l).length = l.length := by
  induction l using shifted.induct with
  | case1 => rfl
  | case2 => rfl
  | case3 b c rest ih => rw [shifted,length_cons,ih]; rfl

theorem shiftedInner {l n} (inside : n + 1 < l.length) :
    (shifted l)[n]? = some (l.getD n 0 <<< 1 ||| topBit (l.getD (n + 1) 0)) := by
  induction l using shifted.induct generalizing n with
  | case1 => contradiction
  | case2 => exact absurd inside (by simp)
  | case3 b c rest ih =>
    cases n with
    | zero => rfl
    | succ n => exact ih (Nat.lt_of_succ_lt_succ inside)

theorem shiftedLast {l n} (last : n + 1 = l.length) : (shifted l)[n]? = some (l.getD n 0 <<< 1) := by
  induction l using shifted.induct generalizing n with
  | case1 => contradiction
  | case2 =>
    rw [Nat.succ.inj last]
    rfl
  | case3 b c rest ih =>
    cases n with
    | zero => exact absurd last (by simp)
    | succ n => exact ih (Nat.succ.inj last)

theorem shiftRun {l n} (inside : n < l.length) :
    run shiftStep l (range n) = (shifted l).take n ++ l.drop n := by
  induction n with
  | zero => rfl
  | succ n ih =>
    have before := ih (by omega)
    have place : ((shifted l).take n).length = n := by
      rw [length_take,shiftedLength]
      omega
    have here : ((shifted l).take n ++ l.drop n).getD n 0 = l.getD n 0 := by
      rw [getD_append_right _ _ _ _ place.le,place,Nat.sub_self,getD_eq_getElem?_getD,List.getElem?_drop,
        getD_eq_getElem?_getD]
      rfl
    have behind : ((shifted l).take n ++ l.drop n).getD (n + 1) 0 = l.getD (n + 1) 0 := by
      rw [getD_append_right _ _ _ _ (by omega),place,Nat.add_sub_cancel_left,getD_eq_getElem?_getD,
        List.getElem?_drop,getD_eq_getElem?_getD]
    have front : (shifted l).take (n + 1) =
        (shifted l).take n ++ [l.getD n 0 <<< 1 ||| topBit (l.getD (n + 1) 0)] := by
      rw [take_add_one,shiftedInner inside]
      rfl
    have tail : l.drop n = l.getD n 0 :: l.drop (n + 1) := by
      rw [getD_eq_getElem _ _ (by omega)]
      exact drop_eq_getElem_cons (by omega)
    simp only [run] at before ⊢
    rw [range_succ,foldl_append,before,foldl_cons,foldl_nil,shiftStep,here,behind,
      set_append_right _ _ place.le,place,Nat.sub_self,tail,set_cons_zero,front,append_assoc]
    rfl

theorem shiftedEnd {l} (length : l.length = 16) : shifted l = (shifted l).take 15 ++ [l.getD 15 0 <<< 1] := by
  have whole : (shifted l).take 16 = shifted l := take_of_length_le (by rw [shiftedLength,length])
  conv_lhs => rw [← whole,take_add_one,shiftedLast (by omega)]
  rfl

theorem subKey1Is {l} (length : l.length = 16) : subKey1 l = reduced (l.getD 0 0 &&& 0x80) (shifted l) := by
  have place : ((shifted l).take 15).length = 15 := by
    rw [length_take,shiftedLength,length]
    rfl
  have tail : l.drop 15 = [l.getD 15 0] := by
    match l,length with
    | [_,_,_,_,_,_,_,_,_,_,_,_,_,_,_,_],_ => rfl
  have last : ((shifted l).take 15 ++ [l.getD 15 0]).getD 15 0 = l.getD 15 0 := by
    rw [getD_append_right _ _ _ _ place.le,place]
    rfl
  have text : ((shifted l).take 15 ++ [l.getD 15 0]).set 15 (l.getD 15 0 <<< 1) = shifted l := by
    rw [set_append_right _ _ place.le,place]
    exact (shiftedEnd length).symm
  have looped : run shiftStep l (range 15) = (shifted l).take 15 ++ [l.getD 15 0] := by
    rw [shiftRun (by omega),tail]
  simp only [subKey1,looped,last,text]

theorem subKey2Is {k} (length : k.length = 16) : subKey2 k = reduced (k.getD 0 0 &&& 0x80) (shifted k) := by
  match k,length with
  | [_,_,_,_,_,_,_,_,_,_,_,_,_,_,_,_],_ => rfl

theorem shiftByte (b : UInt8) (carry : Bool) :
    (b <<< 1 ||| (if carry then 1 else 0)).toNat = (2 * b.toNat + (if carry then 1 else 0)) % 256 := by
  have table : ∀ n : Fin 256, ∀ carry : Bool, (UInt8.ofNat n.1 <<< 1 ||| (if carry then 1 else 0)).toNat =
      (2 * n.1 + (if carry then 1 else 0)) % 256 := by decide +kernel
  have row := table ⟨b.toNat,b.toNat_lt⟩ carry
  rwa [UInt8.ofNat_toNat] at row

theorem topBitIs (b) : topBit b = if decide (128 ≤ b.toNat) then 1 else 0 := by
  have table : ∀ n : Fin 256, topBit (UInt8.ofNat n.1) = if decide (128 ≤ n.1) then 1 else 0 := by decide +kernel
  have row := table ⟨b.toNat,b.toNat_lt⟩
  rwa [UInt8.ofNat_toNat] at row

theorem highIs (b : UInt8) : 0 < b &&& 0x80 ↔ 128 ≤ b.toNat := by
  have table : ∀ n : Fin 256, 0 < UInt8.ofNat n.1 &&& 0x80 ↔ 128 ≤ n.1 := by decide +kernel
  have row := table ⟨b.toNat,b.toNat_lt⟩
  rwa [UInt8.ofNat_toNat] at row

theorem highValue (b rest) : 128 * 256 ^ rest.length ≤ value (b :: rest) ↔ 128 ≤ b.toNat := by
  have less := valueLt rest
  rw [value]
  constructor
  · intro high
    by_contra low
    have bound : (b.toNat + 1) * 256 ^ rest.length ≤ 128 * 256 ^ rest.length := Nat.mul_le_mul_right _ (by omega)
    rw [Nat.add_mul,Nat.one_mul] at bound
    omega
  · intro high
    exact (Nat.mul_le_mul_right _ high).trans (Nat.le_add_right _ _)

theorem carryOut {a p r} (small : r < p) : (a * p + r) % (p * 256) = a % 256 * p + r := by
  have low : (a * p + r) % p = r := by rw [Nat.mul_comm,Nat.mul_add_mod,Nat.mod_eq_of_lt small]
  have high : (a * p + r) / p = a := by
    rw [Nat.mul_comm,Nat.mul_add_div (by omega),Nat.div_eq_of_lt small,Nat.add_zero]
  rw [Nat.mod_mul,low,high,Nat.add_comm,Nat.mul_comm]

theorem valueShifted (l : Bytes) : value (shifted l) = 2 * value l % 256 ^ l.length := by
  induction l using shifted.induct with
  | case1 => rfl
  | case2 b =>
    have byte := shiftByte b false
    simp only [Bool.false_eq_true,if_false,UInt8.or_zero,Nat.add_zero] at byte
    simp only [shifted,value,length_nil,pow_zero,Nat.mul_one,Nat.add_zero,length_singleton,pow_one,byte]
  | case3 b c rest ih =>
    have less := valueLt (c :: rest)
    have half := highValue c rest
    have power : 256 ^ (c :: rest).length = 2 * (128 * 256 ^ rest.length) := by
      rw [length_cons,pow_succ]
      omega
    have whole : value (b :: c :: rest) = b.toNat * 256 ^ (c :: rest).length + value (c :: rest) := rfl
    rw [shifted,value,shiftedLength,ih,topBitIs,shiftByte,whole,length_cons (a := b),pow_succ]
    generalize value (c :: rest) = v at *
    generalize 256 ^ (c :: rest).length = p at *
    by_cases high : 128 ≤ c.toNat
    · have upper := half.mpr high
      have rest : 2 * v % p = 2 * v - p := by
        rw [Nat.mod_eq_sub_mod (by omega),Nat.mod_eq_of_lt (by omega)]
      have total : 2 * (b.toNat * p + v) = (2 * b.toNat + 1) * p + (2 * v - p) := by
        rw [Nat.add_mul,Nat.one_mul,Nat.mul_add,Nat.mul_assoc]
        omega
      rw [total,carryOut (by omega),rest]
      simp [high]
    · have lower := mt half.mp high
      have total : 2 * (b.toNat * p + v) = 2 * b.toNat * p + 2 * v := by
        rw [Nat.mul_add,Nat.mul_assoc]
      rw [total,carryOut (by omega),Nat.mod_eq_of_lt (show 2 * v < p by omega)]
      simp [high]

theorem bitsOfNat {l} (length : l.length = 16) : (bitsOf l).toNat = value l := by
  have bound := valueLt l
  rw [length] at bound
  rw [bitsOf,BitVec.toNat_ofNat]
  exact Nat.mod_eq_of_lt bound

theorem msbIs {l} (length : l.length = 16) : (bitsOf l).msb = decide (0 < l.getD 0 0 &&& 0x80) := by
  rw [BitVec.msb_eq_decide,bitsOfNat length,decide_eq_decide]
  match l,length with
  | b :: rest,length =>
    have half := highValue b rest
    rw [Nat.succ.inj length] at half
    exact half.trans (highIs b).symm

theorem reducedIs {l} (length : l.length = 16) :
    reduced (l.getD 0 0 &&& 0x80) (shifted l) = bytesOf (doubled (bitsOf l)) := by
  have shift : value (shifted l) = (bitsOf l <<< 1).toNat := by
    rw [valueShifted,length,BitVec.toNat_shiftLeft,bitsOfNat length,Nat.shiftLeft_eq,Nat.mul_comm]
    rfl
  have size : (shifted l).length = 16 := (shiftedLength l).trans length
  have folded : value (xorBytes (shifted l) constRb) = (bitsOf l <<< 1).toNat ^^^ 0x87 := by
    rw [xorBytes,valueXor size,shift]
    rfl
  have foldedSize : (xorBytes (shifted l) constRb).length = 16 := xorBytesLength (b := constRb) size
  unfold reduced bytesOf doubled
  rw [msbIs length]
  by_cases high : 0 < l.getD 0 0 &&& 0x80
  · rw [if_pos high,if_pos (decide_eq_true high),BitVec.toNat_xor,← encodeValue (xorBytes (shifted l) constRb),
      foldedSize,folded]
    rfl
  · rw [if_neg high,if_neg (by simpa using high),BitVec.xor_zero,← shift,← size,encodeValue]

theorem bitsOfBytes (x) : bitsOf (bytesOf x) = x := by
  apply BitVec.eq_of_toNat_eq
  have fits : x.toNat < 256 ^ 16 := x.isLt
  have size : (bytesOf x).length = 16 := encodeLength 16 _
  rw [bitsOfNat size,bytesOf,valueEncode fits]

theorem subKeysRfc (key) : aesCmacGenerateSubKey key = (bytesOf (rfcSubKeys key).1,bytesOf (rfcSubKeys key).2) := by
  have first : subKey1 (rtAesEncrypt key constZero) = bytesOf (rfcSubKeys key).1 := by
    rw [subKey1Is (aesEncryptLength _ _),reducedIs (aesEncryptLength _ _)]
    rfl
  have second : subKey2 (bytesOf (rfcSubKeys key).1) = bytesOf (rfcSubKeys key).2 := by
    have size : (bytesOf (rfcSubKeys key).1).length = 16 := encodeLength 16 _
    rw [subKey2Is size,reducedIs size,bitsOfBytes]
    rfl
  rw [aesCmacGenerateSubKey,first,second]

end SubKeys

section Blocks
variable {key : Bytes}

def chunks (m : Bytes) (n : Nat) : List Bytes := (range n).map fun i => (m.drop (16 * i)).take 16

theorem chunksSucc (m n) : chunks m (n + 1) = m.take 16 :: chunks (m.drop 16) n := by
  rw [chunks,range_succ_eq_map,map_cons,map_map,chunks]
  congr 1
  refine map_congr_left fun i _ => ?_
  rw [drop_drop,Nat.add_comm]
  rfl

theorem cmacLoopIs {fuel n x m} (enough : m.length ≤ fuel) (last : m.length ≤ 16 * (n + 1))
    (more : n = 0 ∨ 16 * n < m.length) : cmacLoop key fuel x m = (cbcMac key x (chunks m n),m.drop (16 * n)) := by
  induction n generalizing fuel x m with
  | zero =>
    cases fuel with
    | zero => rfl
    | succ fuel =>
      rw [cmacLoop,if_neg (by unfold aesBlockSizes; omega)]
      rfl
  | succ n ih =>
    cases fuel with
    | zero => omega
    | succ fuel =>
      have rest : (m.drop aesBlockSizes).length = m.length - 16 := length_drop
      rw [cmacLoop,if_pos (by unfold aesBlockSizes; omega),ih (by omega) (by omega) (by omega),chunksSucc,drop_drop,
        Nat.add_comm]
      rfl

theorem xorBytesSwap (a b c) : xorBytes (xorBytes a b) c = xorBytes (xorBytes a c) b := by
  induction a generalizing b c with
  | nil => rfl
  | cons x a ih =>
    cases b with
    | nil => cases c <;> rfl
    | cons y b =>
      cases c with
      | nil => rfl
      | cons z c =>
        have rest := ih b c
        simp only [xorBytes,zipWith_cons_cons,List.cons.injEq] at rest ⊢
        exact ⟨by rw [UInt8.xor_assoc,UInt8.xor_comm y z,← UInt8.xor_assoc],rest⟩

theorem paddingIs {rest} (short : rest.length < 16) : (zeroFilled rest).set rest.length 0x80 = padding rest := by
  have zeros : replicate (16 - rest.length) (0 : UInt8) = 0 :: replicate (15 - rest.length) 0 := by
    rw [← replicate_succ]
    congr 1
    omega
  rw [zeroFilled,aesBlockSizes,zeros,set_append_right _ _ (Nat.le_refl _),Nat.sub_self,set_cons_zero,padding,
    append_assoc]
  rfl

theorem lastBlockIs {k1 k2 x rest} (short : rest.length ≤ 16) : lastBlock k1 k2 x rest =
    xorBytes (if rest.length = 16 then xorBytes rest k1 else xorBytes (padding rest) k2) x := by
  unfold lastBlock
  rw [aesBlockSizes]
  split
  · exact xorBytesSwap rest x k1
  · rw [paddingIs (by omega)]
    exact xorBytesSwap _ x k2

end Blocks

theorem aesCmacRfc (plain key : Bytes) (size : key.length = 16) :
    aesCmac plain key key.length aesMacLength = some (rfcCmac key plain,aesMacLength) := by
  unfold aesCmac
  rw [if_neg (Nat.lt_irrefl _),if_neg (not_not_intro size),subKeysRfc]
  simp only [rfcCmac]
  generalize count : (if plain.length = 0 then 1 else (plain.length + 15) / 16) = n
  have range : plain.length ≤ 16 * (n - 1 + 1) ∧ (n - 1 = 0 ∨ 16 * (n - 1) < plain.length) ∧
      (plain.length - 16 * (n - 1) = 16 ↔ plain.length ≠ 0 ∧ plain.length % 16 = 0) := by
    split at count <;> omega
  obtain ⟨last,more,whole⟩ := range
  have tail : (plain.drop (16 * (n - 1))).length = plain.length - 16 * (n - 1) := length_drop
  have complete : (plain.drop (16 * (n - 1))).length = 16 ↔ plain.length ≠ 0 ∧ plain.length % 16 = 0 := by
    rw [tail]
    exact whole
  have short : (plain.drop (16 * (n - 1))).length ≤ 16 := by omega
  rw [cmacLoopIs (Nat.le_refl _) last more]
  simp only [lastBlockIs short,complete]
  rfl

theorem aesCmacRfcBlocks : aesCmac ((range 40).map UInt8.ofNat) ((range 16).map UInt8.ofNat) 16 aesMacLength =
    some ([41,20,108,166,42,67,42,217,143,152,195,79,35,210,9,26],aesMacLength) := by
  have tag : rfcCmac ((range 16).map UInt8.ofNat) ((range 40).map UInt8.ofNat) =
      [41,20,108,166,42,67,42,217,143,152,195,79,35,210,9,26] := by decide +kernel
  have rfc := aesCmacRfc ((range 40).map UInt8.ofNat) ((range 16).map UInt8.ofNat) rfl
  rwa [tag] at rfc

end RtmpDriver.Cmac
