import Mathlib.Tactic.IntervalCases
import RtmpDriver.Aes
import RtmpDriver.StepMachine
import RtmpDriver.WideWord
import RtmpDriver.EapolFrame

/-! The key mixing of TKIP in `cmm_tkip.c`. Its words are unsigned int. Phase 1 cuts each word to 16 bits when it is
written, phase 2 does not. -/
namespace RtmpDriver.TkipMix
open EapolFrame Aes StepMachine WideWord List

def tkipSboxLower : List UInt8 := [
  0xa5,0x84,0x99,0x8d,0x0d,0xbd,0xb1,0x54,0x50,0x03,0xa9,0x7d,0x19,0x62,0xe6,0x9a,
  0x45,0x9d,0x40,0x87,0x15,0xeb,0xc9,0x0b,0xec,0x67,0xfd,0xea,0xbf,0xf7,0x96,0x5b,
  0xc2,0x1c,0xae,0x6a,0x5a,0x41,0x02,0x4f,0x5c,0xf4,0x34,0x08,0x93,0x73,0x53,0x3f,
  0x0c,0x52,0x65,0x5e,0x28,0xa1,0x0f,0xb5,0x09,0x36,0x9b,0x3d,0x26,0x69,0xcd,0x9f,
  0x1b,0x9e,0x74,0x2e,0x2d,0xb2,0xee,0xfb,0xf6,0x4d,0x61,0xce,0x7b,0x3e,0x71,0x97,
  0xf5,0x68,0x00,0x2c,0x60,0x1f,0xc8,0xed,0xbe,0x46,0xd9,0x4b,0xde,0xd4,0xe8,0x4a,
  0x6b,0x2a,0xe5,0x16,0xc5,0xd7,0x55,0x94,0xcf,0x10,0x06,0x81,0xf0,0x44,0xba,0xe3,
  0xf3,0xfe,0xc0,0x8a,0xad,0xbc,0x48,0x04,0xdf,0xc1,0x75,0x63,0x30,0x1a,0x0e,0x6d,
  0x4c,0x14,0x35,0x2f,0xe1,0xa2,0xcc,0x39,0x57,0xf2,0x82,0x47,0xac,0xe7,0x2b,0x95,
  0xa0,0x98,0xd1,0x7f,0x66,0x7e,0xab,0x83,0xca,0x29,0xd3,0x3c,0x79,0xe2,0x1d,0x76,
  0x3b,0x56,0x4e,0x1e,0xdb,0x0a,0x6c,0xe4,0x5d,0x6e,0xef,0xa6,0xa8,0xa4,0x37,0x8b,
  0x32,0x43,0x59,0xb7,0x8c,0x64,0xd2,0xe0,0xb4,0xfa,0x07,0x25,0xaf,0x8e,0xe9,0x18,
  0xd5,0x88,0x6f,0x72,0x24,0xf1,0xc7,0x51,0x23,0x7c,0x9c,0x21,0xdd,0xdc,0x86,0x85,
  0x90,0x42,0xc4,0xaa,0xd8,0x05,0x01,0x12,0xa3,0x5f,0xf9,0xd0,0x91,0x58,0x27,0xb9,
  0x38,0x13,0xb3,0x33,0xbb,0x70,0x89,0xa7,0xb6,0x22,0x92,0x20,0x49,0xff,0x78,0x7a,
  0x8f,0xf8,0x80,0x17,0xda,0x31,0xc6,0xb8,0xc3,0xb0,0x77,0x11,0xcb,0xfc,0xd6,0x3a]

def tkipSboxUpper : List UInt8 := [
  0xc6,0xf8,0xee,0xf6,0xff,0xd6,0xde,0x91,0x60,0x02,0xce,0x56,0xe7,0xb5,0x4d,0xec,
  0x8f,0x1f,0x89,0xfa,0xef,0xb2,0x8e,0xfb,0x41,0xb3,0x5f,0x45,0x23,0x53,0xe4,0x9b,
  0x75,0xe1,0x3d,0x4c,0x6c,0x7e,0xf5,0x83,0x68,0x51,0xd1,0xf9,0xe2,0xab,0x62,0x2a,
  0x08,0x95,0x46,0x9d,0x30,0x37,0x0a,0x2f,0x0e,0x24,0x1b,0xdf,0xcd,0x4e,0x7f,0xea,
  0x12,0x1d,0x58,0x34,0x36,0xdc,0xb4,0x5b,0xa4,0x76,0xb7,0x7d,0x52,0xdd,0x5e,0x13,
  0xa6,0xb9,0x00,0xc1,0x40,0xe3,0x79,0xb6,0xd4,0x8d,0x67,0x72,0x94,0x98,0xb0,0x85,
  0xbb,0xc5,0x4f,0xed,0x86,0x9a,0x66,0x11,0x8a,0xe9,0x04,0xfe,0xa0,0x78,0x25,0x4b,
  0xa2,0x5d,0x80,0x05,0x3f,0x21,0x70,0xf1,0x63,0x77,0xaf,0x42,0x20,0xe5,0xfd,0xbf,
  0x81,0x18,0x26,0xc3,0xbe,0x35,0x88,0x2e,0x93,0x55,0xfc,0x7a,0xc8,0xba,0x32,0xe6,
  0xc0,0x19,0x9e,0xa3,0x44,0x54,0x3b,0x0b,0x8c,0xc7,0x6b,0x28,0xa7,0xbc,0x16,0xad,
  0xdb,0x64,0x74,0x14,0x92,0x0c,0x48,0xb8,0x9f,0xbd,0x43,0xc4,0x39,0x31,0xd3,0xf2,
  0xd5,0x8b,0x6e,0xda,0x01,0xb1,0x9c,0x49,0xd8,0xac,0xf3,0xcf,0xca,0xf4,0x47,0x10,
  0x6f,0xf0,0x4a,0x5c,0x38,0x57,0x73,0x97,0xcb,0xa1,0xe8,0x3e,0x96,0x61,0x0d,0x0f,
  0xe0,0x7c,0x71,0xcc,0x90,0x06,0xf7,0x1c,0xc2,0x6a,0xae,0x69,0x17,0x99,0x3a,0x27,
  0xd9,0xeb,0x2b,0x22,0xd2,0xa9,0x07,0x33,0x2d,0x3c,0x15,0xc9,0x87,0xaa,0x50,0xa5,
  0x03,0x59,0x09,0x1a,0x65,0xd7,0x84,0xd0,0x82,0x29,0x5a,0x1e,0x7b,0xa8,0x6d,0x2c]

def uint (b : UInt8) : BitVec 32 := b.toBitVec.setWidth 32

def entry (table : List UInt8) (index : BitVec 32) : BitVec 32 := uint (table.getD index.toNat 0)

def tkipSbox (index : BitVec 32) : BitVec 32 :=
  let indexLow := index % 256
  let indexHigh := (index >>> 8) % 256
  let left := entry tkipSboxLower indexLow + entry tkipSboxUpper indexLow * 256
  let right := entry tkipSboxUpper indexHigh + entry tkipSboxLower indexHigh * 256
  left ^^^ right

def rotr1 (a : BitVec 32) : BitVec 32 :=
  let b := if a &&& 0x01 = 0x01 then (a >>> 1) ||| 0x8000 else (a >>> 1) &&& 0x7fff
  b % 65536

def keyWord (key : Bytes) (i : Nat) : BitVec 32 := 256 * uint (key.getD (i + 1) 0) + uint (key.getD i 0)

def addressWord (ta : Bytes) (i : Nat) : BitVec 32 := uint (ta.getD i 0) + uint (ta.getD (i + 1) 0) * 256

structure P1k (n : Nat) where
  p0 : BitVec n
  p1 : BitVec n
  p2 : BitVec n
  p3 : BitVec n
  p4 : BitVec n

def phase1Step (key : Bytes) (p : P1k 32) (i : Nat) : P1k 32 :=
  let j := 2 * (i % 2)
  let p0 := (p.p0 + tkipSbox ((p.p4 ^^^ keyWord key j) % 65536)) % 65536
  let p1 := (p.p1 + tkipSbox ((p0 ^^^ keyWord key (4 + j)) % 65536)) % 65536
  let p2 := (p.p2 + tkipSbox ((p1 ^^^ keyWord key (8 + j)) % 65536)) % 65536
  let p3 := (p.p3 + tkipSbox ((p2 ^^^ keyWord key (12 + j)) % 65536)) % 65536
  let p4 := (p.p4 + tkipSbox ((p3 ^^^ keyWord key j) % 65536)) % 65536
  let p4 := (p4 + BitVec.ofNat 32 i) % 65536
  ⟨p0,p1,p2,p3,p4⟩

structure Ppk (n : Nat) where
  k0 : BitVec n
  k1 : BitVec n
  k2 : BitVec n
  k3 : BitVec n
  k4 : BitVec n
  k5 : BitVec n

def phase2 (key : Bytes) (p : P1k 32) (tsc2 : BitVec 32) : Ppk 32 :=
  let k5 := (p.p4 + tsc2) % 65536
  let k0 := p.p0 + tkipSbox ((k5 ^^^ keyWord key 0) % 65536)
  let k1 := p.p1 + tkipSbox ((k0 ^^^ keyWord key 2) % 65536)
  let k2 := p.p2 + tkipSbox ((k1 ^^^ keyWord key 4) % 65536)
  let k3 := p.p3 + tkipSbox ((k2 ^^^ keyWord key 6) % 65536)
  let k4 := p.p4 + tkipSbox ((k3 ^^^ keyWord key 8) % 65536)
  let k5 := k5 + tkipSbox ((k4 ^^^ keyWord key 10) % 65536)
  let k0 := k0 + rotr1 (k5 ^^^ keyWord key 12)
  let k1 := k1 + rotr1 (k0 ^^^ keyWord key 14)
  let k2 := k2 + rotr1 k1
  let k3 := k3 + rotr1 k2
  let k4 := k4 + rotr1 k3
  let k5 := k5 + rotr1 k4
  ⟨k0,k1,k2,k3,k4,k5⟩

def low8 (x : BitVec 32) : UInt8 := UInt8.ofBitVec ((x % 256).setWidth 8)

def rc4Key (key : Bytes) (k : Ppk 32) (tsc2 : BitVec 32) : Bytes :=
  [low8 (tsc2 >>> 8),(low8 (tsc2 >>> 8) ||| 0x20) &&& 0x7f,low8 tsc2,low8 ((k.k5 ^^^ keyWord key 0) >>> 1),
    low8 k.k0,low8 (k.k0 >>> 8),low8 k.k1,low8 (k.k1 >>> 8),low8 k.k2,low8 (k.k2 >>> 8),
    low8 k.k3,low8 (k.k3 >>> 8),low8 k.k4,low8 (k.k4 >>> 8),low8 k.k5,low8 (k.k5 >>> 8)]

/- pnl and pnh are unsigned long, of w bits. The 16 bytes of rc4key and the five words of p1k. -/
def rtmpTkipMixKey {w : Nat} (key ta : Bytes) (pnl pnh : BitVec w) : Bytes × P1k 32 :=
  let tsc0 := ((pnh >>> 16) % BitVec.ofNat w 65536).setWidth 32
  let tsc1 := (pnh % BitVec.ofNat w 65536).setWidth 32
  let tsc2 := (pnl % BitVec.ofNat w 65536).setWidth 32
  let p1k := run (phase1Step key) ⟨tsc1,tsc0,addressWord ta 0,addressWord ta 2,addressWord ta 4⟩ (range 8)
  (rc4Key key (phase2 key p1k tsc2) tsc2,p1k)

/- The mixing function of 802.11i, on words of 16 bits. Its S-box is the one of AES, doubled and tripled; the second of
the two tables is the first with the bytes of each entry changed over. -/
def mk16 (hi lo : UInt8) : BitVec 16 := hi.toBitVec ++ lo.toBitVec
def lo8 (x : BitVec 16) : UInt8 := UInt8.ofBitVec (x.setWidth 8)
def hi8 (x : BitVec 16) : UInt8 := UInt8.ofBitVec ((x >>> 8).setWidth 8)

def doubled (x : UInt8) : UInt8 := xtime (lookup aesSboxEnc x)
def tripled (x : UInt8) : UInt8 := xtime (lookup aesSboxEnc x) ^^^ lookup aesSboxEnc x

def mixS (x : BitVec 16) : BitVec 16 :=
  mk16 (doubled (lo8 x)) (tripled (lo8 x)) ^^^ mk16 (tripled (hi8 x)) (doubled (hi8 x))

def tk16 (key : Bytes) (i : Nat) : BitVec 16 := mk16 (key.getD (i + 1) 0) (key.getD i 0)

def mixPhase1Step (key : Bytes) (p : P1k 16) (i : Nat) : P1k 16 :=
  let j := 2 * (i % 2)
  let p0 := p.p0 + mixS (p.p4 ^^^ tk16 key j)
  let p1 := p.p1 + mixS (p0 ^^^ tk16 key (4 + j))
  let p2 := p.p2 + mixS (p1 ^^^ tk16 key (8 + j))
  let p3 := p.p3 + mixS (p2 ^^^ tk16 key (12 + j))
  let p4 := p.p4 + mixS (p3 ^^^ tk16 key j) + BitVec.ofNat 16 i
  ⟨p0,p1,p2,p3,p4⟩

def mixPhase1 (key ta : Bytes) (tsc : BitVec 48) : P1k 16 :=
  run (mixPhase1Step key) ⟨tsc.extractLsb' 16 16,tsc.extractLsb' 32 16,tk16 ta 0,tk16 ta 2,tk16 ta 4⟩ (range 8)

def mixPhase2 (key : Bytes) (p : P1k 16) (iv16 : BitVec 16) : Ppk 16 :=
  let k5 := p.p4 + iv16
  let k0 := p.p0 + mixS (k5 ^^^ tk16 key 0)
  let k1 := p.p1 + mixS (k0 ^^^ tk16 key 2)
  let k2 := p.p2 + mixS (k1 ^^^ tk16 key 4)
  let k3 := p.p3 + mixS (k2 ^^^ tk16 key 6)
  let k4 := p.p4 + mixS (k3 ^^^ tk16 key 8)
  let k5 := k5 + mixS (k4 ^^^ tk16 key 10)
  let k0 := k0 + (k5 ^^^ tk16 key 12).rotateRight 1
  let k1 := k1 + (k0 ^^^ tk16 key 14).rotateRight 1
  let k2 := k2 + k1.rotateRight 1
  let k3 := k3 + k2.rotateRight 1
  let k4 := k4 + k3.rotateRight 1
  let k5 := k5 + k4.rotateRight 1
  ⟨k0,k1,k2,k3,k4,k5⟩

def seedBytes (key : Bytes) (k : Ppk 16) (iv16 : BitVec 16) : Bytes :=
  [hi8 iv16,(hi8 iv16 ||| 0x20) &&& 0x7f,lo8 iv16,lo8 ((k.k5 ^^^ tk16 key 0) >>> 1)] ++
    [k.k0,k.k1,k.k2,k.k3,k.k4,k.k5].flatMap fun x => [lo8 x,hi8 x]

def wepSeed (key ta : Bytes) (tsc : BitVec 48) : Bytes :=
  let iv16 := tsc.extractLsb' 0 16
  seedBytes key (mixPhase2 key (mixPhase1 key ta tsc) iv16) iv16

theorem sboxTables : tkipSboxLower = tabulated tripled ∧ tkipSboxUpper = tabulated doubled := by decide +kernel

theorem wordLow (hi lo) : (uint lo + uint hi * 256).setWidth 16 = mk16 hi lo := by
  have small : lo.toNat < 2 ^ 8 := lo.toNat_lt
  have high : hi.toNat < 2 ^ 8 := hi.toNat_lt
  apply BitVec.eq_of_toNat_eq
  rw [mk16,BitVec.toNat_append,UInt8.toNat_toBitVec,UInt8.toNat_toBitVec,← Nat.shiftLeft_add_eq_or_of_lt small,
    Nat.shiftLeft_eq]
  simp only [uint,BitVec.toNat_setWidth,BitVec.toNat_add,BitVec.toNat_mul,UInt8.toNat_toBitVec,BitVec.toNat_ofNat,
    BitVec.ofNat_eq_ofNat]
  omega

theorem keyWordLow (key i) : (keyWord key i).setWidth 16 = tk16 key i := by
  rw [keyWord,BitVec.add_comm,BitVec.mul_comm,wordLow,tk16]

theorem addressWordLow (ta i) : (addressWord ta i).setWidth 16 = tk16 ta i := wordLow _ _

theorem modLow (x : BitVec 32) : (x % 65536).setWidth 16 = x.setWidth 16 := lowMod (by decide) x

theorem byteLow (x : BitVec 32) {k} (inside : k ≤ 8) :
    ((x >>> k) % 256).setWidth 8 = ((x.setWidth 16) >>> k).setWidth 8 := by
  have cut : ((x >>> k) % 256).setWidth 8 = (x >>> k).setWidth 8 := lowMod (by decide) (x >>> k)
  rw [cut,lowSlice (by omega)]

theorem low8Lo (x : BitVec 32) : low8 x = lo8 (x.setWidth 16) := by
  have byte := byteLow x (Nat.zero_le 8)
  rw [BitVec.ushiftRight_zero,BitVec.ushiftRight_zero] at byte
  rw [low8,lo8,byte]

theorem low8Hi (x : BitVec 32) : low8 (x >>> 8) = hi8 (x.setWidth 16) := by
  rw [low8,hi8,byteLow x (Nat.le_refl 8)]

theorem entryIs {table f} (same : table = tabulated f) (x) : entry table (x % 256) = uint (f (low8 x)) := by
  have index : (x % 256).toNat = (low8 x).toNat := by
    have small : (x % 256).toNat < 2 ^ 8 := Nat.mod_lt _ (by decide)
    show _ = ((x % 256).setWidth 8).toNat
    rw [BitVec.toNat_setWidth,Nat.mod_eq_of_lt small]
  rw [entry,index]
  exact congrArg uint (lookupTable same (low8 x))

theorem sboxLow (x : BitVec 32) : (tkipSbox (x % 65536)).setWidth 16 = mixS (x.setWidth 16) := by
  obtain ⟨lower,upper⟩ := sboxTables
  rw [← modLow x]
  generalize x % 65536 = index
  simp only [tkipSbox,BitVec.setWidth_xor,entryIs lower,entryIs upper,wordLow]
  rw [low8Lo,low8Hi,mixS]

theorem rotr1Low (x : BitVec 32) : (rotr1 x).setWidth 16 = (x.setWidth 16).rotateRight 1 := by
  have odd : x &&& 0x01 = 0x01 ↔ x.getLsbD 0 = true := by
    rw [BitVec.ofNat_eq_ofNat,← BitVec.toNat_inj,BitVec.toNat_and]
    simp [BitVec.getLsbD]
  simp only [rotr1,modLow,odd]
  apply BitVec.eq_of_getLsbD_eq
  intro i inside
  rw [BitVec.getLsbD_rotateRight]
  split <;> interval_cases i <;> simp_all

def P1k.low (p : P1k 32) : P1k 16 :=
  ⟨p.p0.setWidth 16,p.p1.setWidth 16,p.p2.setWidth 16,p.p3.setWidth 16,p.p4.setWidth 16⟩

def Ppk.low (k : Ppk 32) : Ppk 16 :=
  ⟨k.k0.setWidth 16,k.k1.setWidth 16,k.k2.setWidth 16,k.k3.setWidth 16,k.k4.setWidth 16,k.k5.setWidth 16⟩

theorem addLow (x y : BitVec 32) : (x + y).setWidth 16 = x.setWidth 16 + y.setWidth 16 :=
  BitVec.setWidth_add x y (by decide)

theorem phase1StepLow (key) (p : P1k 32) (i) : (phase1Step key p i).low = mixPhase1Step key p.low i := by
  have count : (BitVec.ofNat 32 i).setWidth 16 = BitVec.ofNat 16 i := BitVec.setWidth_ofNat_of_le (by decide) i
  simp only [phase1Step,mixPhase1Step,P1k.low,modLow,addLow,sboxLow,BitVec.setWidth_xor,keyWordLow,count]

theorem phase2Low (key) (p : P1k 32) (tsc2) :
    (phase2 key p tsc2).low = mixPhase2 key p.low (tsc2.setWidth 16) := by
  simp only [phase2,mixPhase2,Ppk.low,P1k.low,modLow,addLow,sboxLow,rotr1Low,BitVec.setWidth_xor,keyWordLow]

theorem rc4KeyLow (key) (k : Ppk 32) (tsc2) :
    rc4Key key k tsc2 = seedBytes key k.low (tsc2.setWidth 16) := by
  have fourth : low8 ((k.k5 ^^^ keyWord key 0) >>> 1) = lo8 ((k.k5.setWidth 16 ^^^ tk16 key 0) >>> 1) := by
    rw [← keyWordLow,← BitVec.setWidth_xor,low8,byteLow _ (by decide),lo8]
  simp only [rc4Key,seedBytes,low8Hi,low8Lo tsc2,fourth,low8Lo k.k0,low8Lo k.k1,low8Lo k.k2,low8Lo k.k3,low8Lo k.k4,
    low8Lo k.k5,Ppk.low,flatMap_cons,flatMap_nil,cons_append,nil_append]

theorem tscWord {w} (wide : 32 ≤ w) (x) : ((x % BitVec.ofNat w 65536).setWidth 32).setWidth 16 = x.setWidth 16 := by
  have narrow : 16 < w := by omega
  rw [BitVec.setWidth_setWidth_of_le _ (by decide)]
  exact lowMod narrow x

theorem phase1RunLow (key p rounds) :
    (run (phase1Step key) p rounds).low = run (mixPhase1Step key) p.low rounds := by
  induction rounds generalizing p with
  | nil => rfl
  | cons i rest ih =>
    have later := ih (phase1Step key p i)
    rw [phase1StepLow] at later
    exact later

theorem mixKeyIs {w} (wide : 32 ≤ w) (key ta) {tsc : BitVec 48} {pnl pnh : BitVec w}
    (low : pnl.setWidth 16 = tsc.extractLsb' 0 16) (high : pnh.setWidth 32 = tsc.extractLsb' 16 32) :
    (rtmpTkipMixKey key ta pnl pnh).1 = wepSeed key ta tsc := by
  have middle : pnh.setWidth 16 = tsc.extractLsb' 16 16 := by
    rw [← BitVec.setWidth_setWidth_of_le pnh (show 16 ≤ 32 by decide),high]
    exact BitVec.setWidth_extractLsb'_of_le (by decide)
  have front : (pnh >>> 16).setWidth 16 = tsc.extractLsb' 32 16 := by
    rw [← lowSlice (show 16 + 16 ≤ 32 by decide),high]
    apply BitVec.eq_of_getLsbD_eq
    intro i inside
    have within : 16 + i < 32 := by omega
    have place : 16 + (16 + i) = 32 + i := by omega
    simp only [BitVec.getLsbD_setWidth,BitVec.getLsbD_ushiftRight,BitVec.getLsbD_extractLsb',inside,within,place,
      decide_true,Bool.true_and]
  have start : P1k.low ⟨(pnh % BitVec.ofNat w 65536).setWidth 32,((pnh >>> 16) % BitVec.ofNat w 65536).setWidth 32,
      addressWord ta 0,addressWord ta 2,addressWord ta 4⟩ =
      ⟨tsc.extractLsb' 16 16,tsc.extractLsb' 32 16,tk16 ta 0,tk16 ta 2,tk16 ta 4⟩ := by
    simp only [P1k.low,tscWord wide,middle,front,addressWordLow]
  simp only [rtmpTkipMixKey]
  rw [rc4KeyLow,phase2Low,phase1RunLow,start,tscWord wide,low,wepSeed,mixPhase1]

theorem mixKeyReference (w : Nat) (wide : 32 ≤ w) (key ta : Bytes) (tsc : BitVec 48) (pnl pnh : BitVec w)
    (low : pnl.setWidth 16 = tsc.extractLsb' 0 16) (high : pnh.setWidth 32 = tsc.extractLsb' 16 32) :
    (rtmpTkipMixKey key ta pnl pnh).1 = wepSeed key ta tsc := mixKeyIs wide key ta low high

theorem mixKeyReferenceLong :
    (rtmpTkipMixKey (replicate 16 9) (replicate 6 7) (0xaaaa : BitVec 64) 0xdd50ffff).1 =
    wepSeed (replicate 16 9) (replicate 6 7) 0xdd50ffffaaaa :=
  mixKeyReference 64 (by decide) _ _ 0xdd50ffffaaaa 0xaaaa 0xdd50ffff (by decide) (by decide)

end RtmpDriver.TkipMix
