import RtmpDriver.StreamHash
import RtmpDriver.StepMachine

/-! The Hash routines of SHA-1, SHA-256 and MD5, and the three algorithms made of them. -/
namespace RtmpDriver.HashRounds
open EapolFrame StreamHash BigEndian StepMachine List

def rotl (x : UInt32) (n : Nat) : UInt32 := x <<< UInt32.ofNat n ||| x >>> UInt32.ofNat (32 - n)
def rotr (x : UInt32) (n : Nat) : UInt32 := x >>> UInt32.ofNat n ||| x <<< UInt32.ofNat (32 - n)

def ch (x y z : UInt32) : UInt32 := (x &&& y) ^^^ (~~~x &&& z)
def maj (x y z : UInt32) : UInt32 := (x &&& y) ^^^ (x &&& z) ^^^ (y &&& z)
def parity (x y z : UInt32) : UInt32 := x ^^^ y ^^^ z

def wordBe (a b c d : UInt8) : UInt32 := a.toUInt32 <<< 24 ||| b.toUInt32 <<< 16 ||| c.toUInt32 <<< 8 ||| d.toUInt32

def bytesBe (w : UInt32) : Bytes := [(w >>> 24).toUInt8,(w >>> 16).toUInt8,(w >>> 8).toUInt8,w.toUInt8]

def wordsBe (block : Bytes) : List UInt32 := (range 16).map fun i =>
  wordBe (block.getD (4 * i) 0) (block.getD (4 * i + 1) 0) (block.getD (4 * i + 2) 0) (block.getD (4 * i + 3) 0)

def wordsLe (block : Bytes) : List UInt32 := (range 16).map fun i =>
  wordBe (block.getD (4 * i + 3) 0) (block.getD (4 * i + 2) 0) (block.getD (4 * i + 1) 0) (block.getD (4 * i) 0)

def sha1K : List UInt32 := [0x5a827999,0x6ed9eba1,0x8f1bbcdc,0xca62c1d6]

structure Sha1Vars where
  a : UInt32
  b : UInt32
  c : UInt32
  d : UInt32
  e : UInt32

def sha1Round (f : UInt32 → UInt32 → UInt32 → UInt32) (k : UInt32) (w : List UInt32) (v : Sha1Vars)
    (t : Nat) : Sha1Vars :=
  ⟨rotl v.a 5 + f v.b v.c v.d + v.e + k + w.getD t 0,v.a,rotl v.b 30,v.c,v.d⟩

def sha1Schedule (w : List UInt32) (i : Nat) : List UInt32 :=
  w ++ [rotl (w.getD (i - 3) 0 ^^^ w.getD (i - 8) 0 ^^^ w.getD (i - 14) 0 ^^^ w.getD (i - 16) 0) 1]

def rtSha1Hash (h : List UInt32) (block : Bytes) : List UInt32 :=
  let w := run sha1Schedule (wordsBe block) (range' 16 64)
  let v : Sha1Vars := ⟨h.getD 0 0,h.getD 1 0,h.getD 2 0,h.getD 3 0,h.getD 4 0⟩
  let v := run (sha1Round ch (sha1K.getD 0 0) w) v (range' 0 20)
  let v := run (sha1Round parity (sha1K.getD 1 0) w) v (range' 20 20)
  let v := run (sha1Round maj (sha1K.getD 2 0) w) v (range' 40 20)
  let v := run (sha1Round parity (sha1K.getD 3 0) w) v (range' 60 20)
  [h.getD 0 0 + v.a,h.getD 1 0 + v.b,h.getD 2 0 + v.c,h.getD 3 0 + v.d,h.getD 4 0 + v.e]

def sha1 : HashAlg where
  defaultHashValue := [0x67452301,0xefcdab89,0x98badcfe,0x10325476,0xc3d2e1f0]
  hash := rtSha1Hash
  lengthField := encode 8
  digest words := words.flatMap bytesBe
  digestSize := 20
  lengthEight := encodeLength 8
  digestLength _ _ := rfl

def sha256K : List UInt32 := [
  0x428a2f98,0x71374491,0xb5c0fbcf,0xe9b5dba5,0x3956c25b,0x59f111f1,0x923f82a4,0xab1c5ed5,
  0xd807aa98,0x12835b01,0x243185be,0x550c7dc3,0x72be5d74,0x80deb1fe,0x9bdc06a7,0xc19bf174,
  0xe49b69c1,0xefbe4786,0x0fc19dc6,0x240ca1cc,0x2de92c6f,0x4a7484aa,0x5cb0a9dc,0x76f988da,
  0x983e5152,0xa831c66d,0xb00327c8,0xbf597fc7,0xc6e00bf3,0xd5a79147,0x06ca6351,0x14292967,
  0x27b70a85,0x2e1b2138,0x4d2c6dfc,0x53380d13,0x650a7354,0x766a0abb,0x81c2c92e,0x92722c85,
  0xa2bfe8a1,0xa81a664b,0xc24b8b70,0xc76c51a3,0xd192e819,0xd6990624,0xf40e3585,0x106aa070,
  0x19a4c116,0x1e376c08,0x2748774c,0x34b0bcb5,0x391c0cb3,0x4ed8aa4a,0x5b9cca4f,0x682e6ff3,
  0x748f82ee,0x78a5636f,0x84c87814,0x8cc70208,0x90befffa,0xa4506ceb,0xbef9a3f7,0xc67178f2]

def zsigma256_0 (x : UInt32) : UInt32 := rotr x 2 ^^^ rotr x 13 ^^^ rotr x 22
def zsigma256_1 (x : UInt32) : UInt32 := rotr x 6 ^^^ rotr x 11 ^^^ rotr x 25
def sigma256_0 (x : UInt32) : UInt32 := rotr x 7 ^^^ rotr x 18 ^^^ x >>> 3
def sigma256_1 (x : UInt32) : UInt32 := rotr x 17 ^^^ rotr x 19 ^^^ x >>> 10

structure Sha256Vars where
  w : List UInt32
  a : UInt32
  b : UInt32
  c : UInt32
  d : UInt32
  e : UInt32
  f : UInt32
  g : UInt32
  h : UInt32

def sha256Round (v : Sha256Vars) (t : Nat) : Sha256Vars :=
  let w := if 15 < t then
      v.w ++ [sigma256_1 (v.w.getD (t - 2) 0) + v.w.getD (t - 7) 0 + sigma256_0 (v.w.getD (t - 15) 0) +
        v.w.getD (t - 16) 0]
    else v.w
  let t1 := v.h + zsigma256_1 v.e + ch v.e v.f v.g + sha256K.getD t 0 + w.getD t 0
  let t2 := zsigma256_0 v.a + maj v.a v.b v.c
  ⟨w,t1 + t2,v.a,v.b,v.c,v.d + t1,v.e,v.f,v.g⟩

def rtSha256Hash (h : List UInt32) (block : Bytes) : List UInt32 :=
  let v := run sha256Round ⟨wordsBe block,h.getD 0 0,h.getD 1 0,h.getD 2 0,h.getD 3 0,h.getD 4 0,h.getD 5 0,h.getD 6 0,
    h.getD 7 0⟩ (range 64)
  [h.getD 0 0 + v.a,h.getD 1 0 + v.b,h.getD 2 0 + v.c,h.getD 3 0 + v.d,h.getD 4 0 + v.e,h.getD 5 0 + v.f,
    h.getD 6 0 + v.g,h.getD 7 0 + v.h]

def sha256 : HashAlg where
  defaultHashValue := [0x6a09e667,0xbb67ae85,0x3c6ef372,0xa54ff53a,0x510e527f,0x9b05688c,0x1f83d9ab,0x5be0cd19]
  hash := rtSha256Hash
  lengthField := encode 8
  digest words := words.flatMap bytesBe
  digestSize := 32
  lengthEight := encodeLength 8
  digestLength _ _ := rfl

def md5F (x y z : UInt32) : UInt32 := (x &&& y) ||| (~~~x &&& z)
def md5G (x y z : UInt32) : UInt32 := (x &&& z) ||| (y &&& ~~~z)
def md5H (x y z : UInt32) : UInt32 := x ^^^ y ^^^ z
def md5I (x y z : UInt32) : UInt32 := y ^^^ (x ||| ~~~z)

def md5Round1 : List (Nat × Nat × UInt32) := [
  (0,7,0xd76aa478),(1,12,0xe8c7b756),(2,17,0x242070db),(3,22,0xc1bdceee),
  (4,7,0xf57c0faf),(5,12,0x4787c62a),(6,17,0xa8304613),(7,22,0xfd469501),
  (8,7,0x698098d8),(9,12,0x8b44f7af),(10,17,0xffff5bb1),(11,22,0x895cd7be),
  (12,7,0x6b901122),(13,12,0xfd987193),(14,17,0xa679438e),(15,22,0x49b40821)]

def md5Round2 : List (Nat × Nat × UInt32) := [
  (1,5,0xf61e2562),(6,9,0xc040b340),(11,14,0x265e5a51),(0,20,0xe9b6c7aa),
  (5,5,0xd62f105d),(10,9,0x2441453),(15,14,0xd8a1e681),(4,20,0xe7d3fbc8),
  (9,5,0x21e1cde6),(14,9,0xc33707d6),(3,14,0xf4d50d87),(8,20,0x455a14ed),
  (13,5,0xa9e3e905),(2,9,0xfcefa3f8),(7,14,0x676f02d9),(12,20,0x8d2a4c8a)]

def md5Round3 : List (Nat × Nat × UInt32) := [
  (5,4,0xfffa3942),(8,11,0x8771f681),(11,16,0x6d9d6122),(14,23,0xfde5380c),
  (1,4,0xa4beea44),(4,11,0x4bdecfa9),(7,16,0xf6bb4b60),(10,23,0xbebfbc70),
  (13,4,0x289b7ec6),(0,11,0xeaa127fa),(3,16,0xd4ef3085),(6,23,0x4881d05),
  (9,4,0xd9d4d039),(12,11,0xe6db99e5),(15,16,0x1fa27cf8),(2,23,0xc4ac5665)]

def md5Round4 : List (Nat × Nat × UInt32) := [
  (0,6,0xf4292244),(7,10,0x432aff97),(14,15,0xab9423a7),(5,21,0xfc93a039),
  (12,6,0x655b59c3),(3,10,0x8f0ccc92),(10,15,0xffeff47d),(1,21,0x85845dd1),
  (8,6,0x6fa87e4f),(15,10,0xfe2ce6e0),(6,15,0xa3014314),(13,21,0x4e0811a1),
  (4,6,0xf7537e82),(11,10,0xbd3af235),(2,15,0x2ad7d2bb),(9,21,0xeb86d391)]

structure Md5Vars where
  a : UInt32
  b : UInt32
  c : UInt32
  d : UInt32

/- ROUND1 to ROUND4. The source passes the variables on one place further each time; here they move. -/
def md5Step (f : UInt32 → UInt32 → UInt32 → UInt32) (x : List UInt32) (v : Md5Vars)
    (line : Nat × Nat × UInt32) : Md5Vars :=
  ⟨v.d,rotl (v.a + (f v.b v.c v.d + x.getD line.1 0 + line.2.2)) line.2.1 + v.b,v.b,v.c⟩

def rtMd5Hash (h : List UInt32) (block : Bytes) : List UInt32 :=
  let x := wordsLe block
  let v := run (md5Step md5F x) ⟨h.getD 0 0,h.getD 1 0,h.getD 2 0,h.getD 3 0⟩ md5Round1
  let v := run (md5Step md5G x) v md5Round2
  let v := run (md5Step md5H x) v md5Round3
  let v := run (md5Step md5I x) v md5Round4
  [h.getD 0 0 + v.a,h.getD 1 0 + v.b,h.getD 2 0 + v.c,h.getD 3 0 + v.d]

def md5 : HashAlg where
  defaultHashValue := [0x67452301,0xefcdab89,0x98badcfe,0x10325476]
  hash := rtMd5Hash
  lengthField n := (encode 8 n).reverse
  digest words := words.flatMap fun w => (bytesBe w).reverse
  digestSize := 16
  lengthEight n := (length_reverse).trans (encodeLength 8 n)
  digestLength _ _ := rfl

def rtSha1Init : Context := init sha1
def rtSha1Append : Context → Bytes → Option Context := append sha1
def rtSha1End : Context → Option Bytes := finish sha1
def rtSha1 (message : Bytes) : Option Bytes := (rtSha1Append rtSha1Init message).bind rtSha1End

def rtSha256Init : Context := init sha256
def rtSha256Append : Context → Bytes → Option Context := append sha256
def rtSha256End : Context → Option Bytes := finish sha256
def rtSha256 (message : Bytes) : Option Bytes := (rtSha256Append rtSha256Init message).bind rtSha256End

def rtMd5Init : Context := init md5
def rtMd5Append : Context → Bytes → Option Context := append md5
def rtMd5End : Context → Option Bytes := finish md5
def rtMd5 (message : Bytes) : Option Bytes := (rtMd5Append rtMd5Init message).bind rtMd5End

theorem chunkingIrrelevant (chunks : List Bytes) (short : ∀ chunk ∈ chunks, chunk.length < 2 ^ 32)
    (small : chunks.flatten.length < 2 ^ 61) :
    (stream rtSha1Init rtSha1Append rtSha1End chunks = some (digestOf sha1 chunks.flatten) ↔ Fits 0 chunks) ∧
      (stream rtSha256Init rtSha256Append rtSha256End chunks = some (digestOf sha256 chunks.flatten) ↔ Fits 0 chunks) ∧
      (stream rtMd5Init rtMd5Append rtMd5End chunks = some (digestOf md5 chunks.flatten) ↔ Fits 0 chunks) :=
  ⟨streamIs sha1 short small,streamIs sha256 short small,streamIs md5 short small⟩

theorem chunkingIrrelevantAbc :
    stream rtSha1Init rtSha1Append rtSha1End [[97],[],[98,99]] = some (digestOf sha1 [97,98,99]) ∧
      stream rtSha256Init rtSha256Append rtSha256End [[97],[],[98,99]] = some (digestOf sha256 [97,98,99]) ∧
      stream rtMd5Init rtMd5Append rtMd5End [[97],[],[98,99]] = some (digestOf md5 [97,98,99]) := by
  obtain ⟨first,second,third⟩ := chunkingIrrelevant [[97],[],[98,99]] (by decide) (by decide)
  have fits : Fits 0 [[97],[],[98,99]] := ⟨by decide,by decide,by decide,trivial⟩
  exact ⟨first.mpr fits,second.mpr fits,third.mpr fits⟩

def hugeChunks : List Bytes := [[0],replicate (2 ^ 32 - 1) 0]

theorem hugeOverruns (alg) :
    stream (init alg) (append alg) (finish alg) hugeChunks ≠ some (digestOf alg hugeChunks.flatten) := by
  intro digest
  have short : ∀ chunk ∈ hugeChunks, chunk.length < 2 ^ 32 := by
    intro chunk mem
    rcases mem_cons.mp mem with rfl | mem
    · decide
    · rw [mem_singleton.mp mem,length_replicate]
      decide
  have small : hugeChunks.flatten.length < 2 ^ 61 := by
    rw [hugeChunks,flatten_cons,flatten_cons,length_append,length_append,length_replicate]
    decide
  have fits := ((streamIs alg short small).mp digest).2.1
  rw [length_replicate] at fits
  exact absurd fits (by decide)

theorem chunkOverruns :
    stream rtSha1Init rtSha1Append rtSha1End hugeChunks ≠ some (digestOf sha1 hugeChunks.flatten) ∧
      stream rtSha256Init rtSha256Append rtSha256End hugeChunks ≠ some (digestOf sha256 hugeChunks.flatten) ∧
      stream rtMd5Init rtMd5Append rtMd5End hugeChunks ≠ some (digestOf md5 hugeChunks.flatten) :=
  ⟨hugeOverruns sha1,hugeOverruns sha256,hugeOverruns md5⟩

end RtmpDriver.HashRounds
