import RtmpDriver.HashRounds
import RtmpDriver.ByteMemory

/-! HMAC as `crypt_hmac.c` computes it. K0 is masked in place and then masked again from one pad to the other. -/
namespace RtmpDriver.Hmac
open EapolFrame BlockHash StreamHash HashRounds ByteMemory List

def ipad : UInt8 := 0x36
def opad : UInt8 := 0x5c

def oneShot (alg : HashAlg) (message : Bytes) : Option Bytes := (append alg (init alg) message).bind (finish alg)

def keyBlock (alg : HashAlg) (key : Bytes) : Option Bytes :=
  if key.length ≤ blockSize then moveInto (replicate blockSize 0) 0 key
  else (oneShot alg key).bind (moveInto (replicate blockSize 0) 0)

def hmac (alg : HashAlg) (key message : Bytes) (m : Nat → UInt8) (mac macLen : Nat) : Option (Nat → UInt8) := do
  let k0 ← keyBlock alg key
  let k0 := k0.map (· ^^^ ipad)
  let ctx1 ← append alg (init alg) k0
  let ctx1 ← append alg ctx1 message
  let digest ← finish alg ctx1
  let k0 := k0.map (· ^^^ (ipad ^^^ opad))
  let ctx2 ← append alg (init alg) k0
  let ctx2 ← append alg ctx2 digest
  let digest ← finish alg ctx2
  if macLen > alg.digestSize then some (store m mac (digest.take alg.digestSize))
  else some (store m mac (digest.take macLen))

def rtHmacSha1 := hmac sha1
def rtHmacSha256 := hmac sha256
def rtHmacMd5 := hmac md5

def zeroPadded (key : Bytes) : Bytes := key ++ replicate (blockSize - key.length) 0

def hmacKey (hash : Bytes → Bytes) (key : Bytes) : Bytes :=
  if key.length ≤ blockSize then zeroPadded key else zeroPadded (hash key)

def hmacOf (hash : Bytes → Bytes) (key message : Bytes) : Bytes :=
  hash ((hmacKey hash key).map (· ^^^ opad) ++ hash ((hmacKey hash key).map (· ^^^ ipad) ++ message))

section Correct
variable {alg : HashAlg} {key message : Bytes}

theorem firstChunk (alg) (fits : message.length < 2 ^ 32) :
    ∃ c, append alg (init alg) message = some c ∧ Reads alg c message ∧ c.messageLen = message.length := by
  have room : (init alg).blockLen + message.length < 2 ^ 32 := by
    show 0 + _ < _
    omega
  have small : ([] ++ message).length < 2 ^ 64 := by
    rw [nil_append]
    omega
  exact appendReads (initReads alg) rfl small room

theorem oneShotIs (alg) (fits : message.length < 2 ^ 32) : oneShot alg message = some (digestOf alg message) := by
  obtain ⟨c,appended,held,counted⟩ := firstChunk alg fits
  rw [oneShot,appended,Option.bind_some,finishReads held counted (by omega)]

theorem twoChunks (alg) {block} (whole : block.length = blockSize) (fits : message.length < 2 ^ 32) :
    ∃ c d, append alg (init alg) block = some c ∧ append alg c message = some d ∧
      finish alg d = some (digestOf alg (block ++ message)) := by
  have size : blockSize = 64 := rfl
  have total : (block ++ message).length = block.length + message.length := length_append
  have short : block.length < 2 ^ 32 := by omega
  obtain ⟨c,first,held,counted⟩ := firstChunk alg short
  have room : c.blockLen + message.length < 2 ^ 32 := by
    rw [held.blockLen,leftLength,whole,Nat.mod_self]
    omega
  obtain ⟨d,second,all,length⟩ := appendReads held counted (by omega) room
  exact ⟨c,d,first,second,finishReads all length (by omega)⟩

theorem moveFront (fits : key.length ≤ blockSize) :
    moveInto (replicate blockSize 0) 0 key = some (zeroPadded key) := by
  rw [moveInto,Nat.zero_add,if_pos fits,take_zero,nil_append,drop_replicate,zeroPadded]

theorem keyBlockIs (short : alg.digestSize ≤ blockSize) (fits : key.length < 2 ^ 32) :
    keyBlock alg key = some (hmacKey (digestOf alg) key) := by
  unfold keyBlock hmacKey
  split
  next inside => exact moveFront inside
  next =>
    rw [oneShotIs alg fits,Option.bind_some]
    apply moveFront
    rwa [digestOfLength]

theorem hmacKeyLength (short : alg.digestSize ≤ blockSize) : (hmacKey (digestOf alg) key).length = blockSize := by
  have padded {b : Bytes} (fits : b.length ≤ blockSize) : (zeroPadded b).length = blockSize := by
    rw [zeroPadded,length_append,length_replicate]
    omega
  unfold hmacKey
  split
  next inside => exact padded inside
  next =>
    apply padded
    rwa [digestOfLength]

theorem maskAgain (k0 : Bytes) : (k0.map (· ^^^ ipad)).map (· ^^^ (ipad ^^^ opad)) = k0.map (· ^^^ opad) := by
  rw [map_map]
  refine map_congr_left fun b _ => ?_
  show b ^^^ ipad ^^^ (ipad ^^^ opad) = b ^^^ opad
  rw [UInt8.xor_assoc,← UInt8.xor_assoc ipad,UInt8.xor_self,UInt8.zero_xor]

theorem hmacIs (short : alg.digestSize ≤ blockSize) (keyFits : key.length < 2 ^ 32)
    (messageFits : message.length < 2 ^ 32) (m mac macLen) : hmac alg key message m mac macLen =
      some (store m mac ((hmacOf (digestOf alg) key message).take (min macLen alg.digestSize))) := by
  have size : blockSize = 64 := rfl
  have length (mask : UInt8) : ((hmacKey (digestOf alg) key).map (· ^^^ mask)).length = blockSize := by
    rw [length_map,hmacKeyLength short]
  have digestFits : (digestOf alg ((hmacKey (digestOf alg) key).map (· ^^^ ipad) ++ message)).length < 2 ^ 32 := by
    rw [digestOfLength]
    omega
  obtain ⟨c,c',first,second,inner⟩ := twoChunks alg (length ipad) messageFits
  obtain ⟨d,d',third,fourth,outer⟩ := twoChunks alg (length opad) digestFits
  unfold hmac
  simp only [keyBlockIs short keyFits,bind,Option.bind_some,first,second,inner,maskAgain,third,fourth,outer]
  split
  next long => rw [Nat.min_eq_right (Nat.le_of_lt long),hmacOf]
  next inside => rw [Nat.min_eq_left (Nat.le_of_not_lt inside),hmacOf]

end Correct

theorem hmacFollows (key message : Bytes) (keyFits : key.length < 2 ^ 32) (messageFits : message.length < 2 ^ 32)
    (m : Nat → UInt8) (mac macLen : Nat) :
    (∀ text : Bytes, text.length < 2 ^ 32 → rtSha1 text = some (digestOf sha1 text) ∧
        rtSha256 text = some (digestOf sha256 text) ∧ rtMd5 text = some (digestOf md5 text)) ∧
      rtHmacSha1 key message m mac macLen =
        some (store m mac ((hmacOf (digestOf sha1) key message).take (min macLen 20))) ∧
      rtHmacSha256 key message m mac macLen =
        some (store m mac ((hmacOf (digestOf sha256) key message).take (min macLen 32))) ∧
      rtHmacMd5 key message m mac macLen =
        some (store m mac ((hmacOf (digestOf md5) key message).take (min macLen 16))) := by
  refine ⟨fun text fits => ⟨oneShotIs sha1 fits,oneShotIs sha256 fits,oneShotIs md5 fits⟩,?_,?_,?_⟩
  · exact hmacIs (by decide) keyFits messageFits m mac macLen
  · exact hmacIs (by decide) keyFits messageFits m mac macLen
  · exact hmacIs (by decide) keyFits messageFits m mac macLen

theorem hmacFollowsLongKey : rtHmacSha1 (List.replicate 80 0xaa) [84,101,115,116] (fun _ => 0) 5 12 =
    some (store (fun _ => 0) 5 ((hmacOf (digestOf sha1) (List.replicate 80 0xaa) [84,101,115,116]).take 12)) :=
  (hmacFollows (List.replicate 80 0xaa) [84,101,115,116] (by decide) (by decide) (fun _ => 0) 5 12).2.1

end RtmpDriver.Hmac
