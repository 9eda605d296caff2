import RtmpDriver.Ccmp
import RtmpDriver.WpaTransport

/-! AES_Key_Wrap and AES_Key_Unwrap as their callers see them, held against RFC 3394. The step counter reaches one byte
of A only; the unwrapping never looks at the A it recovers, nor PeerWpaMessageSanity at what it returned. -/
namespace RtmpDriver.KeyWrapRfc
open EapolFrame StepMachine Aes KeyWrap BigEndian ByteMemory WpaSupplicant EapolBuild List
open Ccmp (add32 sub32 xorBytes)

def aesKeyWrapIvLength : Nat := 8

/- `allocated` is the outcome of os_alloc_mem; the bytes of CipherText come with *CipherTextLength. -/
def aesKeyWrapCall (allocated : Bool) (key : Bytes) (keyLength : Nat) (plain : Bytes) : Except Int (Bytes × Nat) :=
  if ¬ aesKeyLength keyLength then .error (-1)
  else if !allocated then .error (-2)
  else .ok (aesKeyWrap (key.take keyLength) plain,add32 plain.length aesKeyWrapIvLength)

def unwrapped (key : Bytes) (cipher : Nat → UInt8) (cipherLength : Nat) : WrapState :=
  let plainLength := sub32 cipherLength aesKeyWrapIvLength
  run (unwrapStep key (plainLength / 8))
    ⟨load cipher 0 aesKeyWrapIvLength,load cipher aesKeyWrapIvLength plainLength⟩ (unwrapOrder (plainLength / 8))

def aesKeyUnwrapCall (allocated : Bool) (key : Bytes) (keyLength : Nat) (cipher : Nat → UInt8) (cipherLength : Nat) :
    Except Int (Bytes × Nat) :=
  if ¬ aesKeyLength keyLength then .error (-1)
  else if !allocated then .error (-2)
  else .ok ((unwrapped (key.take keyLength) cipher cipherLength).result,sub32 cipherLength aesKeyWrapIvLength)

def rfcStep (key : Bytes) (n : Nat) (s : WrapState) (index : Nat × Nat) : WrapState :=
  let block := rtAesEncrypt key (s.iv ++ chunk s.result index.2)
  ⟨xorBytes (block.take 8) (encode 8 (n * index.1 + index.2 + 1)),paste s.result index.2 (block.drop 8)⟩

def rfcWrap (key plain : Bytes) : Bytes :=
  let n := plain.length / 8
  let s := run (rfcStep key n) ⟨defaultIv,plain⟩ (wrapOrder n)
  s.iv ++ s.result

def CountersExact (key plain : Bytes) : Prop :=
  let n := plain.length / 8
  Meets (wrapStep key n) (fun s index => (wrapStep key n s index).iv = (rfcStep key n s index).iv)
    ⟨defaultIv,plain⟩ (wrapOrder n)

section Counter
variable {iv : Bytes} {t n : Nat} {index : Nat × Nat}

theorem stampSmall (length : iv.length = 8) (small : t < 256) : stamp t iv = xorBytes iv (encode 8 t) := by
  rw [encodeByte small 7]
  match iv,length with
  | [_,_,_,_,_,_,_,_],_ => simp [stamp,xorBytes,replicate]

theorem stampCarry (length : iv.length = 8) : stamp 256 iv ≠ xorBytes iv (encode 8 256) := by
  match iv,length with
  | [_,_,_,_,_,_,b,_],_ =>
    intro same
    have bytes : b = b ^^^ UInt8.ofNat 1 := by
      have sixth := congrArg (fun l : Bytes => l.getD 6 0) same
      exact sixth
    exact absurd (xor_left_eq_self_iff.mp bytes.symm) (by decide)

theorem stepOfOrder (mem : index ∈ wrapOrder n) : n * index.1 + index.2 + 1 ≤ 6 * n := by
  simp only [wrapOrder,mem_flatMap,mem_map,mem_range] at mem
  obtain ⟨j,round,i,small,rfl⟩ := mem
  have rounds : n * j ≤ n * 5 := Nat.mul_le_mul_left n (Nat.le_of_lt_succ round)
  show n * j + i + 1 ≤ 6 * n
  omega

theorem orderOfStep (many : 42 < n) : ∃ index ∈ wrapOrder n, n * index.1 + index.2 + 1 = 256 := by
  refine ⟨(255 / n,255 % n),?_,?_⟩
  · simp only [wrapOrder,mem_flatMap,mem_map,mem_range]
    refine ⟨255 / n,?_,255 % n,Nat.mod_lt _ (by omega),rfl⟩
    exact Nat.div_lt_of_lt_mul (by omega)
  · exact congrArg (· + 1) (Nat.div_add_mod 255 n)

theorem wrapStepRfc (key) (few : n ≤ 42) (s) (mem : index ∈ wrapOrder n) :
    wrapStep key n s index = rfcStep key n s index := by
  have step := stepOfOrder mem
  rw [wrapStep,rfcStep,stampSmall (encryptTake key _) (by omega)]

theorem countersExact {key plain} (size : plain.length = 8 * n) : CountersExact key plain ↔ n ≤ 42 := by
  have blocks : plain.length / 8 = n := by omega
  unfold CountersExact
  rw [blocks]
  constructor
  · intro meets
    by_contra many
    obtain ⟨index,mem,last⟩ := orderOfStep (Nat.lt_of_not_le many)
    obtain ⟨s,same⟩ := meetsAt mem meets
    rw [wrapStep,rfcStep,last] at same
    exact stampCarry (encryptTake key _) same
  · intro few
    exact meetsAll fun s index mem => congrArg WrapState.iv (wrapStepRfc key few s mem)

theorem wrapIsRfc (key) {plain} (few : plain.length / 8 ≤ 42) : aesKeyWrap key plain = rfcWrap key plain := by
  have same : run (wrapStep key (plain.length / 8)) ⟨defaultIv,plain⟩ (wrapOrder (plain.length / 8)) =
      run (rfcStep key (plain.length / 8)) ⟨defaultIv,plain⟩ (wrapOrder (plain.length / 8)) :=
    runCongr fun s _ mem => wrapStepRfc key few s mem
  rw [aesKeyWrap,rfcWrap,same]

end Counter

section Memory
variable {key cipher : Bytes} {memory : Nat → UInt8}

theorem plainLengthIs {length} (iv : 8 ≤ length) (fits : length < 2 ^ 32) :
    sub32 length aesKeyWrapIvLength = length - 8 := by
  unfold sub32 aesKeyWrapIvLength
  omega

theorem unwrappedLoads (key memory) {length} (iv : 8 ≤ length) (fits : length < 2 ^ 32) :
    unwrapped key memory length = run (unwrapStep key ((length - 8) / 8))
      ⟨load memory 0 8,load memory 8 (length - 8)⟩ (unwrapOrder ((length - 8) / 8)) := by
  simp only [unwrapped,plainLengthIs iv fits]
  simp only [aesKeyWrapIvLength]

theorem cipherParts (whole : Holds memory 0 cipher) (iv : 8 ≤ cipher.length) :
    load memory 0 8 = cipher.take 8 ∧ load memory 8 (cipher.length - 8) = cipher.drop 8 := by
  have parts : load memory 0 8 ++ load memory (0 + 8) (cipher.length - 8) = cipher := by
    rwa [← loadAppend,Nat.add_sub_cancel' iv]
  rw [Nat.zero_add] at parts
  generalize cipher.length - 8 = rest at parts ⊢
  rw [← parts,take_left' loadLength,drop_left' loadLength]
  exact ⟨rfl,rfl⟩

theorem listHolds (data : Bytes) : Holds (fun i => data.getD i 0) 0 data := by
  have whole : load (fun i => data.getD i 0) 0 data.length = slice data 0 data.length :=
    WpaTransport.bytesAtOf (fun _ _ => rfl) (Nat.zero_add _).le
  rw [Holds,whole,slice,drop_zero,take_length]

def wrapFrom (a key plain : Bytes) : Bytes :=
  let n := plain.length / 8
  let s := run (wrapStep key n) ⟨a,plain⟩ (wrapOrder n)
  s.iv ++ s.result

theorem unwrappedWrap {a} (eight : a.length = 8) (plain) (fits : plain.length + 8 < 2 ^ 32)
    (whole : Holds memory 0 (wrapFrom a key plain)) : unwrapped key memory (plain.length + 8) = ⟨a,plain⟩ := by
  have start : Sized plain.length ⟨a,plain⟩ := ⟨eight,rfl⟩
  have sized := runKeeps (fun _ _ mem => wrapStepSized key (orderInside mem)) start
  have length : (wrapFrom a key plain).length = plain.length + 8 := by
    simp only [wrapFrom,length_append,sized.iv,sized.result]
    omega
  have undone := unwrapUndoes key start
  obtain ⟨front,back⟩ := cipherParts whole (by omega)
  rw [length,Nat.add_sub_cancel] at back
  rwa [unwrappedLoads key memory (by omega) fits,Nat.add_sub_cancel,front,back,wrapFrom,
    take_left' sized.iv,drop_left' sized.iv]

theorem wrapUnwrapped {length} (iv : 8 ≤ length) (fits : length < 2 ^ 32)
    (authentic : (unwrapped key memory length).iv = defaultIv) :
    (unwrapped key memory length).result.length = length - 8 ∧
      load memory 0 length = aesKeyWrap key (unwrapped key memory length).result := by
  have sized : Sized (length - 8) ⟨load memory 0 8,load memory 8 (length - 8)⟩ := ⟨loadLength,loadLength⟩
  have loads := unwrappedLoads key memory iv fits
  have result := (unwrapSized key sized).result
  have again := wrapUndoes key sized
  rw [← loads] at result again
  generalize unwrapped key memory length = s at result again authentic ⊢
  obtain ⟨a,registers⟩ := s
  have same : a = defaultIv := authentic
  rw [same] at again
  refine ⟨result,?_⟩
  have text : aesKeyWrap key registers = load memory 0 8 ++ load memory 8 (length - 8) := by
    rw [aesKeyWrap,result,again]
  have split : load memory 0 (8 + (length - 8)) = load memory 0 8 ++ load memory (0 + 8) (length - 8) := loadAppend
  rw [Nat.add_sub_cancel' iv,Nat.zero_add] at split
  rw [split,text]

end Memory

section Calls
variable {key : Bytes} {keyLength : Nat}

theorem wrapCallDone (allowed : aesKeyLength keyLength) (plain) : aesKeyWrapCall true key keyLength plain =
    .ok (aesKeyWrap (key.take keyLength) plain,add32 plain.length aesKeyWrapIvLength) := by
  rw [aesKeyWrapCall,if_neg (not_not_intro allowed)]
  rfl

theorem unwrapCallDone (allowed : aesKeyLength keyLength) (cipher cipherLength) :
    aesKeyUnwrapCall true key keyLength cipher cipherLength =
      .ok ((unwrapped (key.take keyLength) cipher cipherLength).result,sub32 cipherLength aesKeyWrapIvLength) := by
  rw [aesKeyUnwrapCall,if_neg (not_not_intro allowed)]
  rfl

theorem unwrapCallOk {allocated cipher cipherLength} :
    (∃ out, aesKeyUnwrapCall allocated key keyLength cipher cipherLength = .ok out) ↔
      aesKeyLength keyLength ∧ allocated = true := by
  constructor
  · rintro ⟨out,call⟩
    unfold aesKeyUnwrapCall at call
    split at call
    · contradiction
    · rename_i allowed
      split at call
      · contradiction
      · rename_i memory
        exact ⟨not_not.mp allowed,by simpa using memory⟩
  · rintro ⟨allowed,rfl⟩
    exact ⟨_,unwrapCallDone allowed cipher cipherLength⟩

end Calls

structure FollowsRfc (key plain : Bytes) (n : Nat) : Prop where
  counters : CountersExact key plain
  wraps : aesKeyWrapCall true key key.length plain = .ok (rfcWrap key plain,8 * (n + 1))
  length : (rfcWrap key plain).length = 8 * (n + 1)
  unwraps : aesKeyUnwrapCall true key key.length (fun i => (rfcWrap key plain).getD i 0) (8 * (n + 1)) =
    .ok (plain,8 * n)

theorem wrapFollowsRfc (key plain : Bytes) (n : Nat) (allowed : aesKeyLength key.length)
    (size : plain.length = 8 * n) (two : 2 ≤ n) (fits : plain.length < 2 ^ 32) :
    FollowsRfc key plain n ↔ n ≤ 42 := by
  constructor
  · intro follows
    exact (countersExact size).mp follows.counters
  · intro few
    have same : aesKeyWrap key plain = rfcWrap key plain := wrapIsRfc key (by omega)
    have length : (rfcWrap key plain).length = 8 * (n + 1) := by
      rw [← same,aesWrapLength,size]
      rfl
    have cipherLength : plain.length + 8 = 8 * (n + 1) := by omega
    refine ⟨(countersExact size).mpr few,?_,length,?_⟩
    · have sum : add32 plain.length aesKeyWrapIvLength = 8 * (n + 1) := by
        unfold add32 aesKeyWrapIvLength
        omega
      rw [wrapCallDone allowed,take_length,same,sum]
    · have holds := listHolds (rfcWrap key plain)
      rw [← same] at holds ⊢
      have back := unwrappedWrap (a := defaultIv) rfl plain (by omega) holds
      rw [cipherLength] at back
      have left : sub32 (8 * (n + 1)) aesKeyWrapIvLength = 8 * n := by
        rw [plainLengthIs (by omega) (by omega)]
        omega
      rw [unwrapCallDone allowed,take_length,back,left]

theorem wrapFollowsRfcTwo : FollowsRfc (replicate 16 0) (replicate 16 7) 2 :=
  (wrapFollowsRfc (replicate 16 0) (replicate 16 7) 2 (by decide) (by decide) (by decide) (by decide)).mpr
    (by decide)

theorem wrapCounterLost : ¬ FollowsRfc (replicate 16 0) (replicate 344 0) 43 := by
  have lost (plain : Bytes) (size : plain.length = 8 * 43) : ¬ FollowsRfc (replicate 16 0) plain 43 :=
    fun follows => absurd ((countersExact size).mp follows.counters) (by decide)
  exact lost _ (by rw [length_replicate])

def IsWrapping (key : Bytes) (cipher : Nat → UInt8) (cipherLength : Nat) : Prop :=
  ∃ plain : Bytes, plain.length % 8 = 0 ∧ 16 ≤ plain.length ∧ load cipher 0 cipherLength = aesKeyWrap key plain

def Authenticates (allocated : Bool) (key : Bytes) (keyLength : Nat) (cipher : Nat → UInt8) (cipherLength : Nat) :
    Prop :=
  ∀ out, aesKeyUnwrapCall allocated key keyLength cipher cipherLength = .ok out →
    cipherLength % 8 = 0 ∧ 24 ≤ cipherLength ∧ (unwrapped (key.take keyLength) cipher cipherLength).iv = defaultIv

theorem isWrapping {key cipher cipherLength} (fits : cipherLength < 2 ^ 32) : IsWrapping key cipher cipherLength ↔
      cipherLength % 8 = 0 ∧ 24 ≤ cipherLength ∧ (unwrapped key cipher cipherLength).iv = defaultIv := by
  constructor
  · rintro ⟨plain,blocks,long,text⟩
    have length : cipherLength = plain.length + 8 := by
      rw [← aesWrapLength key plain,← text,loadLength]
    have holds : Holds cipher 0 (aesKeyWrap key plain) := by
      rwa [Holds,aesWrapLength,← length]
    have back := unwrappedWrap (a := defaultIv) rfl plain (by omega) holds
    rw [← length] at back
    exact ⟨by omega,by omega,congrArg WrapState.iv back⟩
  · rintro ⟨blocks,long,authentic⟩
    obtain ⟨length,text⟩ := wrapUnwrapped (by omega) fits authentic
    exact ⟨_,by omega,by omega,text⟩

theorem authenticates {allocated key keyLength cipher} {cipherLength}
    (fits : cipherLength < 2 ^ 32) : Authenticates allocated key keyLength cipher cipherLength ↔
      (aesKeyLength keyLength → allocated = true → IsWrapping (key.take keyLength) cipher cipherLength) := by
  rw [isWrapping fits]
  constructor
  · rintro authentic allowed rfl
    exact authentic _ (unwrapCallDone allowed cipher cipherLength)
  · intro wrapping out call
    obtain ⟨allowed,memory⟩ := unwrapCallOk.mp ⟨out,call⟩
    exact wrapping allowed memory

/- The call of AES_Key_Unwrap in PeerWpaMessageSanity; for less than 8 bytes it asks for 4 GB. -/
def sanityUnwrap (sta : Sta) (mem : Memory) (key : EapolKey) : Except Int (Bytes × Nat) :=
  aesKeyUnwrapCall (mem.unwrap && decide (8 ≤ key.keyDataLen)) (slice sta.entry.ptk lenPtkKck lenPtkKek) lenPtkKek
    (fun i => key.keyData.getD i 0) key.keyDataLen

/- The arguments of RTMPParseEapolKeyData, when PeerWpaMessageSanity comes to call it. -/
def parserCall (crypto : Crypto) (sta : Sta) (mem : Memory) (key : EapolKey) (type : MsgType) :
    Option (Bytes × Nat × Nat) :=
  if !mem.keyData then none
  else if replayDiffers sta.entry.rCounter type key.replayCounter then none
  else if type ≠ .pair1 ∧ key.keyMic ≠ expectedMic crypto sta.entry.ptk key then none
  else if key.keyDataLen = 0 then none
  else plainKeyData crypto sta.entry mem key type

structure Unwraps (entry : MacEntry) (key : EapolKey) (type : MsgType) : Prop where
  message : (type = .pair3 ∧ entry.authMode.isWpa2) ∨ type = .group1
  version : key.info.keyDescVer = keyDescExt ∨ key.info.keyDescVer = keyDescAes

structure Reaches (crypto : Crypto) (sta : Sta) (mem : Memory) (key : EapolKey) (type : MsgType) : Prop where
  buffer : mem.keyData = true
  fresh : replayDiffers sta.entry.rCounter type key.replayCounter = false
  mic : type = .pair1 ∨ key.keyMic = expectedMic crypto sta.entry.ptk key
  data : key.keyDataLen ≠ 0
  unwraps : Unwraps sta.entry key type

def ParsesUnwrapped (crypto : Crypto) (sta : Sta) (mem : Memory) (key : EapolKey) (type : MsgType) : Prop :=
  ∀ data len index, parserCall crypto sta mem key type = some (data,len,index) → Unwraps sta.entry key type →
    sanityUnwrap sta mem key = .ok (data,len)

section Sanity
variable {build : Build} {crypto : Crypto} {sta : Sta} {mem : Memory} {key : EapolKey} {type : MsgType}

theorem parserCallReached (reaches : Reaches crypto sta mem key type) :
    parserCall crypto sta mem key type = plainKeyData crypto sta.entry mem key type := by
  have mic : ¬ (type ≠ .pair1 ∧ key.keyMic ≠ expectedMic crypto sta.entry.ptk key) := by
    rintro ⟨first,differs⟩
    rcases reaches.mic with same | same
    · exact first same
    · exact differs same
  simp only [parserCall,reaches.buffer,reaches.fresh,if_neg mic,if_neg reaches.data]
  rfl

theorem reachedOfCall {out} (call : parserCall crypto sta mem key type = some out)
    (unwraps : Unwraps sta.entry key type) : Reaches crypto sta mem key type := by
  unfold parserCall at call
  split_ifs at call with buffer replay mic data
  refine ⟨by simpa using buffer,by simpa using replay,?_,data,unwraps⟩
  by_contra neither
  exact mic (not_or.mp neither)

end Sanity

section Driver
variable {digests : Digests} {sta : Sta} {mem : Memory} {elem : Elem} {type : MsgType}

theorem keyDataLenLt (elem) : (eapolKey elem).keyDataLen < 2 ^ 16 := by
  have high := (elem.msg (length80211 + length8021H + 97)).toNat_lt
  have low := (elem.msg (length80211 + length8021H + (97 + 1))).toNat_lt
  simp only [eapolKey,be16]
  omega

theorem sanityUnwrapOk (long : mem.unwrap = true ∧ 8 ≤ (eapolKey elem).keyDataLen) :
    sanityUnwrap sta mem (eapolKey elem) =
      .ok (aesKeyUnwrap (slice sta.entry.ptk lenPtkKck lenPtkKek) (eapolKey elem).keyData,
        (eapolKey elem).keyDataLen - 8) := by
  have fits := keyDataLenLt elem
  have length : (eapolKey elem).keyData.length = (eapolKey elem).keyDataLen := by
    simp only [eapolKey,bytesAt,length_map,length_range]
  have whole := listHolds (eapolKey elem).keyData
  obtain ⟨front,back⟩ := cipherParts whole (by omega)
  have key : (slice sta.entry.ptk lenPtkKck lenPtkKek).take lenPtkKek = slice sta.entry.ptk lenPtkKck lenPtkKek := by
    rw [slice,take_take,Nat.min_self]
  have memory : (mem.unwrap && decide (8 ≤ (eapolKey elem).keyDataLen)) = true := by
    simp [long]
  have allowed : aesKeyLength lenPtkKek := .inl rfl
  rw [sanityUnwrap,memory,unwrapCallDone allowed,key,plainLengthIs long.2 (by omega)]
  rw [length] at back
  rw [unwrappedLoads _ _ long.2 (by omega),front,back,aesKeyUnwrap,length_drop,length]

theorem plainKeyDataUnwraps (mem crypto) {key} (unwraps : Unwraps sta.entry key type) :
    ∃ index, plainKeyData crypto sta.entry mem key type =
      if mem.unwrap ∧ 8 ≤ key.keyDataLen then
        some (crypto.aesKeyUnwrap (slice sta.entry.ptk lenPtkKck lenPtkKek) key.keyData,key.keyDataLen - 8,index)
      else some ([],0,index) := by
  simp only [plainKeyData,if_pos unwraps.message,if_pos unwraps.version]
  exact ⟨_,rfl⟩

theorem parsesUnwrapped : ParsesUnwrapped (driverCrypto digests) sta mem (eapolKey elem) type ↔
    (Reaches (driverCrypto digests) sta mem (eapolKey elem) type →
      mem.unwrap = true ∧ 8 ≤ (eapolKey elem).keyDataLen) := by
  constructor
  · intro gated reaches
    by_contra failed
    obtain ⟨index,plain⟩ := plainKeyDataUnwraps mem (driverCrypto digests) reaches.unwraps
    rw [if_neg failed,← parserCallReached reaches] at plain
    obtain ⟨_,memory⟩ := unwrapCallOk.mp ⟨_,gated _ _ _ plain reaches.unwraps⟩
    exact failed (by simpa using memory)
  · intro enough data len index call unwraps
    have reaches := reachedOfCall call unwraps
    have long := enough reaches
    obtain ⟨found,plain⟩ := plainKeyDataUnwraps mem (driverCrypto digests) unwraps
    rw [if_pos long,← parserCallReached reaches,call] at plain
    cases plain
    exact sanityUnwrapOk long

end Driver

theorem unwrapGated (allocated : Bool) (key : Bytes) (keyLength : Nat) (cipher : Nat → UInt8) (cipherLength : Nat)
    (fits : cipherLength < 2 ^ 32) (digests : Digests) (sta : Sta) (mem : Memory) (elem : Elem) (type : MsgType) :
    (Authenticates allocated key keyLength cipher cipherLength ↔
        (aesKeyLength keyLength → allocated = true → IsWrapping (key.take keyLength) cipher cipherLength)) ∧
      (ParsesUnwrapped (driverCrypto digests) sta mem (eapolKey elem) type ↔
        (Reaches (driverCrypto digests) sta mem (eapolKey elem) type →
          mem.unwrap = true ∧ 8 ≤ (eapolKey elem).keyDataLen)) :=
  ⟨authenticates fits,parsesUnwrapped⟩

def zeroKeyData : Elem :=
  ⟨fun i => if i = 38 then 2 else if i = 48 then 1 else if 113 ≤ i ∧ i < 129 then 1 else if i = 130 then 24 else 0,155⟩

theorem unwrapGatedWrapping :
    Authenticates true (replicate 16 0) 16
        (fun i => (aesKeyWrap (replicate 16 0) (replicate 16 7)).getD i 0) 24 ∧
      ParsesUnwrapped (driverCrypto sampleDigests) (sampleSta .wpa2Psk .aesEnable) allMemory
        (eapolKey zeroKeyData) .pair3 := by
  have gated := unwrapGated true (replicate 16 0) 16
    (fun i => (aesKeyWrap (replicate 16 0) (replicate 16 7)).getD i 0) 24 (by decide)
    sampleDigests (sampleSta .wpa2Psk .aesEnable) allMemory zeroKeyData .pair3
  refine ⟨gated.1.mpr fun _ _ => ⟨replicate 16 7,rfl,by decide,?_⟩,gated.2.mpr fun _ => ⟨rfl,by decide⟩⟩
  have whole := listHolds (aesKeyWrap (replicate 16 0) (replicate 16 7))
  rw [Holds,aesWrapLength] at whole
  exact whole

def forgedKeyData : Bytes := wrapFrom (replicate 8 0) (replicate 16 0) (replicate 16 7)

theorem unwrapNotGated :
    ¬ Authenticates true (replicate 16 0) 16 (fun i => forgedKeyData.getD i 0) 24 ∧
      ¬ ParsesUnwrapped (driverCrypto sampleDigests) (sampleSta .wpa2Psk .aesEnable) ⟨true,false,true⟩
        (eapolKey zeroKeyData) .pair3 := by
  constructor
  · intro authentic
    have forged : unwrapped (replicate 16 0) (fun i => forgedKeyData.getD i 0) 24 =
        ⟨replicate 8 0,replicate 16 7⟩ :=
      unwrappedWrap (a := replicate 8 0) rfl (replicate 16 7) (by decide) (listHolds forgedKeyData)
    have checked := (authentic _ (unwrapCallDone (.inl rfl) _ _)).2.2
    have taken : (replicate 16 (0 : UInt8)).take 16 = replicate 16 0 := rfl
    rw [taken,forged] at checked
    exact absurd checked (by decide)
  · intro gated
    have reaches : Reaches (driverCrypto sampleDigests) (sampleSta .wpa2Psk .aesEnable) ⟨true,false,true⟩
        (eapolKey zeroKeyData) .pair3 :=
      ⟨rfl,by decide,.inr (by decide),by decide,⟨.inl ⟨rfl,rfl⟩,.inr (by decide)⟩⟩
    exact absurd (parsesUnwrapped.mp gated reaches).1 (by decide)

end RtmpDriver.KeyWrapRfc
