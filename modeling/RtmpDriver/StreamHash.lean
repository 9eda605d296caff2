import RtmpDriver.BlockHash
import RtmpDriver.EapolFrame

/-! The streaming hashes of `crypt_sha2.c` and `crypt_md5.c`. Init, Append and End are the same code three times over,
about a compression function, a way to write the length and one to write the digest; `HashAlg` holds these. -/
namespace RtmpDriver.StreamHash
open EapolFrame BlockHash List

def blockSize : Nat := 64

structure HashAlg where
  defaultHashValue : List UInt32
  hash : List UInt32 → Bytes → List UInt32
  lengthField : Nat → Bytes
  digest : List UInt32 → Bytes
  digestSize : Nat
  lengthEight : ∀ n, (lengthField n).length = 8
  digestLength : ∀ words block, (digest (hash words block)).length = digestSize

/- SHA1_CTX_STRUC and its like. MessageLen is a UINT64, BlockLen a UINT. -/
structure Context where
  hashValue : List UInt32
  messageLen : Nat
  block : Bytes
  blockLen : Nat

def init (alg : HashAlg) : Context := ⟨alg.defaultHashValue,0,replicate blockSize 0,0⟩

def hashBlock (alg : HashAlg) (c : Context) : Context :=
  {c with hashValue := alg.hash c.hashValue c.block, block := replicate blockSize 0, blockLen := 0}

def moveInto (block : Bytes) (offset : Nat) (data : Bytes) : Option Bytes :=
  if offset + data.length ≤ blockSize then some (block.take offset ++ data ++ block.drop (offset + data.length))
  else none

def appendLoop (alg : HashAlg) : Nat → Context → Bytes → Option Context
  | 0,_,_ => none
  | fuel + 1,c,rest =>
    if rest.length = 0 then some c
    else if (c.blockLen + rest.length) % 2 ^ 32 < blockSize then
      (moveInto c.block c.blockLen rest).bind fun block =>
        appendLoop alg fuel {c with block := block, blockLen := (c.blockLen + rest.length) % 2 ^ 32} []
    else
      let copy := blockSize - c.blockLen
      (moveInto c.block c.blockLen (rest.take copy)).bind fun block =>
        appendLoop alg fuel (hashBlock alg {c with block := block, blockLen := blockSize}) (rest.drop copy)

def append (alg : HashAlg) (c : Context) (message : Bytes) : Option Context :=
  (appendLoop alg (message.length + 1) c message).map fun c =>
    {c with messageLen := (c.messageLen + message.length) % 2 ^ 64}

def finish (alg : HashAlg) (c : Context) : Option Bytes :=
  (moveInto c.block c.blockLen [0x80]).bind fun block =>
    let c := if 55 < c.blockLen then hashBlock alg {c with block := block} else {c with block := block}
    (moveInto c.block 56 (alg.lengthField (c.messageLen * 8 % 2 ^ 64))).map fun block =>
      alg.digest (hashBlock alg {c with block := block}).hashValue

def appendAll (append : Context → Bytes → Option Context) : Context → List Bytes → Option Context
  | c,[] => some c
  | c,chunk :: rest => (append c chunk).bind fun c => appendAll append c rest

def stream (init : Context) (append : Context → Bytes → Option Context) (finish : Context → Option Bytes)
    (chunks : List Bytes) : Option Bytes := (appendAll append init chunks).bind finish

def padded (alg : HashAlg) (m : Bytes) : Bytes :=
  m ++ ([0x80] ++ replicate ((64 - (m.length + 9) % 64) % 64) 0 ++ alg.lengthField (8 * m.length))

def digestOf (alg : HashAlg) (m : Bytes) : Bytes :=
  alg.digest (fold alg.hash blockSize alg.defaultHashValue (padded alg m))

def Fits : Nat → List Bytes → Prop
  | _,[] => True
  | before,chunk :: rest => before % blockSize + chunk.length < 2 ^ 32 ∧ Fits (before + chunk.length) rest

section Context
variable {alg : HashAlg} {c : Context} {text rest block : Bytes} {fuel : Nat}

structure Reads (alg : HashAlg) (c : Context) (text : Bytes) : Prop where
  hashValue : c.hashValue = fold alg.hash blockSize alg.defaultHashValue text
  block : c.block = left blockSize text ++ replicate (blockSize - (left blockSize text).length) 0
  blockLen : c.blockLen = (left blockSize text).length

theorem leftBound (text : Bytes) : (left blockSize text).length < blockSize := by
  rw [leftLength]
  exact Nat.mod_lt _ (by decide)

theorem initReads (alg) : Reads alg (init alg) [] := ⟨rfl,rfl,rfl⟩

theorem moveReads (reads : Reads alg c text) (room : c.blockLen + rest.length ≤ blockSize) :
    moveInto c.block c.blockLen rest =
      some (left blockSize text ++ rest ++ replicate (blockSize - (c.blockLen + rest.length)) 0) := by
  have behind : c.block.drop (c.blockLen + rest.length) =
      replicate (blockSize - (c.blockLen + rest.length)) 0 := by
    rw [← drop_drop,reads.block,reads.blockLen,drop_left,drop_replicate]
    congr 1
    omega
  have before : c.block.take c.blockLen = left blockSize text := by
    rw [reads.block,reads.blockLen,take_left]
  rw [moveInto,if_pos room,behind,before]

theorem readsMore (reads : Reads alg c text) (short : c.blockLen + rest.length < blockSize) (messageLen) :
    Reads alg ⟨c.hashValue,messageLen,
      left blockSize text ++ rest ++ replicate (blockSize - (c.blockLen + rest.length)) 0,
      c.blockLen + rest.length⟩ (text ++ rest) := by
  have fits : (left blockSize text).length + rest.length < blockSize := by rwa [← reads.blockLen]
  obtain ⟨value,held⟩ := foldMore alg.hash alg.defaultHashValue (by decide) fits
  refine ⟨?_,?_,?_⟩
  · rw [value]
    exact reads.hashValue
  · rw [held,length_append,reads.blockLen]
  · rw [held,length_append,reads.blockLen]

theorem readsFull (reads : Reads alg c text) (full : c.blockLen + rest.length = blockSize) (messageLen blockLen) :
    Reads alg (hashBlock alg ⟨c.hashValue,messageLen,
      left blockSize text ++ rest ++ replicate (blockSize - (c.blockLen + rest.length)) 0,blockLen⟩)
      (text ++ rest) := by
  have fits : (left blockSize text).length + rest.length = blockSize := by rwa [← reads.blockLen]
  obtain ⟨value,held⟩ := foldFull alg.hash alg.defaultHashValue (by decide) fits
  refine ⟨?_,?_,?_⟩
  · rw [value,← reads.hashValue,full,Nat.sub_self]
    exact congrArg (alg.hash c.hashValue) (append_nil _)
  · rw [held]
    rfl
  · rw [held]
    rfl

theorem appendLoopReads (reads : Reads alg c text) (fits : c.blockLen + rest.length < 2 ^ 32)
    (enough : rest.length < fuel) :
    ∃ next, appendLoop alg fuel c rest = some next ∧ Reads alg next (text ++ rest) ∧
      next.messageLen = c.messageLen := by
  induction fuel generalizing c text rest with
  | zero => omega
  | succ fuel ih =>
    have bound : c.blockLen < blockSize := reads.blockLen ▸ leftBound text
    have sum : (c.blockLen + rest.length) % 2 ^ 32 = c.blockLen + rest.length := Nat.mod_eq_of_lt fits
    by_cases empty : rest.length = 0
    · refine ⟨c,?_,?_,rfl⟩
      · rw [appendLoop,if_pos empty]
      · rwa [length_eq_zero_iff.mp empty,append_nil]
    by_cases short : c.blockLen + rest.length < blockSize
    · have more := readsMore reads short c.messageLen
      obtain ⟨next,loop,held,kept⟩ := @ih _ _ [] more (by
        simp only [length_nil]
        omega) (by
        simp only [length_nil]
        omega)
      refine ⟨next,?_,?_,kept⟩
      · rwa [appendLoop,if_neg empty,sum,if_pos short,moveReads reads short.le,Option.bind_some]
      · rwa [append_nil] at held
    · have copied : (rest.take (blockSize - c.blockLen)).length = blockSize - c.blockLen := by
        rw [length_take]
        omega
      have full : c.blockLen + (rest.take (blockSize - c.blockLen)).length = blockSize := by omega
      have hashed := readsFull reads full c.messageLen blockSize
      have remaining : (rest.drop (blockSize - c.blockLen)).length = rest.length - (blockSize - c.blockLen) :=
        length_drop
      obtain ⟨next,loop,held,kept⟩ := @ih _ _ (rest.drop (blockSize - c.blockLen)) hashed (by
        show 0 + _ < _
        omega) (by omega)
      refine ⟨next,?_,?_,kept⟩
      · rw [appendLoop,if_neg empty,sum,if_neg short]
        simp only [moveReads reads full.le,Option.bind_some]
        exact loop
      · rwa [append_assoc,take_append_drop] at held

theorem appendOverruns (reads : Reads alg c text) (wraps : 2 ^ 32 ≤ c.blockLen + rest.length)
    (short : rest.length < 2 ^ 32) : append alg c rest = none := by
  have bound : c.blockLen < blockSize := reads.blockLen ▸ leftBound text
  unfold blockSize at bound
  have sum : (c.blockLen + rest.length) % 2 ^ 32 < blockSize := by
    unfold blockSize
    omega
  have room : ¬ c.blockLen + rest.length ≤ blockSize := by
    unfold blockSize
    omega
  rw [append,appendLoop,if_neg (by omega),if_pos sum,moveInto,if_neg room]
  rfl

theorem appendReads (reads : Reads alg c text) (counted : c.messageLen = text.length)
    (small : (text ++ rest).length < 2 ^ 64) (fits : c.blockLen + rest.length < 2 ^ 32) :
    ∃ next, append alg c rest = some next ∧ Reads alg next (text ++ rest) ∧
      next.messageLen = (text ++ rest).length := by
  obtain ⟨next,loop,held,kept⟩ := appendLoopReads reads fits (Nat.lt_succ_self _)
  refine ⟨{next with messageLen := (next.messageLen + rest.length) % 2 ^ 64},?_,
    ⟨held.hashValue,held.block,held.blockLen⟩,?_⟩
  · rw [append,loop]
    rfl
  · rw [kept,counted,← length_append,Nat.mod_eq_of_lt small]

theorem moveLength (front field) (room : front.length ≤ 56) (eight : field.length = 8) :
    moveInto (front ++ replicate (blockSize - front.length) 0) 56 field =
      some (front ++ (replicate (56 - front.length) 0 ++ field)) := by
  have split : replicate (blockSize - front.length) (0 : UInt8) =
      replicate (56 - front.length) 0 ++ replicate 8 0 := by
    rw [replicate_append_replicate]
    congr 1
    unfold blockSize
    omega
  have place : (front ++ replicate (56 - front.length) (0 : UInt8)).length = 56 := by
    rw [length_append,length_replicate]
    omega
  have whole : (front ++ replicate (56 - front.length) (0 : UInt8) ++ replicate 8 0).length ≤ 56 + 8 := by
    rw [length_append,place,length_replicate]
  rw [moveInto,if_pos (by rw [eight]; decide),split,← append_assoc,take_left' place,eight,
    drop_of_length_le whole,append_nil,append_assoc]

theorem foldOne (h) {field} (room : (left blockSize text).length ≤ 55) (eight : field.length = 8) :
    fold alg.hash blockSize h (text ++ ([0x80] ++ replicate (55 - (left blockSize text).length) 0 ++ field)) =
      alg.hash (fold alg.hash blockSize h text)
        (left blockSize text ++ [0x80] ++ (replicate (55 - (left blockSize text).length) 0 ++ field)) := by
  have full : (left blockSize text).length + ([0x80] ++ replicate (55 - (left blockSize text).length) (0 : UInt8) ++
      field).length = blockSize := by
    simp only [length_append,length_singleton,length_replicate,eight,blockSize] at room ⊢
    omega
  rw [(foldFull alg.hash h (by decide) full).1]
  simp only [append_assoc]

theorem foldTwo (h : List UInt32) {field} (eight : field.length = 8) : fold alg.hash blockSize h
        (text ++ ([0x80] ++ (replicate (63 - (left blockSize text).length) 0 ++ replicate 56 0) ++ field)) =
      alg.hash (alg.hash (fold alg.hash blockSize h text)
        (left blockSize text ++ [0x80] ++ replicate (63 - (left blockSize text).length) 0))
        (replicate 56 0 ++ field) := by
  have bound := leftBound text
  generalize closing : [0x80] ++ replicate (63 - (left blockSize text).length) (0 : UInt8) = first
  have full : (left blockSize text).length + first.length = blockSize := by
    rw [← closing]
    simp only [length_append,length_singleton,length_replicate,blockSize] at bound ⊢
    omega
  obtain ⟨value,ended⟩ := foldFull alg.hash h (by decide) full
  have last : (left blockSize (text ++ first)).length + (replicate 56 0 ++ field).length = blockSize := by
    rw [ended,length_append,length_replicate,eight]
    rfl
  have parts : text ++ ([0x80] ++ (replicate (63 - (left blockSize text).length) 0 ++ replicate 56 0) ++ field) =
      text ++ first ++ (replicate 56 0 ++ field) := by
    rw [← closing]
    simp only [append_assoc]
  rw [parts,(foldFull alg.hash h (by decide) last).1,value,ended,append_assoc,closing,nil_append]

theorem finishReads (reads : Reads alg c text) (counted : c.messageLen = text.length) (small : text.length < 2 ^ 61) :
    finish alg c = some (digestOf alg text) := by
  have residue : (left blockSize text).length = text.length % 64 := leftLength blockSize text
  have eight := alg.lengthEight (8 * text.length)
  have bits : c.messageLen * 8 % 2 ^ 64 = 8 * text.length := by
    rw [counted]
    omega
  have size : blockSize = 64 := rfl
  have front : (left blockSize text ++ [0x80]).length = (left blockSize text).length + 1 := length_append
  have behind : blockSize - (left blockSize text ++ [0x80]).length = 63 - (left blockSize text).length := by omega
  have marked : moveInto c.block c.blockLen [0x80] =
      some (left blockSize text ++ [0x80] ++ replicate (63 - (left blockSize text).length) 0) := by
    rw [moveReads reads (by rw [reads.blockLen]; exact leftBound text),reads.blockLen,← behind,length_append]
  rw [finish,marked,Option.bind_some,digestOf,padded,reads.blockLen]
  by_cases long : 55 < (left blockSize text).length
  · have zeros : replicate ((64 - (text.length + 9) % 64) % 64) (0 : UInt8) =
        replicate (63 - (left blockSize text).length) 0 ++ replicate 56 0 := by
      rw [replicate_append_replicate]
      congr 1
      omega
    have placed : moveInto (replicate blockSize 0) 56 (alg.lengthField (8 * text.length)) =
        some (replicate 56 0 ++ alg.lengthField (8 * text.length)) := moveLength [] _ (by decide) eight
    simp only [if_pos long,hashBlock,bits,placed,Option.map_some]
    rw [zeros,foldTwo _ eight,← reads.hashValue]
  · have zeros : (64 - (text.length + 9) % 64) % 64 = 55 - (left blockSize text).length := by omega
    have placed := moveLength (left blockSize text ++ [0x80]) (alg.lengthField (8 * text.length)) (by omega) eight
    have least : 56 - (left blockSize text ++ [0x80]).length = 55 - (left blockSize text).length := by omega
    rw [behind,least] at placed
    simp only [if_neg long,hashBlock,bits,placed,Option.map_some]
    rw [zeros,foldOne _ (by omega) eight,← reads.hashValue]

theorem appendAllReads {chunks} (reads : Reads alg c text) (counted : c.messageLen = text.length)
    (small : (text ++ chunks.flatten).length < 2 ^ 61) (fits : Fits text.length chunks) :
    ∃ next, appendAll (append alg) c chunks = some next ∧ Reads alg next (text ++ chunks.flatten) ∧
      next.messageLen = (text ++ chunks.flatten).length := by
  induction chunks generalizing c text with
  | nil =>
    refine ⟨c,rfl,?_,?_⟩
    · rwa [flatten_nil,append_nil]
    · rwa [flatten_nil,append_nil]
  | cons chunk rest ih =>
    obtain ⟨now,later⟩ := fits
    rw [flatten_cons,← append_assoc] at small ⊢
    have room : c.blockLen + chunk.length < 2 ^ 32 := by rwa [reads.blockLen,leftLength]
    have part : (text ++ chunk).length < 2 ^ 64 := by
      rw [length_append] at small
      omega
    obtain ⟨next,appended,held,length⟩ := appendReads reads counted part room
    rw [← length_append] at later
    obtain ⟨last,all,whole,total⟩ := ih held length small later
    refine ⟨last,?_,whole,total⟩
    rwa [appendAll,appended]

theorem appendAllOverruns {chunks} (reads : Reads alg c text) (counted : c.messageLen = text.length)
    (small : (text ++ chunks.flatten).length < 2 ^ 61) (short : ∀ chunk ∈ chunks, chunk.length < 2 ^ 32)
    (wraps : ¬ Fits text.length chunks) : appendAll (append alg) c chunks = none := by
  induction chunks generalizing c text with
  | nil => exact absurd trivial wraps
  | cons chunk rest ih =>
    rw [flatten_cons,← append_assoc] at small
    by_cases room : c.blockLen + chunk.length < 2 ^ 32
    · have part : (text ++ chunk).length < 2 ^ 64 := by
        rw [length_append] at small
        omega
      obtain ⟨next,appended,held,length⟩ := appendReads reads counted part room
      have later : ¬ Fits (text ++ chunk).length rest := by
        intro fits
        rw [length_append] at fits
        rw [reads.blockLen,leftLength] at room
        exact wraps ⟨room,fits⟩
      rw [appendAll,appended]
      exact ih held length small (fun b mem => short b (mem_cons_of_mem _ mem)) later
    · rw [appendAll,appendOverruns reads (Nat.le_of_not_lt room) (short chunk mem_cons_self)]
      rfl

end Context

theorem streamIs (alg) {chunks} (short : ∀ chunk ∈ chunks, chunk.length < 2 ^ 32)
    (small : chunks.flatten.length < 2 ^ 61) :
    stream (init alg) (append alg) (finish alg) chunks = some (digestOf alg chunks.flatten) ↔ Fits 0 chunks := by
  have start := initReads alg
  constructor
  · intro digest
    by_contra wraps
    rw [stream,appendAllOverruns start rfl small short wraps] at digest
    contradiction
  · intro fits
    obtain ⟨c,all,held,total⟩ := appendAllReads start rfl small fits
    rw [stream,all]
    exact finishReads held total small

theorem digestOfLength (alg m) : (digestOf alg m).length = alg.digestSize := by
  have full : blockSize ≤ (padded alg m).length := by
    have eight := alg.lengthEight (8 * m.length)
    have size : blockSize = 64 := rfl
    simp only [padded,length_append,length_singleton,length_replicate]
    omega
  obtain ⟨words,block,last⟩ := foldLast alg.hash alg.defaultHashValue (by decide) full
  rw [digestOf,last]
  exact alg.digestLength words block

end RtmpDriver.StreamHash
