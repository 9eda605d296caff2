import RtmpDriver.Aes
import RtmpDriver.EapolFrame

/-! The two ways a key data field is wrapped under the KEK: AES_Key_Wrap of `crypt_aes.c` and TKIP_GTK_KEY_WRAP of
`cmm_tkip.c` on top of ARC4. What is wrapped comes out of the unwrapping as it was. -/
namespace RtmpDriver.KeyWrap
open EapolFrame StepMachine Aes List

structure WrapState where
  iv : Bytes
  result : Bytes

def defaultIv : Bytes := replicate 8 0xa6

def chunk (buffer : Bytes) (i : Nat) : Bytes := (buffer.drop (8 * i)).take 8

def paste (buffer : Bytes) (i : Nat) (data : Bytes) : Bytes := buffer.take (8 * i) ++ data ++ buffer.drop (8 * i + 8)

-- `IV[7] ^= t`; the last byte only, whatever the size of the counter.
def stamp (t : Nat) (iv : Bytes) : Bytes := iv.take 7 ++ [iv.getD 7 0 ^^^ UInt8.ofNat t]

def wrapStep (key : Bytes) (n : Nat) (s : WrapState) (index : Nat × Nat) : WrapState :=
  let block := rtAesEncrypt key (s.iv ++ chunk s.result index.2)
  ⟨stamp (n * index.1 + index.2 + 1) (block.take 8),paste s.result index.2 (block.drop 8)⟩

def unwrapStep (key : Bytes) (n : Nat) (s : WrapState) (index : Nat × Nat) : WrapState :=
  let iv := stamp (n * index.1 + index.2 + 1) s.iv
  let block := rtAesDecrypt key (iv ++ chunk s.result index.2)
  ⟨block.take 8,paste s.result index.2 (block.drop 8)⟩

def wrapOrder (n : Nat) : List (Nat × Nat) := (range 6).flatMap fun j => (range n).map fun i => (j,i)

def unwrapOrder (n : Nat) : List (Nat × Nat) :=
  (range 6).reverse.flatMap fun j => (range n).reverse.map fun i => (j,i)

def aesKeyWrap (key plain : Bytes) : Bytes :=
  let n := plain.length / 8
  let s := run (wrapStep key n) ⟨defaultIv,plain⟩ (wrapOrder n)
  s.iv ++ s.result

def aesKeyUnwrap (key cipher : Bytes) : Bytes :=
  let plain := cipher.drop 8
  let n := plain.length / 8
  (run (unwrapStep key n) ⟨cipher.take 8,plain⟩ (unwrapOrder n)).result

theorem unwrapOrderReverse (n) : unwrapOrder n = (wrapOrder n).reverse := by
  simp [unwrapOrder,wrapOrder,reverse_flatMap,Function.comp_def]

theorem stampTwice {iv} (length : iv.length = 8) (t) : stamp t (stamp t iv) = iv := by
  match iv,length with
  | [_,_,_,_,_,_,_,_],_ => simp [stamp]

theorem stampLength {iv} (length : iv.length = 8) (t) : (stamp t iv).length = 8 := by
  simp [stamp,length]

section Paste
variable {buffer data : Bytes} {i : Nat}

theorem frontLength (inside : 8 * i + 8 ≤ buffer.length) : (buffer.take (8 * i)).length = 8 * i := by
  rw [length_take]
  omega

theorem pasteLength (inside : 8 * i + 8 ≤ buffer.length) (size : data.length = 8) :
    (paste buffer i data).length = buffer.length := by
  simp only [paste,length_append,frontLength inside,length_drop,size]
  omega

theorem chunkPaste (inside : 8 * i + 8 ≤ buffer.length) (size : data.length = 8) :
    chunk (paste buffer i data) i = data := by
  rw [chunk,paste,append_assoc,drop_left' (frontLength inside),take_left' size]

theorem pastePaste (inside : 8 * i + 8 ≤ buffer.length) (size : data.length = 8) (other) :
    paste (paste buffer i data) i other = paste buffer i other := by
  have both : (buffer.take (8 * i) ++ data).length = 8 * i + 8 := by
    rw [length_append,frontLength inside,size]
  have head : (paste buffer i data).take (8 * i) = buffer.take (8 * i) := by
    rw [paste,append_assoc]
    exact take_left' (frontLength inside)
  have tail : (paste buffer i data).drop (8 * i + 8) = buffer.drop (8 * i + 8) := drop_left' both
  rw [paste,head,tail,← paste]

theorem pasteChunk : paste buffer i (chunk buffer i) = buffer := by
  rw [paste,chunk,append_assoc,← drop_drop,take_append_drop,take_append_drop]

theorem chunkLength (inside : 8 * i + 8 ≤ buffer.length) : (chunk buffer i).length = 8 := by
  rw [chunk,length_take,length_drop]
  omega

end Paste

structure Sized (length : Nat) (s : WrapState) : Prop where
  iv : s.iv.length = 8
  result : s.result.length = length

section Wrap
variable (key : Bytes) {length : Nat} {s : WrapState} {index : Nat × Nat}

theorem orderInside {n} (mem : index ∈ wrapOrder n) : index.2 < n := by
  simp only [wrapOrder,mem_flatMap,mem_map,mem_range] at mem
  obtain ⟨j,_,i,small,rfl⟩ := mem
  exact small

theorem insideLength (small : index.2 < length / 8) (sized : Sized length s) :
    8 * index.2 + 8 ≤ s.result.length := by
  rw [sized.result]
  omega

theorem blockTake {block : Bytes} (length : block.length = 16) : (block.take 8).length = 8 := by
  rw [length_take,length]
  rfl

theorem blockDrop {block : Bytes} (length : block.length = 16) : (block.drop 8).length = 8 := by
  rw [length_drop,length]

theorem encryptTake (key plain) : ((rtAesEncrypt key plain).take 8).length = 8 :=
  blockTake (aesEncryptLength key plain)

theorem encryptDrop (key plain) : ((rtAesEncrypt key plain).drop 8).length = 8 :=
  blockDrop (aesEncryptLength key plain)

theorem wrapStepSized (small : index.2 < length / 8) (sized : Sized length s) :
    Sized length (wrapStep key (length / 8) s index) := by
  refine ⟨stampLength (encryptTake key _) _,?_⟩
  rw [wrapStep,pasteLength (insideLength small sized) (encryptDrop key _)]
  exact sized.result

theorem unwrapStepSized (small : index.2 < length / 8) (sized : Sized length s) :
    Sized length (unwrapStep key (length / 8) s index) := by
  refine ⟨blockTake (aesDecryptLength key _),?_⟩
  rw [unwrapStep,pasteLength (insideLength small sized) (blockDrop (aesDecryptLength key _))]
  exact sized.result

theorem inputBlock {iv} (eight : iv.length = 8) (small : index.2 < length / 8) (sized : Sized length s) :
    (iv ++ chunk s.result index.2).length = 16 := by
  rw [length_append,eight,chunkLength (insideLength small sized)]

theorem unwrapWrapStep (small : index.2 < length / 8) (sized : Sized length s) :
    unwrapStep key (length / 8) (wrapStep key (length / 8) s index) index = s := by
  have inside := insideLength small sized
  have block := inputBlock sized.iv small sized
  simp only [unwrapStep,wrapStep,stampTwice (encryptTake key _),chunkPaste inside (encryptDrop key _),
    take_append_drop,aesDecryptEncrypt key block,pastePaste inside (encryptDrop key _),
    take_left' sized.iv,drop_left' sized.iv,pasteChunk]

theorem wrapUnwrapStep (small : index.2 < length / 8) (sized : Sized length s) :
    wrapStep key (length / 8) (unwrapStep key (length / 8) s index) index = s := by
  have inside := insideLength small sized
  have eight := stampLength sized.iv (length / 8 * index.1 + index.2 + 1)
  have block := inputBlock eight small sized
  have half := blockDrop (aesDecryptLength key (stamp (length / 8 * index.1 + index.2 + 1) s.iv ++
    chunk s.result index.2))
  simp only [unwrapStep,wrapStep,chunkPaste inside half,take_append_drop,aesEncryptDecrypt key block,
    pastePaste inside half,take_left' eight,drop_left' eight,stampTwice sized.iv,pasteChunk]

theorem wrapSized (plain) : Sized plain.length
    (run (wrapStep key (plain.length / 8)) ⟨defaultIv,plain⟩ (wrapOrder (plain.length / 8))) :=
  runKeeps (fun _ _ mem => wrapStepSized key (orderInside mem)) ⟨rfl,rfl⟩

theorem unwrapSized (sized : Sized length s) :
    Sized length (run (unwrapStep key (length / 8)) s (unwrapOrder (length / 8))) := by
  rw [unwrapOrderReverse]
  exact runKeeps (fun _ _ mem => unwrapStepSized key (orderInside (mem_reverse.mp mem))) sized

theorem unwrapUndoes (sized : Sized length s) :
    run (unwrapStep key (length / 8)) (run (wrapStep key (length / 8)) s (wrapOrder (length / 8)))
      (unwrapOrder (length / 8)) = s := by
  rw [unwrapOrderReverse]
  exact runUndo id (Sized length) (fun _ _ mem => wrapStepSized key (orderInside mem))
    (fun _ _ mem => unwrapWrapStep key (orderInside mem)) sized

theorem wrapUndoes (sized : Sized length s) :
    run (wrapStep key (length / 8)) (run (unwrapStep key (length / 8)) s (unwrapOrder (length / 8)))
      (wrapOrder (length / 8)) = s := by
  have undone : run (wrapStep key (length / 8)) (run (unwrapStep key (length / 8)) s (wrapOrder (length / 8)).reverse)
      (wrapOrder (length / 8)).reverse.reverse = s :=
    runUndo id (Sized length) (fun _ _ mem => unwrapStepSized key (orderInside (mem_reverse.mp mem)))
      (fun _ _ mem => wrapUnwrapStep key (orderInside (mem_reverse.mp mem))) sized
  rw [reverse_reverse] at undone
  rwa [unwrapOrderReverse]

theorem aesUnwrapWrap (plain) : aesKeyUnwrap key (aesKeyWrap key plain) = plain := by
  have sized := wrapSized key plain
  have undone := unwrapUndoes key (s := ⟨defaultIv,plain⟩) ⟨rfl,rfl⟩
  simp only [aesKeyUnwrap,aesKeyWrap,take_left' sized.iv,drop_left' sized.iv,sized.result]
  exact congrArg WrapState.result undone

theorem aesUnwrapLength {cipher} (long : 8 ≤ cipher.length) :
    (aesKeyUnwrap key cipher).length = cipher.length - 8 := by
  have sized := unwrapSized key (s := ⟨cipher.take 8,cipher.drop 8⟩) ⟨by simpa using long,length_drop⟩
  rw [aesKeyUnwrap,length_drop]
  exact sized.result

theorem aesWrapLength (plain) : (aesKeyWrap key plain).length = plain.length + 8 := by
  have sized := wrapSized key plain
  simp only [aesKeyWrap,length_append,sized.iv,sized.result]
  omega

end Wrap

structure Arc4 where
  keyBlock : List UInt8
  blockIndex1 : Nat
  blockIndex2 : Nat

def swapIn (keyBlock : List UInt8) (i j : Nat) : List UInt8 :=
  (keyBlock.set i (keyBlock.getD j 0)).set j (keyBlock.getD i 0)

def arc4Schedule (key : Bytes) (s : List UInt8 × Nat) (i : Nat) : List UInt8 × Nat :=
  let swapIndex := (s.2 + (s.1.getD i 0).toNat + (key.getD (i % key.length) 0).toNat) % 256
  (swapIn s.1 i swapIndex,swapIndex)

def arc4Init (key : Bytes) : Arc4 :=
  ⟨(run (arc4Schedule key) ((range 256).map UInt8.ofNat,0) (range 256)).1,0,0⟩

def arc4Next (c : Arc4) : Arc4 :=
  let i := (c.blockIndex1 + 1) % 256
  let j := (c.blockIndex2 + (c.keyBlock.getD i 0).toNat) % 256
  ⟨swapIn c.keyBlock i j,i,j⟩

def arc4Byte (c : Arc4) : UInt8 :=
  let t := ((c.keyBlock.getD c.blockIndex2 0).toNat + (c.keyBlock.getD c.blockIndex1 0).toNat) % 256
  c.keyBlock.getD t 0

def arc4DiscardKeyLength (c : Arc4) (length : Nat) : Arc4 := run (fun c _ => arc4Next c) c (range length)

def arc4Compute : Arc4 → Bytes → Arc4 × Bytes
  | c,[] => (c,[])
  | c,b :: rest =>
    let next := arc4Next c
    let later := arc4Compute next rest
    (later.1,(b ^^^ arc4Byte next) :: later.2)

def arc4Text (c : Arc4) (data : Bytes) : Bytes := (arc4Compute c data).2

def tkipGtkKeyWrap (allocated : Bool) (kek iv input output : Bytes) : Bytes :=
  if allocated then arc4Text (arc4DiscardKeyLength (arc4Init (iv ++ kek)) 256) input else output

def tkipGtkKeyUnwrap (allocated : Bool) (kek iv input output : Bytes) : Bytes :=
  tkipGtkKeyWrap allocated kek iv input output

theorem arc4Cons (c b rest) : arc4Text c (b :: rest) =
    (b ^^^ arc4Byte (arc4Next c)) :: arc4Text (arc4Next c) rest := rfl

theorem arc4Twice (c data) : arc4Text c (arc4Text c data) = data := by
  induction data generalizing c with
  | nil => rfl
  | cons b rest ih => simp only [arc4Cons,ih,xor_cancel_right]

theorem arc4Length (c data) : (arc4Text c data).length = data.length := by
  induction data generalizing c with
  | nil => rfl
  | cons b rest ih => simp [arc4Cons,ih]

theorem tkipWrapLength (kek iv data output) : (tkipGtkKeyWrap true kek iv data output).length = data.length :=
  arc4Length _ data

theorem tkipUnwrapWrap (kek iv data output output') :
    tkipGtkKeyUnwrap true kek iv (tkipGtkKeyWrap true kek iv data output) output' = data :=
  arc4Twice _ data

end RtmpDriver.KeyWrap
