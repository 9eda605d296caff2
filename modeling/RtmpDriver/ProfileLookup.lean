import RtmpDriver.AccessLog
import RtmpDriver.ByteMemory
import RtmpDriver.LineSearch

/-! `RTMPGetKeyParameter`: the value of a key in the text of the profile. A pointer into a NUL-terminated text is the
part of the text from there on. -/
namespace RtmpDriver.ProfileLookup
open AccessLog ByteMemory LineSearch List

def newline : UInt8 := 10
def equals : UInt8 := 61
def space : UInt8 := 32
def tab : UInt8 := 9

def sectionWord : List UInt8 := [68,101,102,97,117,108,116]

def maxParamBufferSize : Nat := 2048

def rtstrstr (s1 s2 : List UInt8) : Option (List UInt8) :=
  match s1 with
  | [] => if s2 = [] then some [] else none
  | c :: rest =>
    if s2.length ≤ (c :: rest).length then
      if s2 <+: c :: rest then some (c :: rest) else rtstrstr rest s2
    else none

/- The pointer is moved on by the length of a newline. -/
def rtmpFindSection (buffer : List UInt8) : Option (List UInt8) := (rtstrstr buffer sectionWord).map (drop 1)

inductive Target where
  | temp
  | dest
  deriving DecidableEq, Repr

structure Write where
  target : Target
  span : Span
  deriving DecidableEq, Repr

def writes (target : Target) (start size : Nat) : Logged Write PUnit := note ⟨target,start,size⟩

/- The string at `p`, its terminator among the next `n` bytes. -/
def cString (m : Nat → UInt8) (p n : Nat) : List UInt8 := (load m p n).takeWhile (· ≠ 0)

/- The loop's own test is on the equals sign in front of the value and always holds. -/
def trimLoop (bTrimSpace : Bool) : List UInt8 → List UInt8
  | [] => []
  | c :: rest => if (c = space ∧ bTrimSpace = true) ∨ c = tab then trimLoop bTrimSpace rest else c :: rest

/- `n` bytes are written: the text up to them, and zeros behind a shorter one. -/
def strncpy (dest : Nat → UInt8) (s : List UInt8) (n : Nat) : Nat → UInt8 :=
  store dest 0 (s.take n ++ replicate (n - s.length) 0)

def lineSize (start : List UInt8) : Nat :=
  match rtstrstr start [newline] with
  | none => start.length
  | some rest => start.length - rest.length

def rtmpGetKeyParameter (key : List UInt8) (dest : Nat → UInt8) (destsize : Nat) (buffer : List UInt8)
    (bTrimSpace : Bool) : Logged Write (Bool × (Nat → UInt8)) := do
  writes .temp 0 (maxParamBufferSize * 2)
  match rtmpFindSection buffer with
  | none => pure (false,dest)
  | some offset =>
    writes .temp 0 2
    writes .temp 1 (key.length + 1)
    writes .temp (1 + key.length) 2
    match rtstrstr offset (newline :: (key ++ [equals])) with
    | none => pure (false,dest)
    | some found =>
      let start := found.drop 1
      let len := lineSize start
      let m := store (fun _ => 0) maxParamBufferSize (start.take len)
      writes .temp maxParamBufferSize len
      let m := store m (maxParamBufferSize + len) [0]
      writes .temp (maxParamBufferSize + len) 1
      match rtstrstr (cString m maxParamBufferSize (len + 1)) [equals] with
      | none => pure (false,dest)
      | some start =>
        let ptr := trimLoop bTrimSpace (start.drop 1)
        let n := if start.length ≥ destsize then destsize else start.length
        writes .dest 0 destsize
        let dest := store dest 0 (replicate destsize 0)
        writes .dest 0 n
        pure (true,strncpy dest ptr n)

/-! What the lookup is for. -/

def InBounds (destsize : Nat) (w : Write) : Prop :=
  match w.target with
  | .temp => w.span.Within 0 (maxParamBufferSize * 2)
  | .dest => w.span.Within 0 destsize

def sectionLines (text : List UInt8) : List (List UInt8) :=
  linesBehind newline (((findSub sectionWord text).getD []).drop sectionWord.length)

def keyLine (key text : List UInt8) : Option (List UInt8) := (sectionLines text).find? (key ++ [equals] <+: ·)

def valueOf (bTrimSpace : Bool) (line : List UInt8) : List UInt8 :=
  ((line.dropWhile (· ≠ equals)).drop 1).dropWhile fun c => decide ((c = space ∧ bTrimSpace = true) ∨ c = tab)

structure Contract (key : List UInt8) (dest : Nat → UInt8) (destsize : Nat) (text : List UInt8) (bTrimSpace : Bool) :
    Prop where
  result : (rtmpGetKeyParameter key dest destsize text bTrimSpace).value.1 = true ↔
    ∃ line ∈ sectionLines text, key ++ [equals] <+: line
  value : ∀ line, keyLine key text = some line →
    Holds (rtmpGetKeyParameter key dest destsize text bTrimSpace).value.2 0
      ((valueOf bTrimSpace line).take (destsize - 1) ++ [0])
  inside : All (InBounds destsize) (rtmpGetKeyParameter key dest destsize text bTrimSpace)

theorem rtstrstrFind {s p} : rtstrstr s p = findSub p s := by
  induction s with
  | nil => rfl
  | cons c s ih =>
    rw [rtstrstr]
    split
    next => rw [findSub,ih]
    next short => rw [findSubShort (Nat.not_le.mp short)]

theorem trimLoopDrop {bTrimSpace s} :
    trimLoop bTrimSpace s = s.dropWhile fun c => decide ((c = space ∧ bTrimSpace = true) ∨ c = tab) := by
  induction s with
  | nil => rfl
  | cons c s ih =>
    rw [trimLoop]
    split
    next drop => rw [dropWhile_cons_of_pos (by simpa using drop),ih]
    next keep => rw [dropWhile_cons_of_neg (by simpa using keep)]

theorem cStringStored {m p s} (clean : 0 ∉ s) :
    cString (store (store m p s) (p + s.length) [0]) p (s.length + 1) = s := by
  have loaded : load (store (store m p s) (p + s.length) [0]) p (s.length + 1) = s ++ [0] := by
    have both : Holds (store (store m p s) (p + s.length) [0]) p (s ++ [0]) := holdsStore.extend
    rw [Holds,length_append] at both
    exact both
  have each : ∀ c ∈ s, decide (c ≠ 0) = true := fun c mem => decide_eq_true fun same => clean (same ▸ mem)
  rw [cString,loaded,takeWhile_append_of_pos each]
  simp

theorem strncpyAt {dest s n size i} (inside : i < size) :
    strncpy (store dest 0 (replicate size 0)) s n i = if i < n then s.getD i 0 else 0 := by
  have first : ∀ (m : Nat → UInt8) b, store m 0 b i = b[i]?.getD (m i) := fun m b => if_pos (Nat.zero_le i)
  rw [strncpy,first,first,getElem?_replicate,if_pos inside,getD_eq_getElem?_getD]
  split
  next copied =>
    by_cases text : i < s.length
    · rw [getElem?_append_left (by rw [length_take]; omega),getElem?_take_of_lt copied,
        getElem?_eq_getElem text]
      rfl
    · rw [getElem?_append_right (by rw [length_take]; omega),getElem?_eq_none (Nat.not_lt.mp text),
        length_take,getElem?_replicate,if_pos (by omega)]
      rfl
  next behind =>
    rw [getElem?_eq_none]
    · rfl
    · simp only [length_append,length_take,length_replicate]
      omega

theorem strncpyTerminated {dest s n size} (some' : 1 ≤ size) (clean : 0 ∉ s) (enough : n = size ∨ s.length < n) :
    Holds (strncpy (store dest 0 (replicate size 0)) s n) 0 (s.take (size - 1) ++ [0]) ↔ s.length < size := by
  constructor
  · intro holds
    by_contra long
    have last : (s.take (size - 1)).length = size - 1 := by
      rw [length_take]
      omega
    have text : size - 1 < s.length := by omega
    have end' := holds.get (show size - 1 < _ by rw [length_append,last]; exact Nat.lt_succ_self _)
    rw [getElem?_append_right (Nat.le_of_eq last),last,Nat.sub_self,Nat.zero_add,strncpyAt (by omega),
      if_pos (by omega),getD_eq_getElem?_getD,getElem?_eq_getElem text] at end'
    have zero : (0 : UInt8) = s[size - 1] := Option.some.inj end'
    exact clean (zero ▸ getElem_mem text)
  · intro short
    rw [take_of_length_le (by omega)]
    refine loadExt rfl fun k inside => ?_
    rw [length_append,length_singleton] at inside
    rw [Nat.zero_add,strncpyAt (by omega)]
    by_cases text : k < s.length
    · rw [if_pos (by omega),getElem?_append_left text,getD_eq_getElem?_getD,getElem?_eq_getElem text]
      rfl
    · have here : k = s.length := by omega
      have none' : s.getD k 0 = 0 := by
        rw [getD_eq_getElem?_getD,getElem?_eq_none (by omega)]
        rfl
      rw [none',ite_self,here,getElem?_append_right (Nat.le_refl _),Nat.sub_self]
      rfl

section Lookup
variable {key text offset found line : List UInt8}

theorem sectionFound (contains : sectionWord <:+: text) (oneLine : newline ∉ key) :
    ∃ offset, rtmpFindSection text = some offset ∧ offset <:+ text ∧
      (findSub (newline :: (key ++ [equals])) offset).map (fun r => r.tail.takeWhile (· ≠ newline)) =
        keyLine key text := by
  obtain ⟨r,found⟩ := findSubInfix contains
  obtain ⟨⟨rest,rfl⟩,last⟩ := findSubSome found
  have clean : newline ∉ key ++ [equals] := by
    rw [mem_append,mem_singleton]
    exact fun mem => mem.elim oneLine (by decide)
  refine ⟨(sectionWord ++ rest).drop 1,?_,(drop_suffix 1 _).trans last,?_⟩
  · rw [rtmpFindSection,rtstrstrFind,found]
    rfl
  · have skip : findSub (newline :: (key ++ [equals])) ((sectionWord ++ rest).drop 1) =
        findSub (newline :: (key ++ [equals])) rest :=
      findSubSkip (show newline ∉ [101,102,97,117,108,116] by decide)
    rw [skip,findLine clean,keyLine,sectionLines,found]
    rfl

theorem lineSizeEq {start} : lineSize start = (start.takeWhile (· ≠ newline)).length := by
  rw [lineSize,rtstrstrFind]
  rcases findSeparator newline start with ⟨none',whole⟩ | ⟨rest,found,parts⟩
  · rw [none',whole]
  · rw [found]
    exact Nat.sub_eq_of_eq_add ((congrArg length parts).trans length_append)

theorem equalsFound (starts : key ++ [equals] <+: line) :
    rtstrstr line [equals] = some (line.dropWhile (· ≠ equals)) ∧ 1 ≤ (line.dropWhile (· ≠ equals)).length := by
  have within : equals ∈ line := starts.subset (mem_append_right _ (mem_singleton_self _))
  rw [rtstrstrFind]
  rcases findSeparator equals line with ⟨_,whole⟩ | ⟨rest,found,parts⟩
  · have passed : equals ∈ line.takeWhile (· ≠ equals) := whole.symm ▸ within
    exact absurd (mem_takeWhile_imp passed) (by simp)
  · have same : line.dropWhile (· ≠ equals) = rest :=
      append_cancel_left (takeWhile_append_dropWhile.trans parts)
    rw [found,same]
    exact ⟨rfl,(findSubSome found).1.length_le⟩

theorem lookupNone (dest destsize bTrimSpace) (atSection : rtmpFindSection text = some offset)
    (missing : findSub (newline :: (key ++ [equals])) offset = none) (short : key.length ≤ 1000) :
    (rtmpGetKeyParameter key dest destsize text bTrimSpace).value = (false,dest) ∧
      All (InBounds destsize) (rtmpGetKeyParameter key dest destsize text bTrimSpace) := by
  have lookup : rtmpGetKeyParameter key dest destsize text bTrimSpace = (do
      writes .temp 0 (maxParamBufferSize * 2)
      writes .temp 0 2
      writes .temp 1 (key.length + 1)
      writes .temp (1 + key.length) 2
      pure (false,dest)) := by
    rw [rtmpGetKeyParameter]
    simp only [atSection,rtstrstrFind,missing]
  rw [lookup]
  refine ⟨rfl,?_⟩
  simp only [allBind,allPure,and_true,writes,allNote,InBounds,Span.Within,maxParamBufferSize]
  omega

def copyLimit (destsize : Nat) (line : List UInt8) : Nat :=
  if (line.dropWhile (· ≠ equals)).length ≥ destsize then destsize else (line.dropWhile (· ≠ equals)).length

theorem lookupSome (dest destsize bTrimSpace)
    (atSection : rtmpFindSection text = some offset)
    (there : findSub (newline :: (key ++ [equals])) offset = some found) (short : key.length ≤ 1000)
    (ends : found.tail.takeWhile (· ≠ newline) = line) (starts : key ++ [equals] <+: line) (clean : 0 ∉ line) :
    (rtmpGetKeyParameter key dest destsize text bTrimSpace).value =
        (true,strncpy (store dest 0 (replicate destsize 0)) (valueOf bTrimSpace line) (copyLimit destsize line)) ∧
      (All (InBounds destsize) (rtmpGetKeyParameter key dest destsize text bTrimSpace) ↔
        line.length < maxParamBufferSize) := by
  have size : lineSize (found.drop 1) = line.length := by rw [lineSizeEq,drop_one,ends]
  have taken : (found.drop 1).take line.length = line := by
    rw [drop_one,← ends]
    exact (prefix_iff_eq_take.mp ⟨_,takeWhile_append_dropWhile⟩).symm
  have lookup : rtmpGetKeyParameter key dest destsize text bTrimSpace = (do
      writes .temp 0 (maxParamBufferSize * 2)
      writes .temp 0 2
      writes .temp 1 (key.length + 1)
      writes .temp (1 + key.length) 2
      writes .temp maxParamBufferSize line.length
      writes .temp (maxParamBufferSize + line.length) 1
      writes .dest 0 destsize
      writes .dest 0 (copyLimit destsize line)
      pure (true,strncpy (store dest 0 (replicate destsize 0)) (valueOf bTrimSpace line)
        (copyLimit destsize line))) := by
    rw [← rtstrstrFind] at there
    rw [rtmpGetKeyParameter]
    simp only [atSection,there,size,taken,cStringStored clean,(equalsFound starts).1,trimLoopDrop]
    rfl
  rw [lookup]
  refine ⟨rfl,?_⟩
  have limit : copyLimit destsize line ≤ destsize := by
    rw [copyLimit]
    split <;> omega
  simp only [allBind,allPure,and_true,writes,allNote,InBounds,Span.Within,maxParamBufferSize]
  omega

end Lookup

theorem valueSuffix (bTrimSpace line) :
    valueOf bTrimSpace line <:+ (line.dropWhile (· ≠ equals)).drop 1 := dropWhile_suffix _

theorem valueClean {bTrimSpace line} (clean : 0 ∉ line) : 0 ∉ valueOf bTrimSpace line := by
  intro mem
  have behind := (drop_suffix 1 _).subset ((valueSuffix bTrimSpace line).subset mem)
  exact clean ((dropWhile_suffix _).subset behind)

theorem copyLimitEnough {bTrimSpace line destsize} (some' : 1 ≤ (line.dropWhile (· ≠ equals)).length) :
    copyLimit destsize line = destsize ∨ (valueOf bTrimSpace line).length < copyLimit destsize line := by
  have fewer := (valueSuffix bTrimSpace line).length_le
  rw [length_drop] at fewer
  rw [copyLimit]
  split
  next => exact .inl rfl
  next => exact .inr (by omega)

theorem resultLine {key text} :
    (keyLine key text).isSome = true ↔ ∃ line ∈ sectionLines text, key ++ [equals] <+: line := by
  rw [keyLine,find?_isSome]
  simp only [decide_eq_true_eq]

theorem profileLookup (key : List UInt8) (dest : Nat → UInt8) (destsize : Nat) (text : List UInt8) (bTrimSpace : Bool)
    (noNul : 0 ∉ text) (contains : sectionWord <:+: text) (short : key.length ≤ 1000) (oneLine : newline ∉ key)
    (some' : 1 ≤ destsize) :
    Contract key dest destsize text bTrimSpace ↔
      ∀ line, keyLine key text = some line →
        line.length < maxParamBufferSize ∧ (valueOf bTrimSpace line).length < destsize := by
  obtain ⟨offset,atSection,part,lines⟩ := sectionFound contains oneLine
  cases there : findSub (newline :: (key ++ [equals])) offset with
  | none =>
    rw [there] at lines
    have none' : keyLine key text = none := lines.symm
    obtain ⟨value,inside⟩ := lookupNone dest destsize bTrimSpace atSection there short
    refine iff_of_true ⟨?_,fun line here => ?_,inside⟩ fun line here => ?_
    · rw [value,← resultLine,none']
      simp
    · exact absurd (none'.symm.trans here) (by simp)
    · exact absurd (none'.symm.trans here) (by simp)
  | some found =>
    rw [there] at lines
    obtain ⟨line,ends⟩ : ∃ line, found.tail.takeWhile (· ≠ newline) = line := ⟨_,rfl⟩
    have first : keyLine key text = some line := by rw [← lines,← ends]; rfl
    have listed : (sectionLines text).find? (key ++ [equals] <+: ·) = some line := first
    have begins := find?_some listed
    have starts : key ++ [equals] <+: line := of_decide_eq_true begins
    have clean : 0 ∉ line := by
      rw [← ends]
      intro mem
      have inFound := mem_of_mem_tail ((takeWhile_sublist _).subset mem)
      exact noNul (part.subset ((findSubSome there).2.subset inFound))
    obtain ⟨value,inside⟩ := lookupSome dest destsize bTrimSpace atSection there short ends starts clean
    have terminated : Holds (strncpy (store dest 0 (replicate destsize 0)) (valueOf bTrimSpace line)
        (copyLimit destsize line)) 0 ((valueOf bTrimSpace line).take (destsize - 1) ++ [0]) ↔ _ :=
      strncpyTerminated some' (valueClean clean) (copyLimitEnough (equalsFound starts).2)
    constructor
    · intro contract line' here
      obtain rfl : line = line' := Option.some.inj (first.symm.trans here)
      have holds := contract.value line first
      rw [value] at holds
      exact ⟨inside.mp contract.inside,terminated.mp holds⟩
    · intro fits
      obtain ⟨room,less⟩ := fits line first
      refine ⟨?_,fun line' here => ?_,inside.mpr room⟩
      · rw [value,← resultLine,first]
        simp
      · obtain rfl : line = line' := Option.some.inj (first.symm.trans here)
        rw [value]
        exact terminated.mpr less

def someText : List UInt8 := sectionWord ++ [10,65,61,120,121,122]

theorem someTextSection : 0 ∉ someText ∧ sectionWord <:+: someText := ⟨by decide,(prefix_append ..).isInfix⟩

theorem profileLookupRoom : Contract [65] (fun _ => 0) 4 someText true := by
  refine (profileLookup [65] (fun _ => 0) 4 someText true someTextSection.1 someTextSection.2 (by decide) (by decide)
    (by decide)).mpr fun line here => ?_
  obtain rfl : [65,61,120,121,122] = line := Option.some.inj here
  decide

theorem profileLookupUnterminated : 0 ∉ someText ∧ sectionWord <:+: someText ∧
    ¬Contract [65] (fun _ => 0) 2 someText true := by
  refine ⟨someTextSection.1,someTextSection.2,fun contract => ?_⟩
  have terminated := contract.value [65,61,120,121,122] rfl
  rw [Holds] at terminated
  exact absurd terminated (by decide)

end RtmpDriver.ProfileLookup
