import RtmpDriver.UsbSweep

/-! Where the unsent frames lie. With r, w and n for ENextBulkOutPosition, CurWritePosition and NextBulkOutPosition:
`Level` has writer and reader in the same round, `Ahead` the writer one round further, `Behind` the reader just
wrapped. -/
namespace RtmpDriver.UsbLayout
open ByteMemory UsbDescriptor UsbRing UsbSweep List

structure Level (r w n : Nat) (first : List Frame) : Prop where
  plain : Plain first
  length : w = r + (stream first).length
  lower : n ≤ r
  strict : 16 < r → n < r
  upper : w ≤ 198854
  start : r = 0 ∧ first = [] ∨ r = 8 ∨ 16 < r

structure Ahead (r w n : Nat) (first second : List Frame) : Prop where
  wrapped : ∃ old last, first = old ++ [last] ∧ Plain old ∧ last.last = true ∧
    r + (stream first).length ≤ 198854 + last.bytes.length
  plain : Plain second
  length : w = 8 + (stream second).length
  lower : n < r
  start : 16 < r
  far : 202752 < r + (stream first).length + 3906
  fits : r + (stream first).length + 8 ≤ 204800
  room : w = 8 ∨ w + 8 ≤ n

structure Behind (r w n : Nat) (first : List Frame) : Prop where
  plain : Plain first
  length : w = r + (stream first).length
  start : r = 8 ∨ r = 16
  room : w + 8 ≤ n
  far : 100000 ≤ n
  upper : n ≤ 198854

inductive Quiet (p r w n : Nat) : List Frame → List Frame → Prop where
  | level {first : List Frame} (level : Level r w n first) (upper : w ≤ 198846)
      (start : r = 8 → first ≠ [] ∨ p = 8) : Quiet p r w n first []
  | ahead {first second : List Frame} (ahead : Ahead r w n first second) : Quiet p r w n first second
  | behind {first : List Frame} (behind : Behind r w n first) (start : r = 16 → first ≠ []) : Quiet p r w n first []

/- `e` is what the frame being written takes up, with the eight bytes behind it. -/
def Roomy (r w n e : Nat) : Prop :=
  (w < n → w + e ≤ n) ∧ w + e ≤ 204800 ∧ (r ≤ 16 → n ≤ w → w + 3898 + e ≤ 202752)

inductive Writing (r w n e : Nat) : List Frame → List Frame → Prop where
  | level {first : List Frame} (level : Level r w n first) (start : 8 ≤ r) (room : r ≤ 16 → w + 3898 + e ≤ 202752)
      (fits : w + e ≤ 204800) : Writing r w n e first []
  | ahead {first second : List Frame} (ahead : Ahead r w n first second) (room : w + e ≤ n) :
      Writing r w n e first second
  | behind {first : List Frame} (behind : Behind r w n first) (room : w + e ≤ n) : Writing r w n e first []

variable {p r w n e z : Nat} {first second : List Frame}

theorem emptyLength (fs) : fs = [] ∧ (stream fs).length = 0 ∨ fs ≠ [] ∧ 24 ≤ (stream fs).length := by
  rcases eq_or_ne fs [] with rfl | some
  · exact .inl ⟨rfl,rfl⟩
  · exact .inr ⟨some,streamLong some⟩

theorem Ahead.reader (ahead : Ahead r w n first second) : r ≤ 198854 ∧ w < r := by
  obtain ⟨old,last,rfl,_,_,upper⟩ := ahead.wrapped
  have lower := ahead.lower
  have start := ahead.start
  have room := ahead.room
  simp only [streamAppend,streamCons,streamNil,append_nil,length_append] at upper
  omega

theorem Ahead.some (ahead : Ahead r w n first second) : first ≠ [] := by
  obtain ⟨old,last,rfl,_⟩ := ahead.wrapped
  simp

theorem canDoWriteSpec {c} : rtmpUsbCanDoWrite c = true ↔
    (c.nextBulkOutPosition ≤ c.curWritePosition ∨ c.curWritePosition + 2048 ≤ c.nextBulkOutPosition) ∧
      (c.curWritePosition = 8 → 2048 ≤ c.nextBulkOutPosition) ∧ c.bCurWriting = false ∧
      (c.eNextBulkOutPosition = 8 → c.curWritePosition + 7912 ≤ 202752) := by
  have limit : maxTxbulkLimit = 202752 := rfl
  have size : localTxbufSize = 2048 := rfl
  unfold rtmpUsbCanDoWrite
  rw [limit,size]
  constructor
  · intro can
    repeat' (split at can; cases can)
    rename_i c1 c2 c3 c4
    exact ⟨by omega,by omega,by simpa using c3,by omega⟩
  · rintro ⟨c1,c2,c3,c4⟩
    rw [if_neg (by omega),if_neg (by omega),if_neg (by simp [c3]),if_neg (by omega)]

def reserved (r w : Nat) : Nat := if r = w then 8 else 0

theorem Quiet.roomy (quiet : Quiet p r w n first second) (c1 : n ≤ w ∨ w + 2048 ≤ n) (c2 : w = 8 → 2048 ≤ n)
    (c4 : r = 8 → w + 7912 ≤ 202752) : Roomy (r + reserved r w) (w + reserved r w) n 2048 := by
  unfold reserved Roomy
  cases quiet with
  | level level upper start =>
    obtain ⟨_,length,lower,_,_,begins⟩ := level
    have begins : r = 0 ∧ w = 0 ∨ r = 8 ∨ 16 < r :=
      begins.imp_left fun ⟨zero,bare⟩ => ⟨zero,by rw [length,zero,bare]; rfl⟩
    split <;> omega
  | ahead ahead =>
    have reader := ahead.reader
    have lower := ahead.lower
    have room := ahead.room
    rw [if_neg (by omega)]
    omega
  | behind behind start =>
    obtain ⟨_,length,begins,room,far,upper⟩ := behind
    rcases emptyLength first with ⟨rfl,zero⟩ | ⟨some,long⟩
    · have eight : r = 8 := begins.resolve_right fun sixteen => start sixteen rfl
      rw [if_pos (by omega)]
      omega
    · rw [if_neg (by omega)]
      omega

theorem Quiet.begin (quiet : Quiet p r w n first second) (c2 : w = 8 → 2048 ≤ n)
    (roomy : Roomy (r + reserved r w) (w + reserved r w) n e) :
    Writing (r + reserved r w) (w + reserved r w) n e first second ∧
      (first ≠ [] → reserved r w = 0 ∧ (r + 24 ≤ w ∨ w + e ≤ r)) ∧
      (n ≤ r → n + z ≤ r + 4 → n + z ≤ w + reserved r w ∨ w + reserved r w + e ≤ n) ∧
      (r < n → w + reserved r w + e ≤ n) := by
  unfold reserved Roomy at *
  cases quiet with
  | level level upper start =>
    obtain ⟨plain,length,lower,strict,_,begins⟩ := level
    rcases emptyLength first with ⟨rfl,zero⟩ | ⟨some,long⟩
    · have same : r = w := by omega
      simp only [if_pos same] at roomy ⊢
      have apart : r ≠ 8 := by
        intro eight
        have := c2 (by omega)
        omega
      refine ⟨.level ⟨plain,by omega,by omega,by omega,by omega,by omega⟩ (by omega) (by omega) (by omega),?_,
        by omega,by omega⟩
      exact fun some => absurd rfl some
    · have other : r ≠ w := by omega
      have positive : r ≠ 0 := by
        intro zero
        rcases begins with ⟨_,none⟩ | eight | far
        · exact some none
        · omega
        · omega
      simp only [if_neg other,Nat.add_zero] at roomy ⊢
      exact ⟨.level ⟨plain,length,lower,strict,by omega,begins⟩ (by omega) (by omega) (by omega),
        fun _ => ⟨trivial,.inl (by omega)⟩,by omega,by omega⟩
  | ahead ahead =>
    have reader := ahead.reader
    have lower := ahead.lower
    have room := ahead.room
    have start := ahead.start
    have other : r ≠ w := by omega
    simp only [if_neg other,Nat.add_zero] at roomy ⊢
    have space : w + e ≤ n := by omega
    exact ⟨.ahead ahead space,fun _ => ⟨trivial,.inr (by omega)⟩,fun _ _ => .inr space,fun _ => space⟩
  | behind behind start =>
    obtain ⟨plain,length,begins,room,far,upper⟩ := behind
    rcases emptyLength first with ⟨rfl,zero⟩ | ⟨some,long⟩
    · have same : r = w := by omega
      have eight : r = 8 := begins.resolve_right fun sixteen => start sixteen rfl
      simp only [if_pos same] at roomy ⊢
      refine ⟨.behind ⟨plain,by omega,by omega,by omega,far,upper⟩ (by omega),?_,by omega,by omega⟩
      exact fun some => absurd rfl some
    · have other : r ≠ w := by omega
      simp only [if_neg other,Nat.add_zero] at roomy ⊢
      exact ⟨.behind ⟨plain,length,begins,room,far,upper⟩ (by omega),fun _ => ⟨trivial,.inl (by omega)⟩,
        by omega,by omega⟩

theorem Writing.roomy (writing : Writing r w n e first second) {e'} (less : e' ≤ e) : Roomy r w n e' := by
  unfold Roomy
  cases writing with
  | level level start room =>
    have lower := level.lower
    have length := level.length
    omega
  | ahead ahead room =>
    have lower := ahead.lower
    have reader := ahead.reader
    have start := ahead.start
    omega
  | behind behind room =>
    have upper := behind.upper
    omega

theorem Writing.widen (writing : Writing r w n e first second) (some : 0 < e) {e'} (roomy : Roomy r w n e') :
    Writing r w n e' first second := by
  unfold Roomy at roomy
  cases writing with
  | level level start room =>
    have lower := level.lower
    have length := level.length
    exact .level level start (by omega) (by omega)
  | ahead ahead room => exact .ahead ahead (by omega)
  | behind behind room => exact .behind behind (by omega)

theorem Quiet.accepts (quiet : Quiet p r w n [] second) (start : p ≠ 8) :
    (n ≤ w ∨ w + 2048 ≤ n) ∧ (w = 8 → 2048 ≤ n) ∧ (r = 8 → w + 7912 ≤ 202752) := by
  cases quiet with
  | level level _ begins =>
    have length : w = r := level.length
    have lower := level.lower
    have other : r ≠ 8 := fun eight => (begins eight).elim (fun some => some rfl) start
    omega
  | ahead ahead => exact absurd rfl ahead.some
  | behind behind begins =>
    have length : w = r := behind.length
    have eight : r = 8 := behind.start.resolve_right fun sixteen => begins sixteen rfl
    have far := behind.far
    omega

theorem Writing.room (writing : Writing r w n e first second) :
    8 ≤ w ∧ w + e ≤ 204800 ∧ (r + (stream first).length ≤ w ∨ w + e ≤ r) ∧ 8 + (stream second).length ≤ w ∧
      (first = [] → r = w) ∧ (first ≠ [] → r + 24 ≤ w ∨ w + e ≤ r) ∧ (n ≤ r ∧ r ≤ w ∨ w + e ≤ n) := by
  have zero : first = [] → (stream first).length = 0 := fun none => by rw [none]; rfl
  have long : first ≠ [] → 24 ≤ (stream first).length := streamLong
  cases writing with
  | level level start room fits =>
    obtain ⟨_,length,lower,_,upper,_⟩ := level
    exact ⟨by omega,fits,by omega,by simp; omega,fun none => by have := zero none; omega,
      fun some => by have := long some; omega,by omega⟩
  | ahead ahead room =>
    have reader := ahead.reader
    have length := ahead.length
    have lower := ahead.lower
    have far := ahead.some
    exact ⟨by omega,by omega,by omega,by omega,fun none => absurd none far,fun _ => by omega,by omega⟩
  | behind behind room =>
    obtain ⟨_,length,begins,_,_,upper⟩ := behind
    exact ⟨by omega,by omega,by omega,by simp; omega,fun none => by have := zero none; omega,
      fun some => by have := long some; omega,by omega⟩

theorem Writing.commit (writing : Writing r w n e first second) (f : Frame) (size : f.bytes.length + 8 ≤ e)
    (flag : f.last = decide (202752 < w + 3906 + f.bytes.length)) :
    ∃ first' second', Quiet p r (if f.last then 8 else w + f.bytes.length) n first' second' ∧
      first' ++ second' = first ++ second ++ [f] ∧ first' ≠ [] ∧
      ∀ m, Holds m r (stream first) → Holds m 8 (stream second) → Holds m w f.bytes →
        Holds m r (stream first') ∧ Holds m 8 (stream second') := by
  have low := f.low
  have more : (stream (first ++ [f])).length = (stream first).length + f.bytes.length := by
    simp [streamAppend]
  have joined : ∀ {m : Nat → UInt8} {q : Nat} {fs : List Frame}, Holds m q (stream fs) → w = q + (stream fs).length →
      Holds m w f.bytes → Holds m q (stream (fs ++ [f])) := by
    intro m q fs held here image
    rw [streamAppend]
    refine holdsAppend.mpr ⟨held,?_⟩
    rw [← here]
    simpa using image
  cases writing with
  | level level start room fits =>
    obtain ⟨plain,length,lower,strict,upper,begins⟩ := level
    refine ⟨first ++ [f],[],?_,by simp,by simp,fun m held _ image => ⟨joined held length image,rfl⟩⟩
    cases last : f.last with
    | false =>
      have inside : ¬ 202752 < w + 3906 + f.bytes.length := by simpa [last] using flag
      exact .level ⟨plain.append (.one last),by simp; omega,lower,strict,by simp; omega,by omega⟩ (by simp; omega)
        (fun _ => .inl (by simp))
    | true =>
      have beyond : 202752 < w + 3906 + f.bytes.length := by simpa [last] using flag
      exact .ahead ⟨⟨first,f,rfl,plain,last,by omega⟩,nofun,rfl,by omega,by omega,by omega,by omega,.inl rfl⟩
  | ahead ahead room =>
    have reader := ahead.reader
    have lower := ahead.lower
    have last : f.last = false := by
      rw [flag]
      exact decide_eq_false (by omega)
    have length := ahead.length
    refine ⟨first,second ++ [f],?_,by simp,ahead.some,fun m held held' image => ⟨held,joined held' length image⟩⟩
    rw [last]
    exact .ahead ⟨ahead.wrapped,ahead.plain.append (.one last),by simp [streamAppend]; omega,lower,ahead.start,
      ahead.far,ahead.fits,.inr (by simp; omega)⟩
  | behind behind room =>
    obtain ⟨plain,length,begins,_,far,upper⟩ := behind
    have last : f.last = false := by
      rw [flag]
      exact decide_eq_false (by omega)
    refine ⟨first ++ [f],[],?_,by simp,by simp,fun m held _ image => ⟨joined held length image,rfl⟩⟩
    rw [last]
    exact .behind ⟨plain.append (.one last),by simp; omega,begins,by simp; omega,far,upper⟩ (fun _ => by simp)

inductive Send (r w : Nat) (taken rest second : List Frame) (r' : Nat) : List Frame → List Frame → Prop where
  | same (position : r' = r + (stream taken).length) (length : w = r' + (stream rest).length) (none : second = []) :
      Send r w taken rest second r' rest []
  | chase (position : r' = r + (stream taken).length) (before : w < r) (room : 8 + (stream second).length ≤ w) :
      Send r w taken rest second r' rest second
  | wrap (position : r' = 8) (none : rest = []) (before : w < r) (room : 8 + (stream second).length ≤ w) :
      Send r w taken rest second r' second []

variable {r' : Nat} {taken rest second' : List Frame}

theorem splitLength (frames : first = taken ++ rest) :
    (stream first).length = (stream taken).length + (stream rest).length := by
  rw [frames,streamAppend,length_append]

def Stopped (r : Nat) (taken rest : List Frame) (r' : Nat) : Prop :=
  r' = 8 ∧ rest = [] ∧ (∃ f ∈ taken, f.last = true) ∨ r' = r + (stream taken).length ∧ Plain taken

theorem Stopped.plain (stopped : Stopped r taken rest r') (plain : Plain first) (frames : first = taken ++ rest) :
    r' = r + (stream taken).length := by
  rcases stopped with ⟨_,_,f,mem,flag⟩ | ⟨position,_⟩
  · have none := plain f (by rw [frames]; exact mem_append_left rest mem)
    simp [none] at flag
  · exact position

section
variable (frames : first = taken ++ rest) (some : taken ≠ []) (stopped : Stopped r taken rest r')
include frames some stopped

theorem Level.send (level : Level r w n first) :
    Level r' w r rest ∧ Send r w taken rest [] r' rest [] ∧ 16 < r' := by
  obtain ⟨plain,length,lower,strict,upper,begins⟩ := level
  have position := stopped.plain plain frames
  have long := streamLong some
  have split := splitLength frames
  have far : 16 < r' := by
    rcases begins with ⟨_,none⟩ | eight | far
    · rw [none] at frames
      exact absurd (append_eq_nil_iff.mp frames.symm).1 some
    · omega
    · omega
  refine ⟨⟨?_,by omega,by omega,by omega,upper,.inr (.inr far)⟩,.same position (by omega) rfl,far⟩
  exact fun f mem => plain f (by rw [frames]; exact mem_append_right taken mem)

theorem Behind.send (behind : Behind r w n first) :
    Level r' w r rest ∧ Send r w taken rest [] r' rest [] ∧ 16 < r' ∧ w ≤ 198846 := by
  obtain ⟨plain,length,begins,room,far,upper⟩ := behind
  have position := stopped.plain plain frames
  have long := streamLong some
  have split := splitLength frames
  refine ⟨⟨?_,by omega,by omega,by omega,by omega,by omega⟩,.same position (by omega) rfl,by omega,by omega⟩
  exact fun f mem => plain f (by rw [frames]; exact mem_append_right taken mem)

variable (short : (stream taken).length < 0x8000 + 65540)
include short

theorem Ahead.send (ahead : Ahead r w n first second) :
    Ahead r' w r rest second ∧ Send r w taken rest second r' rest second ∨
      Behind r' w r second ∧ Send r w taken rest second r' second [] ∧ r' = 8 := by
  have reader := ahead.reader
  have long := streamLong some
  have split := splitLength frames
  obtain ⟨⟨old,last,shape,plainOld,flag,upper⟩,plain,length,lower,start,far,fits,room⟩ := ahead
  rcases stopped with ⟨position,none,_⟩ | ⟨position,all⟩
  · subst none
    simp only [streamNil,length_nil,Nat.add_zero] at split
    exact .inr ⟨⟨plain,by omega,.inl position,by omega,by omega,by omega⟩,
      .wrap position rfl (by omega) (by omega),position⟩
  · refine .inl ⟨⟨?_,plain,length,by omega,by omega,by omega,by omega,by omega⟩,.chase position (by omega) (by omega)⟩
    rw [shape] at frames
    rcases append_eq_append_iff.mp frames with ⟨more,front,back⟩ | ⟨more,front,back⟩
    · cases more with
      | nil => exact ⟨[],last,by simpa using back.symm,nofun,flag,by omega⟩
      | cons f more =>
        have here : last = f := (List.cons.inj back).1
        have none := all f (by rw [front]; simp)
        rw [← here,flag] at none
        cases none
    · exact ⟨more,last,back,fun f mem => plainOld f (by rw [front]; exact mem_append_right taken mem),flag,
        by omega⟩

theorem Quiet.send (quiet : Quiet p r w n first second) :
    ∃ first' second', Quiet p r' w r first' second' ∧ Send r w taken rest second r' first' second' := by
  cases quiet with
  | level level upper start =>
    obtain ⟨level,send,far⟩ := level.send frames some stopped
    exact ⟨_,_,.level level upper (by omega),send⟩
  | ahead ahead =>
    rcases ahead.send frames some stopped short with ⟨ahead,send⟩ | ⟨behind,send,eight⟩
    · exact ⟨_,_,.ahead ahead,send⟩
    · exact ⟨_,_,.behind behind (by omega),send⟩
  | behind behind start =>
    obtain ⟨level,send,far,upper⟩ := behind.send frames some stopped
    exact ⟨_,_,.level level upper (by omega),send⟩

theorem Writing.send (writing : Writing r w n e first second) :
    ∃ first' second', Writing r' w r e first' second' ∧ Send r w taken rest second r' first' second' := by
  cases writing with
  | level level start room fits =>
    obtain ⟨level,send,far⟩ := level.send frames some stopped
    exact ⟨_,_,.level level (by omega) (by omega) fits,send⟩
  | ahead ahead room =>
    have lower := ahead.lower
    rcases ahead.send frames some stopped short with ⟨ahead,send⟩ | ⟨behind,send,eight⟩
    · exact ⟨_,_,.ahead ahead (by omega),send⟩
    · exact ⟨_,_,.behind behind (by omega),send⟩
  | behind behind room =>
    have upper := behind.upper
    obtain ⟨level,send,far,_⟩ := behind.send frames some stopped
    exact ⟨_,_,.level level (by omega) (by omega) (by omega),send⟩

end

theorem Send.frames (send : Send r w taken rest second r' first second') : first ++ second' = rest ++ second := by
  cases send with
  | same _ _ none => rw [none]
  | chase => rfl
  | wrap _ none => rw [none]; simp

inductive Placed (r w n : Nat) : List Frame → List Frame → Prop where
  | level {first : List Frame} (level : Level r w n first) : Placed r w n first []
  | ahead {first second : List Frame} (ahead : Ahead r w n first second) : Placed r w n first second
  | behind {first : List Frame} (behind : Behind r w n first) : Placed r w n first []

theorem Quiet.placed (quiet : Quiet p r w n first second) : Placed r w n first second := by
  cases quiet with
  | level level => exact .level level
  | ahead ahead => exact .ahead ahead
  | behind behind => exact .behind behind

theorem Writing.placed (writing : Writing r w n e first second) : Placed r w n first second := by
  cases writing with
  | level level => exact .level level
  | ahead ahead => exact .ahead ahead
  | behind behind => exact .behind behind

theorem Placed.lane (placed : Placed r w n first second) : Lane w r first := by
  cases placed with
  | level level =>
    rw [level.length]
    exact .plain level.plain r
  | ahead ahead =>
    obtain ⟨old,last,rfl,plain,flag,_⟩ := ahead.wrapped
    exact .wrapped plain flag ahead.reader.2
  | behind behind =>
    rw [behind.length]
    exact .plain behind.plain r

theorem Placed.bound (placed : Placed r w n first second) : r + (stream first).length + 8 ≤ 204800 := by
  cases placed with
  | level level =>
    have length := level.length
    have upper := level.upper
    omega
  | ahead ahead => exact ahead.fits
  | behind behind =>
    have length := behind.length
    have room := behind.room
    have upper := behind.upper
    omega

theorem Placed.empty (placed : Placed r w n first second) : (r = w ∨ r = w + 8) ↔ first = [] := by
  rcases emptyLength first with ⟨rfl,zero⟩ | ⟨some,long⟩
  · refine ⟨fun _ => rfl,fun _ => .inl ?_⟩
    cases placed with
    | level level => have := level.length; omega
    | ahead ahead => exact absurd rfl ahead.some
    | behind behind => have := behind.length; omega
  · refine ⟨fun equal => ?_,fun none => absurd none some⟩
    cases placed with
    | level level => have := level.length; omega
    | ahead ahead =>
      have lower := ahead.lower
      have start := ahead.start
      have room := ahead.room
      omega
    | behind behind => have := behind.length; omega

theorem Placed.same (placed : Placed r w n [] second) : r = w := by
  cases placed with
  | level level => exact level.length.symm
  | ahead ahead => exact absurd rfl ahead.some
  | behind behind => exact behind.length.symm

theorem Placed.none (placed : Placed r w n [] second) : second = [] := by
  cases placed with
  | level => rfl
  | ahead ahead => exact absurd rfl ahead.some
  | behind => rfl

end RtmpDriver.UsbLayout
