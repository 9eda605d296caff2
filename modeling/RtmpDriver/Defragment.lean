import RtmpDriver.ByteMemory
import RtmpDriver.RxFilter
import RtmpDriver.StepMachine

/-! Runs of RTMPDeFragmentDataFrame. There is one store for all transmitters. The state of a run keeps the fragments
that arrived and those that the store holds since the last fragment 0. -/
namespace RtmpDriver.Defragment
open EapolFrame RxFilter ByteMemory List

def rxBufferNormsize : Nat := 3840

inductive Kind where
  | first | whole | broken | encapsulated | taken
  deriving DecidableEq, Repr

def kindOf (rxwiSize : Nat) (f : FragFrame) (rx : RxBlk) : Kind :=
  if rx.header.frag = 0 then if rx.header.moreFrag then .first else .whole
  else if rx.header.sequence ≠ f.sequence ∨ rx.header.frag ≠ f.lastFrag + 1 then .broken
  else if maxFrameSize + rxwiSize < f.rxSize + rx.dataSize.toNat then .broken
  else if bytesAt rx.data 0 6 = snap8021H then .encapsulated
  else .taken

theorem deFragmentKind (env sta rx) :
    rtmpDeFragmentDataFrame env sta rx = match kindOf sta.rxwiSize sta.fragFrame rx with
      | .first => (firstFragment sta.rxwiSize sta.fragFrame rx,none)
      | .whole | .encapsulated => (sta.fragFrame,none)
      | .broken => (resetFragFrame sta.fragFrame,none)
      | .taken =>
        let f := nextFragment sta.fragFrame rx
        if rx.header.moreFrag then (f,none)
        else match env.fragPacket with
          | some buffer => ({f with buffer := buffer},some (reassembled sta.rxwiSize f rx))
          | none => (resetFragFrame f,none) := by
  unfold rtmpDeFragmentDataFrame kindOf
  by_cases first : rx.header.frag = 0
  · rw [if_pos first,if_pos first]
    cases rx.header.moreFrag <;> rfl
  rw [if_neg first,if_neg first]
  by_cases other : rx.header.sequence ≠ sta.fragFrame.sequence ∨ rx.header.frag ≠ sta.fragFrame.lastFrag + 1
  · rw [if_pos other,if_pos other]
  rw [if_neg other,if_neg other]
  by_cases large : maxFrameSize + sta.rxwiSize < sta.fragFrame.rxSize + rx.dataSize.toNat
  · rw [if_pos large,if_pos large]
  rw [if_neg large,if_neg large]
  by_cases snap : bytesAt rx.data 0 6 = snap8021H
  · rw [if_pos snap,if_pos snap]
  · cases env.fragPacket <;> simp only [if_neg snap]

theorem kindFirst {rxwiSize f rx} :
    kindOf rxwiSize f rx = .first ↔ rx.header.frag = 0 ∧ rx.header.moreFrag = true := by
  unfold kindOf
  grind

theorem kindTaken {rxwiSize f rx} :
    kindOf rxwiSize f rx = .taken ↔ rx.header.frag ≠ 0 ∧ rx.header.sequence = f.sequence ∧
      rx.header.frag = f.lastFrag + 1 ∧ f.rxSize + rx.dataSize.toNat ≤ maxFrameSize + rxwiSize ∧
      bytesAt rx.data 0 6 ≠ snap8021H := by
  unfold kindOf
  grind

structure Arrival where
  env : Env
  rx : RxBlk
  memory : env.fragPacket.isSome = true
  -- HeaderRoom is a UCHAR, MPDUtotalByteCnt has 14 bits
  room : rx.room < 256
  size : rx.dataSize.toNat < 16384

structure State where
  frame : FragFrame
  arrived : List RxBlk
  parts : Option (List RxBlk)

def zeroState (buffer : Nat → UInt8) : State := ⟨⟨buffer,0,0,0⟩,[],none⟩

def call (sta : RxSta) (s : State) (a : Arrival) : FragFrame × Option RxBlk :=
  rtmpDeFragmentDataFrame a.env {sta with fragFrame := s.frame} a.rx

def partsAfter (rxwiSize : Nat) (s : State) (rx : RxBlk) : Option (List RxBlk) :=
  match kindOf rxwiSize s.frame rx with
  | .first => some [rx]
  | .whole | .encapsulated => s.parts
  | .broken => none
  | .taken => if rx.header.moreFrag then s.parts.map (· ++ [rx]) else none

def step (sta : RxSta) (s : State) (a : Arrival) : State where
  frame := (call sta s a).1
  arrived := s.arrived ++ [a.rx]
  parts := partsAfter sta.rxwiSize s a.rx

def writes (rxwiSize : Nat) (f : FragFrame) (rx : RxBlk) : List (Nat × Nat) :=
  match kindOf rxwiSize f rx with
  | .first => [(0,rxwiSize),(rxwiSize,rx.dataSize.toNat + rx.room)]
  | .taken => [(f.rxSize,rx.dataSize.toNat)]
  | _ => []

def body (rx : RxBlk) : Bytes := bytesAt rx.data 0 rx.dataSize.toNat

structure Fragments (parts : List RxBlk) : Prop where
  several : 2 ≤ parts.length
  numbered : parts.map (·.header.frag) = range parts.length
  oneSequence : ∀ x ∈ parts, ∀ y ∈ parts, x.header.sequence = y.header.sequence
  oneTransmitter : ∀ x ∈ parts, ∀ y ∈ parts, x.header.addr2 = y.header.addr2

structure MadeOf (parts : List RxBlk) (sta : RxSta) (s : State) (a : Arrival) (msdu : RxBlk) : Prop where
  arrived : parts.Sublist (s.arrived ++ [a.rx])
  fragments : Fragments parts
  content : body msdu = parts.flatMap body
  size : sta.rxwiSize + msdu.room + msdu.dataSize.toNat = (call sta s a).1.rxSize

def Sound (sta : RxSta) (s : State) (a : Arrival) : Prop :=
  (∀ msdu, (call sta s a).2 = some msdu → ∃ parts, MadeOf parts sta s a msdu) ∧
    ∀ w ∈ writes sta.rxwiSize s.frame a.rx, w.1 + w.2 ≤ rxBufferNormsize

def Orderly (sta : RxSta) (s : State) (a : Arrival) : Prop :=
  (kindOf sta.rxwiSize s.frame a.rx = .first →
    a.rx.dataSize.toNat + a.rx.room + sta.rxwiSize ≤ rxBufferNormsize) ∧
  (kindOf sta.rxwiSize s.frame a.rx = .taken → a.rx.header.moreFrag = false →
    ∃ first rest, s.parts = some (first :: rest) ∧ first.room = a.rx.room ∧
      ∀ x ∈ first :: rest, x.header.addr2 = a.rx.header.addr2)

structure Collected (rxwiSize : Nat) (f : FragFrame) (arrived parts : List RxBlk) : Prop where
  order : parts.Sublist arrived
  numbered : parts.map (·.header.frag) = range parts.length
  last : f.lastFrag + 1 = parts.length
  sequence : ∀ x ∈ parts, x.header.sequence = f.sequence
  size : ∀ x ∈ parts.head?, f.rxSize = rxwiSize + x.room + (parts.flatMap body).length
  content : ∀ x ∈ parts.head?, Holds f.buffer (rxwiSize + x.room) (parts.flatMap body)

def Inv (sta : RxSta) (s : State) : Prop :=
  ∀ parts, s.parts = some parts → Collected sta.rxwiSize s.frame s.arrived parts

theorem moveMemoryStore (buffer offset data len) :
    moveMemory buffer offset data len = store buffer offset (load data 0 len) := by
  funext i
  unfold moveMemory
  split
  next inside =>
    have value := storeIn (m := buffer) (p := offset) (b := load data 0 len) (k := i - offset)
      (by rw [loadLength]; omega)
    rw [loadGet (by omega),Nat.zero_add,Nat.add_sub_cancel' inside.1] at value
    exact (Option.some.inj value).symm
  next outside =>
    refine (storeOut ?_).symm
    rw [loadLength]
    omega

theorem bodyLength (rx) : (body rx).length = rx.dataSize.toNat := by simp [body,bytesAt]

variable {sta : RxSta} {s : State} {a : Arrival} {rxwiSize : Nat} {f : FragFrame} {rx : RxBlk}
  {arrived parts : List RxBlk}

theorem Collected.later (held : Collected rxwiSize f arrived parts) : Collected rxwiSize f (arrived ++ [rx]) parts :=
  {held with order := held.order.trans (sublist_append_left arrived [rx])}

theorem collectedFirst (first : rx.header.frag = 0) :
    Collected rxwiSize (firstFragment rxwiSize f rx) (arrived ++ [rx]) [rx] where
  order := sublist_append_right arrived [rx]
  numbered := by simp [first,range_succ]
  last := by simp [firstFragment,first]
  sequence := by
    intro x mem
    rw [mem_singleton.mp mem]
    rfl
  size := by
    intro x mem
    cases Option.some.inj mem
    rw [flatMap_singleton,bodyLength]
    simp only [firstFragment]
    omega
  content := by
    intro x mem
    cases Option.some.inj mem
    rw [flatMap_singleton]
    refine loadExt rfl fun k inside => ?_
    rw [bodyLength] at inside
    have low : rxwiSize ≤ rxwiSize + rx.room + k := by omega
    have high : rxwiSize + rx.room + k < rxwiSize + (rx.dataSize.toNat + rx.room) := by omega
    have place : rxwiSize + rx.room + k - rxwiSize = rx.room + (0 + k) := by omega
    simp only [firstFragment,moveMemory,if_pos (And.intro low high),place]
    simp [body,bytesAt,inside,RxBlk.data]

theorem Collected.taken (held : Collected rxwiSize f arrived parts)
    (next : rx.header.sequence = f.sequence ∧ rx.header.frag = f.lastFrag + 1) :
    Collected rxwiSize (nextFragment f rx) (arrived ++ [rx]) (parts ++ [rx]) := by
  have some : parts ≠ [] := by
    rintro rfl
    cases held.last
  constructor
  case order => exact held.order.append (List.Sublist.refl [rx])
  case numbered =>
    rw [map_append,held.numbered,length_append,length_singleton,range_succ,← held.last,next.2.symm]
    rfl
  case last => simp [nextFragment,← held.last,next.2]
  case sequence =>
    intro x mem'
    rcases mem_append.mp mem' with old | new
    · exact held.sequence x old
    · rw [mem_singleton.mp new]
      exact next.1
  case size =>
    intro x mem
    rw [head?_append_of_ne_nil _ some] at mem
    rw [flatMap_append,flatMap_singleton,length_append,bodyLength]
    simp only [nextFragment,held.size x mem]
    omega
  case content =>
    intro x mem
    rw [head?_append_of_ne_nil _ some] at mem
    rw [flatMap_append,flatMap_singleton]
    simp only [nextFragment,moveMemoryStore,held.size x mem]
    exact (held.content x mem).extend

theorem invZero (buffer) : Inv sta (zeroState buffer) := by
  intro parts held
  cases held

theorem callKind (sta s a) : ∃ packet,
    call sta s a = match kindOf sta.rxwiSize s.frame a.rx with
      | .first => (firstFragment sta.rxwiSize s.frame a.rx,none)
      | .whole | .encapsulated => (s.frame,none)
      | .broken => (resetFragFrame s.frame,none)
      | .taken =>
        if a.rx.header.moreFrag then (nextFragment s.frame a.rx,none)
        else ({nextFragment s.frame a.rx with buffer := packet},
          some (reassembled sta.rxwiSize (nextFragment s.frame a.rx) a.rx)) := by
  obtain ⟨packet,memory⟩ := Option.isSome_iff_exists.mp a.memory
  refine ⟨packet,?_⟩
  unfold call
  rw [deFragmentKind,memory]

theorem takenCollected (inv : Inv sta s) (taken : kindOf sta.rxwiSize s.frame a.rx = .taken) {parts}
    (held : s.parts = some parts) :
    Collected sta.rxwiSize (nextFragment s.frame a.rx) (s.arrived ++ [a.rx]) (parts ++ [a.rx]) := by
  obtain ⟨-,sequence,number,-,-⟩ := kindTaken.mp taken
  exact (inv _ held).taken ⟨sequence,number⟩

theorem stepKeeps (inv : Inv sta s) : Inv sta (step sta s a) := by
  obtain ⟨packet,result⟩ := callKind sta s a
  intro parts held
  simp only [step,partsAfter] at held ⊢
  rw [result]
  cases kind : kindOf sta.rxwiSize s.frame a.rx with
  | first =>
    rw [kind] at held
    cases Option.some.inj held
    exact collectedFirst (kindFirst.mp kind).1
  | whole | encapsulated =>
    rw [kind] at held
    exact (inv parts held).later
  | broken =>
    rw [kind] at held
    cases held
  | taken =>
    rw [kind] at held
    cases more : a.rx.header.moreFrag with
    | false =>
      simp only [more] at held
      cases held
    | true =>
      simp only [more,if_true,Option.map_eq_some_iff] at held ⊢
      obtain ⟨before,old,rfl⟩ := held
      exact takenCollected inv kind old

theorem reassembledContent (held : Collected rxwiSize f arrived parts) {first} (head : first ∈ parts.head?)
    (same : first.room = rx.room) (small : f.rxSize < 65536) : body (reassembled rxwiSize f rx) = parts.flatMap body ∧
      rxwiSize + (reassembled rxwiSize f rx).room + (reassembled rxwiSize f rx).dataSize.toNat = f.rxSize := by
  have size := held.size first head
  rw [same] at size
  have count : (reassembled rxwiSize f rx).dataSize.toNat = (parts.flatMap body).length := by
    simp only [reassembled,BitVec.toNat_sub,BitVec.toNat_ofNat]
    omega
  have place : (reassembled rxwiSize f rx).data = fun i => f.buffer (rxwiSize + rx.room + i) := by
    funext i
    simp only [RxBlk.data,reassembled,Nat.add_assoc]
  refine ⟨?_,by rw [count]; exact size.symm⟩
  calc body (reassembled rxwiSize f rx)
      = load f.buffer (rxwiSize + rx.room) (parts.flatMap body).length := by
        rw [body,count,place]
        simp only [bytesAt,load,Nat.zero_add]
    _ = parts.flatMap body := by
        rw [← same]
        exact held.content first head

theorem writesInside (chip : sta.rxwiSize < 256) (orderly : Orderly sta s a) :
    ∀ w ∈ writes sta.rxwiSize s.frame a.rx, w.1 + w.2 ≤ rxBufferNormsize := by
  intro w mem
  unfold writes at mem
  cases kind : kindOf sta.rxwiSize s.frame a.rx with
  | first =>
    have fits := orderly.1 kind
    simp only [kind,mem_cons,not_mem_nil,or_false] at mem
    rcases mem with rfl | rfl
    · show 0 + sta.rxwiSize ≤ rxBufferNormsize
      omega
    · show sta.rxwiSize + (a.rx.dataSize.toNat + a.rx.room) ≤ rxBufferNormsize
      omega
  | whole | encapsulated | broken => simp [kind] at mem
  | taken =>
    have fits := (kindTaken.mp kind).2.2.2.1
    simp only [kind,mem_singleton] at mem
    subst mem
    simp only [maxFrameSize,rxBufferNormsize] at fits ⊢
    omega

theorem stepSound (chip : sta.rxwiSize < 256) (inv : Inv sta s) (orderly : Orderly sta s a) : Sound sta s a := by
  obtain ⟨packet,result⟩ := callKind sta s a
  refine ⟨?_,writesInside chip orderly⟩
  intro msdu returned
  cases kind : kindOf sta.rxwiSize s.frame a.rx with
  | first | whole | encapsulated | broken =>
    rw [result,kind] at returned
    cases returned
  | taken =>
    rw [result,kind] at returned
    cases more : a.rx.header.moreFrag with
    | true =>
      simp only [more] at returned
      cases returned
    | false =>
      simp only [more] at returned
      cases Option.some.inj returned
      obtain ⟨first,rest,old,same,alike⟩ := orderly.2 kind more
      have held := takenCollected inv kind old
      have fits := (kindTaken.mp kind).2.2.2.1
      have head : first ∈ (first :: rest ++ [a.rx]).head? := rfl
      have content := reassembledContent held head same
        (by simp only [nextFragment,maxFrameSize] at fits ⊢; omega)
      have as : ∀ x ∈ first :: rest ++ [a.rx], x.header.addr2 = a.rx.header.addr2 := by
        intro x mem
        rcases mem_append.mp mem with old | new
        · exact alike x old
        · rw [mem_singleton.mp new]
      refine ⟨first :: rest ++ [a.rx],held.order,⟨by simp,held.numbered,?_,?_⟩,content.1,?_⟩
      · intro x memX y memY
        exact (held.sequence x memX).trans (held.sequence y memY).symm
      · intro x memX y memY
        exact (as x memX).trans (as y memY).symm
      · rw [result,kind]
        simp only [more]
        exact content.2

def workedOn (result : FragFrame × Option RxBlk) : Nat → UInt8 :=
  match result.2 with
  | some msdu => msdu.rxwi
  | none => result.1.buffer

theorem moveMemoryOut {buffer data offset len i} (outside : i < offset ∨ offset + len ≤ i) :
    moveMemory buffer offset data len i = buffer i := by
  rw [moveMemoryStore]
  exact storeOut (by rw [loadLength]; exact outside)

theorem writesOnly (sta s a) {i} (outside : ∀ w ∈ writes sta.rxwiSize s.frame a.rx, i < w.1 ∨ w.1 + w.2 ≤ i) :
    workedOn (call sta s a) i = s.frame.buffer i := by
  obtain ⟨packet,result⟩ := callKind sta s a
  rw [result]
  unfold writes at outside
  cases kind : kindOf sta.rxwiSize s.frame a.rx with
  | first =>
    rw [kind] at outside
    have info := outside (0,sta.rxwiSize) (by simp)
    have frame := outside (sta.rxwiSize,a.rx.dataSize.toNat + a.rx.room) (by simp)
    show moveMemory (moveMemory s.frame.buffer 0 a.rx.rxwi sta.rxwiSize) _ a.rx.frame _ i = _
    rw [moveMemoryOut frame,moveMemoryOut info]
  | whole | encapsulated | broken => rfl
  | taken =>
    rw [kind] at outside
    have data := outside (s.frame.rxSize,a.rx.dataSize.toNat) (by simp)
    cases more : a.rx.header.moreFrag with
    | true => exact moveMemoryOut data
    | false => exact moveMemoryOut data

theorem reassemblySound (sta : RxSta) (chip : sta.rxwiSize < 256) (buffer : Nat → UInt8) (arrivals : List Arrival)
    (orderly : StepMachine.Meets (step sta) (Orderly sta) (zeroState buffer) arrivals) :
    StepMachine.Meets (step sta) (Sound sta) (zeroState buffer) arrivals :=
  StepMachine.meetsInvariant (fun _ _ inv _ => stepKeeps inv)
    (fun _ _ inv orderly => stepSound chip inv orderly) (invZero buffer) orderly

def sampleFragment (transmitter flags control : UInt8) (size : BitVec 16) : RxBlk :=
  let bytes := [0x08,flags,0,0] ++ replicate 6 9 ++ replicate 6 transmitter ++ replicate 6 3 ++
    [control,0,1,2,3,4,5,6]
  {sampleRx flags false with frame := fun i => bytes.getD i 0, room := 24, dataSize := size}

def arrivalOf (rx : RxBlk) (room : rx.room = 24) (small : rx.dataSize.toNat < 16384) : Arrival :=
  ⟨sampleEnv,rx,rfl,by omega,small⟩

def sampleArrival (transmitter flags control : UInt8) (size : BitVec 16) (small : size.toNat < 16384) : Arrival :=
  arrivalOf (sampleFragment transmitter flags control size) rfl small

def sampleOpening (size : BitVec 16) (small : size.toNat < 16384) : Arrival := sampleArrival 7 0x06 0x50 size small

def sampleEnding (transmitter control : UInt8) : Arrival := sampleArrival transmitter 0x02 control 2 (by decide)

theorem reassemblySoundTwo :
    StepMachine.Meets (step (sampleRxSta 1)) (Sound (sampleRxSta 1)) (zeroState fun _ => 0)
      [sampleOpening 4 (by decide),sampleEnding 7 0x51] := by
  refine reassemblySound (sampleRxSta 1) (by decide) _ _ ⟨⟨fun _ => by decide,fun taken => ?_⟩,
    ⟨fun first => ?_,fun _ _ => ?_⟩,trivial⟩
  · exact absurd taken (by decide)
  · exact absurd first (by decide)
  · refine ⟨sampleFragment 7 0x06 0x50 4,[],rfl,rfl,fun x mem => ?_⟩
    rw [mem_singleton.mp mem]
    decide

theorem soundParts {msdu} (sound : Sound sta s a) (returned : (call sta s a).2 = some msdu) :
    ∃ parts, parts.Sublist (s.arrived ++ [a.rx]) ∧ Fragments parts := by
  obtain ⟨parts,made⟩ := sound.1 msdu returned
  exact ⟨parts,made.arrived,made.fragments⟩

theorem reassemblyUnsound :
    ¬ StepMachine.Meets (step (sampleRxSta 1)) (Sound (sampleRxSta 1)) (zeroState fun _ => 0)
        [sampleEnding 7 0x01] ∧
      ¬ StepMachine.Meets (step (sampleRxSta 1)) (Sound (sampleRxSta 1)) (zeroState fun _ => 0)
        [sampleOpening 4 (by decide),sampleEnding 8 0x51] ∧
      ¬ StepMachine.Meets (step (sampleRxSta 1)) (Sound (sampleRxSta 1)) (zeroState fun _ => 0)
        [sampleOpening 16000 (by decide)] := by
  refine ⟨?_,?_,?_⟩
  · rintro ⟨sound,-⟩
    have some : (call (sampleRxSta 1) (zeroState fun _ => 0) (sampleEnding 7 0x01)).2.isSome = true := by decide
    obtain ⟨msdu,returned⟩ := Option.isSome_iff_exists.mp some
    obtain ⟨parts,sub,fragments⟩ := soundParts sound returned
    have few : parts.length ≤ 1 := sub.length_le
    have several := fragments.several
    omega
  · rintro ⟨-,sound,-⟩
    have some : (call (sampleRxSta 1) (step (sampleRxSta 1) (zeroState fun _ => 0) (sampleOpening 4 (by decide)))
        (sampleEnding 8 0x51)).2.isSome = true := by decide
    obtain ⟨msdu,returned⟩ := Option.isSome_iff_exists.mp some
    obtain ⟨parts,sub,fragments⟩ := soundParts sound returned
    have both := sub.eq_of_length_le fragments.several
    have same := fragments.oneTransmitter (sampleOpening 4 (by decide)).rx (by rw [both]; exact mem_cons_self)
      (sampleEnding 8 0x51).rx (by rw [both]; exact mem_cons_of_mem _ mem_cons_self)
    exact absurd same (by decide)
  · rintro ⟨sound,-⟩
    have fits := sound.2 (28,16024) (by decide)
    exact absurd fits (by decide)

end RtmpDriver.Defragment
