import RtmpDriver.UsbRing
import Mathlib.Data.Nat.Bitwise

/-! What the bulk-out loop does with the frames that lie in front of it. A lane is the sequence of frames from the read
position on: it ends at the write position, or with a frame flagged as the last of its round. -/
namespace RtmpDriver.UsbSweep
open ByteMemory UsbDescriptor UsbRing List

structure Frame where
  bytes : Bytes
  sized : bytes.length = txInfoPktLen bytes + 4
  low : 24 ≤ bytes.length

theorem Frame.high (f : Frame) : f.bytes.length ≤ 65539 := by
  have sized := f.sized
  have first := (byteAt f.bytes 0).toNat_lt
  have second := (byteAt f.bytes 1).toNat_lt
  unfold txInfoPktLen at sized
  omega

def Frame.last (f : Frame) : Bool := txInfoSwLstRnd f.bytes

def stream (fs : List Frame) : Bytes := (fs.map Frame.bytes).flatten

@[simp] theorem streamNil : stream [] = [] := rfl

@[simp] theorem streamCons (f : Frame) (fs) : stream (f :: fs) = f.bytes ++ stream fs := rfl

theorem streamAppend (fs gs) : stream (fs ++ gs) = stream fs ++ stream gs := by
  simp [stream]

theorem streamCount (fs) : 24 * fs.length ≤ (stream fs).length := by
  induction fs with
  | nil => exact Nat.le_refl _
  | cons f rest ih =>
    have here := f.low
    simp only [streamCons,length_cons,length_append]
    omega

theorem streamLong {fs} (some : fs ≠ []) : 24 ≤ (stream fs).length := by
  have count := streamCount fs
  have one := length_pos_iff.mpr some
  omega

inductive Lane (w : Nat) : Nat → List Frame → Prop where
  | stop : Lane w w []
  | last (p : Nat) (f : Frame) (flag : f.last = true) (away : w < p) : Lane w p [f]
  | cons (p : Nat) (f : Frame) (fs : List Frame) (plain : f.last = false) (away : p ≠ w)
      (rest : Lane w (p + f.bytes.length) fs) : Lane w p (f :: fs)

def Plain (fs : List Frame) : Prop := ∀ f ∈ fs, f.last = false

theorem Plain.append {fs gs} (left : Plain fs) (right : Plain gs) : Plain (fs ++ gs) := by
  intro f mem
  rcases mem_append.mp mem with mem | mem
  · exact left f mem
  · exact right f mem

theorem Plain.one {f} (plain : f.last = false) : Plain [f] := by
  intro g mem
  rwa [mem_singleton.mp mem]

theorem Lane.plain {fs} (plain : Plain fs) (p) : Lane (p + (stream fs).length) p fs := by
  induction fs generalizing p with
  | nil => exact Lane.stop
  | cons f rest ih =>
    have later := ih (fun g mem => plain g (mem_cons_of_mem f mem)) (p + f.bytes.length)
    have here := f.low
    rw [streamCons,length_append,← Nat.add_assoc]
    exact .cons p f rest (plain f mem_cons_self) (by omega) later

theorem Lane.wrapped {fs f w p} (plain : Plain fs) (flag : f.last = true)
    (away : w < p) : Lane w p (fs ++ [f]) := by
  induction fs generalizing p with
  | nil => exact .last p f flag away
  | cons g rest ih =>
    have later := ih (p := p + g.bytes.length) (fun g mem => plain g (mem_cons_of_mem _ mem)) (by omega)
    exact .cons p g _ (plain g mem_cons_self) (by omega) later

theorem Lane.position {w p f fs} (lane : Lane w p (f :: fs)) : p ≠ w := by
  cases lane with
  | last _ _ _ away => exact Nat.ne_of_gt away
  | cons _ _ _ _ away _ => exact away

theorem highBits {x k mask} (field : mask = (2 ^ (32 - k) - 1) <<< k) (some : k ≤ 32) (small : x < 2 ^ 32)
    (clear : x &&& mask = 0) : x < 2 ^ k := by
  have shifted : (x >>> k) &&& (2 ^ (32 - k) - 1) = 0 := by
    have zero := congrArg (· >>> k) clear
    simpa [field,Nat.shiftRight_and_distrib] using zero
  have less : x >>> k < 2 ^ (32 - k) := by
    rw [Nat.shiftRight_eq_div_pow]
    refine Nat.div_lt_of_lt_mul ?_
    rwa [← Nat.pow_add,Nat.add_sub_cancel' some]
  rw [Nat.and_two_pow_sub_one_eq_mod,Nat.mod_eq_of_lt less,Nat.shiftRight_eq_div_pow] at shifted
  have := Nat.div_eq_zero_iff.mp shifted
  have pos : 0 < 2 ^ k := Nat.two_pow_pos k
  omega

theorem sizeReachedShort {l size phy} (small : size < 2 ^ 32)
    (more : sizeReached l size phy = false) : size < 0x8000 := by
  unfold sizeReached at more
  split at more
  · have clear : size &&& 0xffff8000 = 0 := by
      simp only [decide_eq_false_iff_not,not_or,Decidable.not_not] at more
      exact more.1
    exact highBits (k := 15) rfl (by decide) small clear
  · have clear : size &&& 0xffffe000 = 0 := by
      simp only [decide_eq_false_iff_not,not_or,Decidable.not_not] at more
      exact more.1
    have short := highBits (k := 13) rfl (by decide) small clear
    omega

theorem sizeReachedZero (l phy) : sizeReached l 0 phy = false := by
  simp [sizeReached]

structure Took (w : Nat) (s t : Sweep) (f : Frame) (g : Bytes) : Prop where
  edited : Edited s.wirelessPacket t.wirelessPacket s.tmpBulkEndPos f.bytes g
  same : mask g = mask f.bytes
  linked : f.last = false → s.tmpBulkEndPos + f.bytes.length ≠ w → txInfoUdmaNextVld g = true
  stop : t.tmpBulkEndPos = s.tmpBulkEndPos + f.bytes.length
  size : t.thisBulkSize = s.thisBulkSize + f.bytes.length
  tail : t.pLastTxInfo = some s.tmpBulkEndPos
  round : t.bTxQLastRound = s.bTxQLastRound

theorem descriptorOf {m p b} (held : Holds m p b) (long : 8 ≤ b.length) :
    txInfoPktLen (load m p 8) = txInfoPktLen b ∧ txInfoSwLstRnd (load m p txInfoSize) = txInfoSwLstRnd b := by
  have eight : (b.take 8).length = 8 := length_take_of_le long
  have four : (b.take 4).length = 4 := length_take_of_le (by omega)
  refine ⟨?_,?_⟩
  · have whole := pktLenAppend (b := b.take 8) (b.drop 8) (by omega)
    rw [take_append_drop] at whole
    rw [held.take long,whole]
  · have whole := swLstRndAppend (b := b.take 4) (b.drop 4) (by omega)
    rw [take_append_drop] at whole
    rw [held.take (n := txInfoSize) (by unfold txInfoSize; omega)]
    exact whole.symm

section Edits
variable {r : Region UInt8} {p : Nat} {b : Bytes}

theorem infoEdited {f} (front : Front 4 f) (long : 4 ≤ b.length) (held : Holds r.cells p b) :
    Edited r (r.patch p txInfoSize f) p b (f b) := .patch front long held

theorem linkEdited {f : Frame} (held : Holds r.cells p f.bytes) (next w : Nat) :
    let edca := r.patch p txInfoSize (setQsel fifoEdca)
    ∃ g, Edited r (if next ≠ w then edca.patch p txInfoSize (setNextVld true) else edca) p f.bytes g ∧
      mask g = mask f.bytes ∧ txInfoSwLstRnd g = f.last ∧ (next ≠ w → txInfoUdmaNextVld g = true) := by
  intro edca
  have long := f.low
  have first : Edited r edca p f.bytes (setQsel fifoEdca f.bytes) := infoEdited setQselFront (by omega) held
  have second : Edited edca (edca.patch p txInfoSize (setNextVld true)) p (setQsel fifoEdca f.bytes)
      (setNextVld true (setQsel fifoEdca f.bytes)) :=
    infoEdited setNextVldFront (by rw [setQselLength]; omega) first.holds
  rcases eq_or_ne next w with reached | short
  · rw [if_neg (not_not.mpr reached)]
    exact ⟨_,first,maskOfQsel,swLstRndOfQsel,fun other => absurd reached other⟩
  · rw [if_pos short]
    refine ⟨_,first.trans second,maskOfNextVld.trans maskOfQsel,?_,fun _ => nextVldOfSet ?_⟩
    · exact (swLstRndOfNextVld (by rw [setQselLength]; omega)).trans swLstRndOfQsel
    · rw [setQselLength]
      omega

theorem closeEdited (held : Holds r.cells p b) (long : 4 ≤ b.length) (w) :
    ∃ g, Edited r ((if w = 8 then r.patch p txInfoSize (setNextVld false) else r).patch p txInfoSize
      (setSwLstRnd false)) p b g ∧ mask g = mask b := by
  rcases eq_or_ne w 8 with wrapped | other
  · rw [if_pos wrapped]
    have first := infoEdited (setNextVldFront (v := false)) long held
    have second := infoEdited (setSwLstRndFront (v := false)) (by rw [setNextVldLength]; omega) first.holds
    exact ⟨_,first.trans second,maskOfSwLstRnd.trans maskOfNextVld⟩
  · rw [if_neg other]
    exact ⟨_,infoEdited (setSwLstRndFront (v := false)) long held,maskOfSwLstRnd⟩

end Edits

theorem turnTakes (l) {w} {s : Sweep} {f : Frame}
    (more : sizeReached l s.thisBulkSize (phyMode (load s.wirelessPacket.cells s.tmpBulkEndPos 8)) = false)
    (away : s.tmpBulkEndPos ≠ w) (held : Holds s.wirelessPacket.cells s.tmpBulkEndPos f.bytes) :
    ∃ t g, Took w s t f g ∧
      (f.last = true ∧ turn l w s = .leave { t with bTxQLastRound := true,eNextBulkOutPosition := 8 } ∨
        f.last = false ∧ (turn l w s = .leave { t with eNextBulkOutPosition := t.tmpBulkEndPos } ∨
          turn l w s = .again t)) := by
  have long := f.low
  have sized := f.sized
  have length := (descriptorOf held (by omega)).1
  have size : txInfoPktLen (load s.wirelessPacket.cells s.tmpBulkEndPos 8) + 4 = f.bytes.length := by omega
  have enough : ¬ txInfoPktLen (load s.wirelessPacket.cells s.tmpBulkEndPos 8) ≤ 8 := by omega
  obtain ⟨g,edited,same,flag,linked⟩ := linkEdited held (s.tmpBulkEndPos + f.bytes.length) w
  have read := (descriptorOf edited.holds (by rw [edited.size]; omega)).2
  rw [flag] at read
  simp only [turn,more,Bool.false_eq_true,if_false,if_neg away,if_neg enough,size,read]
  generalize (if s.tmpBulkEndPos + f.bytes.length ≠ w then _ else _) = packet at edited ⊢
  let t : Sweep := ⟨packet,s.tmpBulkEndPos + f.bytes.length,s.thisBulkSize + f.bytes.length,
    some s.tmpBulkEndPos,s.bTxQLastRound,s.eNextBulkOutPosition,s.aggregationNum⟩
  cases last : f.last with
  | true =>
    obtain ⟨g',closed,same'⟩ := closeEdited edited.holds (by rw [edited.size]; omega) w
    exact ⟨{ t with wirelessPacket := _ },g',
      ⟨edited.trans closed,same'.trans same,fun plain => by simp [last] at plain,rfl,rfl,rfl,rfl⟩,.inl ⟨rfl,rfl⟩⟩
  | false =>
    refine ⟨{ t with aggregationNum := s.aggregationNum + 1 },g,
      ⟨edited,same,fun _ short => linked short,rfl,rfl,rfl,rfl⟩,.inr ⟨rfl,?_⟩⟩
    simp only [Bool.false_eq_true,if_false]
    split
    · exact .inl rfl
    · exact .inr rfl

structure Swept (s t : Sweep) (taken : List Frame) (front : List Bytes) (back : Bytes) : Prop where
  edited : Edited s.wirelessPacket t.wirelessPacket s.tmpBulkEndPos (stream taken) ((front ++ [back]).flatten)
  masks : (front ++ [back]).map mask = taken.map fun f => mask f.bytes
  linked : ∀ b ∈ front, txInfoUdmaNextVld b = true
  stop : t.tmpBulkEndPos = s.tmpBulkEndPos + (stream taken).length
  size : t.thisBulkSize = s.thisBulkSize + (stream taken).length
  tail : t.pLastTxInfo = some (s.tmpBulkEndPos + front.flatten.length)
  short : t.thisBulkSize < 0x8000 + 65540

def Ended (t : Sweep) (taken rest : List Frame) : Prop :=
  t.bTxQLastRound = true ∧ t.eNextBulkOutPosition = 8 ∧ rest = [] ∧ (∃ f ∈ taken, f.last = true) ∨
    t.bTxQLastRound = false ∧ t.eNextBulkOutPosition = t.tmpBulkEndPos ∧ Plain taken

theorem Took.swept {w s t f g} (took : Took w s t f g) (short : s.thisBulkSize < 0x8000) (last e) :
    Swept s { t with bTxQLastRound := last,eNextBulkOutPosition := e } [f] [] g := by
  have high := f.high
  refine ⟨?_,?_,nofun,?_,?_,?_,?_⟩
  · simpa using took.edited
  · simp [took.same]
  · simpa using took.stop
  · simpa using took.size
  · simpa using took.tail
  · simp only [took.size]
    omega

theorem Took.sweptCons {w s t u f g taken front back} (took : Took w s t f g) (linked : txInfoUdmaNextVld g = true)
    (swept : Swept t u taken front back) : Swept s u (f :: taken) (g :: front) back := by
  have later := swept.edited
  rw [took.stop] at later
  refine ⟨took.edited.append later,?_,?_,?_,?_,?_,swept.short⟩
  · simp only [cons_append,map_cons,took.same,swept.masks]
  · rintro b (_ | ⟨_,mem⟩)
    · exact linked
    · exact swept.linked b mem
  · rw [swept.stop,took.stop,streamCons,length_append,Nat.add_assoc]
  · rw [swept.size,took.size,streamCons,length_append,Nat.add_assoc]
  · rw [swept.tail,took.stop,flatten_cons,length_append,took.edited.size,Nat.add_assoc]

theorem sweepLeave {l w fuel s t} (turned : turn l w s = .leave t) :
    sweep l w (fuel + 1) s = .leave t := by simp only [sweep,turned]

theorem sweepAgain {l w fuel s t} (turned : turn l w s = .again t) :
    sweep l w (fuel + 1) s = sweep l w fuel t := by simp only [sweep,turned]

theorem sweepTakes (l) {w fs s fuel}
    (lane : Lane w s.tmpBulkEndPos fs) (held : Holds s.wirelessPacket.cells s.tmpBulkEndPos (stream fs))
    (enough : fs.length < fuel) (small : s.thisBulkSize < 2 ^ 32) (round : s.bTxQLastRound = false) :
    (s.thisBulkSize ≠ 0 ∨ fs = []) ∧ sweep l w fuel s = .leave { s with eNextBulkOutPosition := s.tmpBulkEndPos } ∨
      ∃ t taken rest front back, sweep l w fuel s = .leave t ∧ fs = taken ++ rest ∧
        Swept s t taken front back ∧ Ended t taken rest := by
  induction fs generalizing s fuel with
  | nil =>
    obtain ⟨fuel,rfl⟩ : ∃ k, fuel = k + 1 := ⟨fuel - 1,by simp at enough; omega⟩
    have here : s.tmpBulkEndPos = w := by cases lane; rfl
    have left : turn l w s = .leave { s with eNextBulkOutPosition := s.tmpBulkEndPos } := by
      simp only [turn,if_pos here]
      split <;> rfl
    exact .inl ⟨.inr rfl,sweepLeave left⟩
  | cons f fs ih =>
    obtain ⟨fuel,rfl⟩ : ∃ k, fuel = k + 1 := ⟨fuel - 1,by simp at enough; omega⟩
    rw [streamCons,holdsAppend] at held
    cases reached : sizeReached l s.thisBulkSize (phyMode (load s.wirelessPacket.cells s.tmpBulkEndPos 8)) with
    | true =>
      refine .inl ⟨.inl fun zero => ?_,?_⟩
      · rw [zero,sizeReachedZero] at reached
        cases reached
      · exact sweepLeave (by simp only [turn,reached,if_true])
    | false =>
      have short := sizeReachedShort small reached
      obtain ⟨t,g,took,⟨flag,turned⟩ | ⟨plain,turned⟩⟩ := turnTakes l reached lane.position held.1
      · have alone : fs = [] := by
          cases lane with
          | last => rfl
          | cons _ _ _ plain => simp [plain] at flag
        subst alone
        exact .inr ⟨_,[f],[],[],g,sweepLeave turned,rfl,took.swept short true 8,
          .inl ⟨rfl,rfl,rfl,f,mem_cons_self,flag⟩⟩
      have one : Plain [f] := by simpa [Plain] using plain
      have stops : ∀ fuel, sweep l w fuel s = .leave { t with eNextBulkOutPosition := t.tmpBulkEndPos } →
          ∃ t taken rest front back, sweep l w fuel s = .leave t ∧ f :: fs = taken ++ rest ∧
            Swept s t taken front back ∧ Ended t taken rest := fun fuel left =>
        ⟨_,[f],fs,[],g,left,rfl,took.swept short t.bTxQLastRound t.tmpBulkEndPos,
          .inr ⟨took.round.trans round,rfl,one⟩⟩
      rcases turned with turned | turned
      · exact .inr (stops _ (sweepLeave turned))
      have rest : Lane w t.tmpBulkEndPos fs := by
        rw [took.stop]
        cases lane with
        | last _ _ flag => simp [plain] at flag
        | cons _ _ _ _ _ rest => exact rest
      have later : Holds t.wirelessPacket.cells t.tmpBulkEndPos (stream fs) := by
        rw [took.stop]
        exact held.2.congr fun i low high => took.edited.outside i (.inr low)
      have high := f.high
      have grown := took.size
      have enough' : fs.length < fuel := by simpa using enough
      have more := ih rest later enough' (by omega) (took.round.trans round)
      rw [← sweepAgain turned] at more
      rcases more with ⟨_,left⟩ | ⟨u,taken,rest',front,back,left,rfl,swept,ended⟩
      · exact .inr (stops _ left)
      · have link : txInfoUdmaNextVld g = true := by
          refine took.linked plain ?_
          rw [← took.stop]
          cases taken with
          | nil => cases front <;> simpa using swept.masks
          | cons f' taken => exact rest.position
        refine .inr ⟨u,f :: taken,rest',g :: front,back,left,rfl,took.sweptCons link swept,?_⟩
        rcases ended with ⟨last,e,none,f',mem,flag⟩ | ⟨last,e,all⟩
        · exact .inl ⟨last,e,none,f',mem_cons_of_mem f mem,flag⟩
        · exact .inr ⟨last,e,forall_mem_cons.mpr ⟨plain,all⟩⟩

def view (c : HtTxContext) : Nat → UInt8 :=
  if c.bCopySavePad then store c.wirelessPacket.cells c.eNextBulkOutPosition (load c.savedPad.cells 0 8)
  else c.wirelessPacket.cells

theorem viewNear {c i}
    (away : c.bCopySavePad = true → i < c.eNextBulkOutPosition ∨ c.eNextBulkOutPosition + 8 ≤ i) :
    view c i = c.wirelessPacket.cells i := by
  unfold view
  cases copy : c.bCopySavePad with
  | false => rfl
  | true => exact storeOut (by rw [loadLength]; exact away copy)

theorem viewCongr {c c' i} (saved : c'.bCopySavePad = c.bCopySavePad)
    (reader : c'.eNextBulkOutPosition = c.eNextBulkOutPosition) (pad : c'.savedPad = c.savedPad)
    (cell : c'.wirelessPacket.cells i = c.wirelessPacket.cells i) : view c' i = view c i := by
  unfold view
  rw [saved,reader,pad]
  cases c.bCopySavePad with
  | false => exact cell
  | true => exact storeCongr cell

structure Sent (c c' : HtTxContext) (taken rest : List Frame) (out : List Bytes) : Prop where
  some : taken ≠ []
  chained : Chained out
  masks : out.map mask = taken.map fun f => mask f.bytes
  held : Holds c'.wirelessPacket.cells c.eNextBulkOutPosition (out.flatten ++ zeros 4)
  size : out.flatten.length = (stream taken).length
  bulk : c'.bulkOutSize = (stream taken).length + 4
  start : c'.nextBulkOutPosition = c.eNextBulkOutPosition
  position : c'.curWritePosition = c.curWritePosition
  real : c'.curWriteRealPos = c.curWriteRealPos
  writing : c'.bCurWriting = c.bCurWriting
  short : (stream taken).length < 0x8000 + 65540
  ended : c'.eNextBulkOutPosition = 8 ∧ c'.bCopySavePad = false ∧ rest = [] ∧ (∃ f ∈ taken, f.last = true) ∨
    c'.eNextBulkOutPosition = c.eNextBulkOutPosition + (stream taken).length ∧ Plain taken ∧
      (c'.bCopySavePad = true ∨
        c'.eNextBulkOutPosition = c.curWritePosition ∧ c.curWriteRealPos ≤ c.curWritePosition)
  saving : c'.bCopySavePad = true → c'.eNextBulkOutPosition = c.curWritePosition →
    c.curWritePosition < c.curWriteRealPos
  outside : ∀ i, i < c.eNextBulkOutPosition ∨ c.eNextBulkOutPosition + (stream taken).length + 8 ≤ i →
    view c' i = view c i
  beyond : c'.bCopySavePad = true → ∀ i, c.eNextBulkOutPosition + (stream taken).length ≤ i → view c' i = view c i
  spans : ∀ x ∈ c'.wirelessPacket.spans, x ∈ c.wirelessPacket.spans ∨
    c.eNextBulkOutPosition ≤ x.1 ∧ x.1 + x.2 ≤ c.eNextBulkOutPosition + (stream taken).length + 8

theorem Sent.below {c c' taken rest out} (bulk : Sent c c' taken rest out) {q b} (held : Holds (view c) q b)
    (low : q + b.length ≤ c.eNextBulkOutPosition) : Holds (view c') q b :=
  held.congr fun i _ high => bulk.outside i (.inl (by omega))

theorem Sent.behind {c c' taken rest out} (bulk : Sent c c' taken rest out) (saved : c'.bCopySavePad = true) {q b}
    (held : Holds (view c) q b) (high : c.eNextBulkOutPosition + (stream taken).length ≤ q) : Holds (view c') q b :=
  held.congr fun i low _ => bulk.beyond saved i (by omega)

theorem chainedAppend {front back} (linked : ∀ b ∈ front, txInfoUdmaNextVld b = true)
    (stop : txInfoUdmaNextVld back = false) : Chained (front ++ [back]) := by
  induction front with
  | nil => exact .last back stop
  | cons b rest ih =>
    exact .cons b _ (linked b mem_cons_self) (ih fun c mem => linked c (mem_cons_of_mem b mem))

theorem restoreView (c) : (restorePad c).wirelessPacket.cells = view c := by
  unfold restorePad view
  cases c.bCopySavePad <;> rfl

theorem restoreFields (c) :
    (restorePad c).curWritePosition = c.curWritePosition ∧ (restorePad c).curWriteRealPos = c.curWriteRealPos ∧
      (restorePad c).bCurWriting = c.bCurWriting ∧ (restorePad c).nextBulkOutPosition = c.eNextBulkOutPosition ∧
      (restorePad c).bCopySavePad = false := by
  unfold restorePad
  cases c.bCopySavePad <;> simp

theorem restoreSpans (c) {x} (mem : x ∈ (restorePad c).wirelessPacket.spans) :
    x ∈ c.wirelessPacket.spans ∨ x = (c.eNextBulkOutPosition,8) := by
  unfold restorePad at mem
  cases pad : c.bCopySavePad with
  | false => exact .inl (by simpa [pad] using mem)
  | true => simpa [pad] using mem

theorem Swept.unlink {s t taken front back} (swept : Swept s t taken front back) (some : taken ≠ []) :
    Edited s.wirelessPacket
        (t.wirelessPacket.patch (s.tmpBulkEndPos + front.flatten.length) txInfoSize (setNextVld false))
        s.tmpBulkEndPos (stream taken) (front ++ [setNextVld false back]).flatten ∧
      Chained (front ++ [setNextVld false back]) ∧
      (front ++ [setNextVld false back]).map mask = taken.map fun f => mask f.bytes := by
  have long : 24 ≤ back.length := by
    have masks := congrArg (fun l => (l.getLast?).map List.length) swept.masks
    obtain ⟨init,f,rfl⟩ := eq_nil_or_concat' taken |>.resolve_left some
    have low := f.low
    simp only [map_append,map_cons,map_nil,List.getLast?_append,List.getLast?_singleton,
      Option.some_or,Option.map_some,maskLength,Option.some.injEq] at masks
    omega
  have held := swept.edited.holds
  simp only [flatten_append,flatten_cons,flatten_nil,append_nil] at held
  obtain ⟨first,last⟩ := holdsAppend.mp held
  have cleared := (Edited.refl first).append (infoEdited (setNextVldFront (v := false)) (by omega) last)
  refine ⟨swept.edited.trans ?_,chainedAppend swept.linked (nextVldOfSet (by omega)),?_⟩
  · simpa using cleared
  · have masks := swept.masks
    simpa [maskOfNextVld] using masks

theorem finishView {c t info} (last : t.pLastTxInfo = some info)
    (bare : c.bCopySavePad = false) (stops : t.bTxQLastRound = false → t.eNextBulkOutPosition = t.tmpBulkEndPos) :
    let packet := t.wirelessPacket.patch info txInfoSize (setNextVld false)
    (finishBulkOut c t).wirelessPacket = packet.write t.tmpBulkEndPos (zeros 8) ∧
      ((finishBulkOut c t).bCopySavePad = true ∧ t.bTxQLastRound = false ∧
          (t.eNextBulkOutPosition = c.curWritePosition → c.curWritePosition < c.curWriteRealPos) ∧
          view (finishBulkOut c t) = packet.cells ∨
        (finishBulkOut c t).bCopySavePad = false ∧
          (t.bTxQLastRound = false → t.eNextBulkOutPosition = c.curWritePosition ∧
            c.curWriteRealPos ≤ c.curWritePosition) ∧
          view (finishBulkOut c t) = store packet.cells t.tmpBulkEndPos (zeros 8)) := by
  intro packet
  unfold finishBulkOut
  simp only [last]
  split
  · rename_i saving
    refine ⟨rfl,.inl ⟨rfl,saving.1,fun here => ?_,?_⟩⟩
    · rcases saving.2 with ⟨_,ahead⟩ | other
      · exact ahead
      · exact absurd here other
    have eight : load (store c.savedPad.cells 0 (load packet.cells t.eNextBulkOutPosition 8)) 0 8 =
        load packet.cells t.eNextBulkOutPosition 8 := by
      have held : Holds (store c.savedPad.cells 0 (load packet.cells t.eNextBulkOutPosition 8)) 0
          (load packet.cells t.eNextBulkOutPosition 8) := holdsStore
      rwa [Holds,loadLength] at held
    simp only [view,if_true,Region.writeCells]
    rw [eight,stops saving.1,storeAgain (by rw [loadLength]; rfl),storeLoad]
  · rename_i keeping
    refine ⟨rfl,.inr ⟨bare,?_,?_⟩⟩
    · intro round
      have here : t.eNextBulkOutPosition = c.curWritePosition :=
        not_not.mp fun other => keeping ⟨round,.inr other⟩
      exact ⟨here,Nat.le_of_not_lt fun ahead => keeping ⟨round,.inl ⟨here,ahead⟩⟩⟩
    · simp [view,bare]
      rfl

theorem finishFields (c t) : (finishBulkOut c t).curWritePosition = c.curWritePosition ∧
      (finishBulkOut c t).curWriteRealPos = c.curWriteRealPos ∧ (finishBulkOut c t).bCurWriting = c.bCurWriting ∧
      (finishBulkOut c t).nextBulkOutPosition = c.nextBulkOutPosition ∧
      (finishBulkOut c t).bulkOutSize = t.thisBulkSize + 4 ∧
      (finishBulkOut c t).eNextBulkOutPosition = t.eNextBulkOutPosition := by
  unfold finishBulkOut
  dsimp only
  split <;> exact ⟨rfl,rfl,rfl,rfl,rfl,rfl⟩

theorem finishSent {c t taken rest front back}
    (swept : Swept (firstTurn (restorePad c)) t taken front back) (ended : Ended t taken rest) :
    Sent c (finishBulkOut (restorePad c) t) taken rest (front ++ [setNextVld false back]) := by
  obtain ⟨position,real,writing,start,bare⟩ := restoreFields c
  have some : taken ≠ [] := by
    rintro rfl
    simpa using swept.masks
  obtain ⟨edited,chained,masks⟩ := swept.unlink some
  have origin : (firstTurn (restorePad c)).tmpBulkEndPos = c.eNextBulkOutPosition := start
  have base : (firstTurn (restorePad c)).wirelessPacket.cells = view c := restoreView c
  have stop := swept.stop
  have size : t.thisBulkSize = (stream taken).length := by simpa [firstTurn] using swept.size
  have short := swept.short
  rw [origin] at edited stop
  have stops : t.bTxQLastRound = false → t.eNextBulkOutPosition = t.tmpBulkEndPos := by
    intro round
    rcases ended with ⟨last,_⟩ | ⟨_,e,_⟩
    · simp [last] at round
    · exact e
  obtain ⟨packet,views⟩ := finishView (c := restorePad c) (by rw [swept.tail,origin]) bare stops
  obtain ⟨position',real',writing',start',bulk',eNext'⟩ := finishFields (restorePad c) t
  generalize t.wirelessPacket.patch (c.eNextBulkOutPosition + front.flatten.length) txInfoSize (setNextVld false) =
    buf at edited packet views
  refine ⟨some,chained,masks,?_,edited.size,by rw [bulk',size],start'.trans start,position'.trans position,
    real'.trans real,writing'.trans writing,by omega,?_,?_,?_,?_,?_⟩
  · rw [packet,Region.writeCells,holdsAppend,edited.size,← stop]
    refine ⟨edited.holds.apart (.inr ?_),?_⟩
    · rw [edited.size,stop]
    · have eight : Holds (store buf.cells t.tmpBulkEndPos (zeros 8)) t.tmpBulkEndPos (zeros 4 ++ zeros 4) := holdsStore
      exact (holdsAppend.mp eight).1
  · rcases ended with ⟨last,e,none,flagged⟩ | ⟨last,e,plain⟩
    · refine .inl ⟨eNext'.trans e,?_,none,flagged⟩
      rcases views with ⟨_,round,_⟩ | ⟨off,_⟩
      · simp [last] at round
      · exact off
    · refine .inr ⟨by rw [eNext',e,stop],plain,?_⟩
      rcases views with ⟨on,_⟩ | ⟨_,here,_⟩
      · exact .inl on
      · have at_end := here last
        rw [position,real] at at_end
        exact .inr ⟨eNext'.trans at_end.1,at_end.2⟩
  · intro saved here
    rcases views with ⟨_,_,ahead,_⟩ | ⟨off,_,_⟩
    · rw [position,real] at ahead
      exact ahead (eNext'.symm.trans here)
    · simp [off] at saved
  · intro i outside
    have same := edited.outside i (by omega)
    rw [base] at same
    rcases views with ⟨_,_,_,whole⟩ | ⟨_,_,whole⟩
    · rw [whole,same]
    · rw [whole,storeOut (by simp only [zeros,length_replicate]; omega),same]
  · intro saved i high
    have same := edited.outside i (by omega)
    rw [base] at same
    rcases views with ⟨_,_,_,whole⟩ | ⟨off,_,_⟩
    · rw [whole,same]
    · simp [off] at saved
  · intro x mem
    rw [packet,Region.writeSpans,mem_append,mem_singleton] at mem
    rcases mem with mem | rfl
    · rcases edited.spans x mem with before | inside
      · rcases restoreSpans c before with before | rfl
        · exact .inl before
        · exact .inr (by simp only; omega)
      · exact .inr (by omega)
    · exact .inr (by simp only [zeros,length_replicate]; omega)

theorem bulkOutSends (l) {c fs} (some : fs ≠ []) (lane : Lane c.curWritePosition c.eNextBulkOutPosition fs)
    (held : Holds (view c) c.eNextBulkOutPosition (stream fs)) (enough : fs.length < 0x8000)
    (ready : ¬ nothingToSend c) :
    ∃ c' taken rest out, rtusbBulkOutDataPacket l c = (c',true) ∧ fs = taken ++ rest ∧ Sent c c' taken rest out := by
  obtain ⟨position,_,_,start,_⟩ := restoreFields c
  have origin : (firstTurn (restorePad c)).tmpBulkEndPos = c.eNextBulkOutPosition := start
  rw [← position,← origin] at lane
  rw [← origin,← restoreView] at held
  rcases sweepTakes l lane held enough (Nat.two_pow_pos 32) rfl with
    ⟨stuck,_⟩ | ⟨t,taken,rest,front,back,left,frames,swept,ended⟩
  · rcases stuck with zero | none
    · exact absurd rfl zero
    · exact absurd none some
  · refine ⟨_,taken,rest,_,?_,frames,finishSent swept ended⟩
    simp only [rtusbBulkOutDataPacket,if_neg ready,left]

end RtmpDriver.UsbSweep
