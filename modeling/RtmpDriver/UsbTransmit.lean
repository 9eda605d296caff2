import RtmpDriver.StepMachine
import RtmpDriver.UsbWriters

/-! Runs of the USB transmit ring, with any interleaving of writers, bulk-outs and completions. -/
namespace RtmpDriver.UsbTransmit
open ByteMemory UsbDescriptor UsbRing UsbSweep UsbLayout UsbInvariant UsbWriters StepMachine List

variable {Writer : Type} [DecidableEq Writer]
variable {p : Nat} {s : State Writer} {first second flight : List Frame} {sent : List Bytes}

theorem Kept.waits (kept : Kept p s first second flight sent) (none : flight = []) {q} (still : ¬ Pending q) :
    Kept p { s with pipe := q } first second flight sent := by
  obtain ⟨worker,heldFirst,heldSecond,_,_,_,order,wire,tails⟩ := kept
  refine ⟨?_,heldFirst,heldSecond,fun pending => absurd pending still,fun prepared => absurd (.inl prepared) still,
    fun _ => none,order,wire,tails⟩
  cases worker with
  | quiet jobs flag real shape pad => exact .quiet jobs flag real shape pad
  | writing w j busy =>
    obtain ⟨jobs,flag,real,shape,works,image,_⟩ := busy
    exact .writing w j ⟨jobs,flag,real,shape,works,image,fun pending => absurd pending still⟩

theorem sizedOfMask {out : List Bytes} (masks : out.map mask = flight.map fun f => mask f.bytes) :
    ∀ b ∈ out, Sized b := by
  intro b mem
  have image : mask b ∈ out.map mask := mem_map_of_mem mem
  rw [masks] at image
  obtain ⟨f,_,same⟩ := mem_map.mp image
  have length : b.length = f.bytes.length := by
    rw [← maskLength (b := b),← same,maskLength]
  have field : txInfoPktLen b = txInfoPktLen f.bytes := by
    rw [← pktLenOfMask (b := b),← same,pktLenOfMask]
  have low := f.low
  exact ⟨by rw [length,field]; exact f.sized,by omega⟩

theorem submitted {c : HtTxContext} {out : List Bytes} (chained : Chained out)
    (masks : out.map mask = flight.map fun f => mask f.bytes) (size : c.bulkOutSize = out.flatten.length + 4)
    (held : Holds c.wirelessPacket.cells c.nextBulkOutPosition (out.flatten ++ zeros 4)) :
    load c.wirelessPacket.cells c.nextBulkOutPosition c.bulkOutSize = out.flatten ++ zeros 4 ∧
      contents (out.flatten ++ zeros 4) = out := by
  refine ⟨?_,contentsChained chained (sizedOfMask masks) (zeros 4)⟩
  rw [size]
  rwa [Holds,length_append,show (zeros 4).length = 4 from rfl] at held

theorem submitKeeps (kept : Kept p s first second flight sent) (prepared : s.pipe = .prepared) :
    Keeps p (act s .submit) := by
  obtain ⟨out,chained,masks,size,held⟩ := kept.prepared prepared
  obtain ⟨bytes,frames⟩ := submitted chained masks size held
  simp only [act,prepared,bytes]
  have worker :
      Worker p { s with pipe := .submitted,transfers := s.transfers ++ [out.flatten ++ zeros 4] } first second := by
    cases kept.worker with
    | quiet jobs flag real shape pad => exact .quiet jobs flag real shape pad
    | writing w j busy =>
      obtain ⟨jobs,flag,real,shape,works,image,clear⟩ := busy
      exact .writing w j ⟨jobs,flag,real,shape,works,image,fun _ => clear (.inl prepared)⟩
  refine ⟨first,second,[],sent ++ flight.map Frame.bytes,worker,kept.heldFirst,kept.heldSecond,
    fun _ => kept.pending (.inl prepared),fun still => ?_,fun _ => rfl,?_,?_,?_⟩
  · cases still
  · simp only [kept.order,map_append,nil_append,append_assoc]
  · simp only [flatMap_append,map_append,kept.wire,flatMap_cons,flatMap_nil,append_nil,frames,
      masks,map_map]
    rfl
  · intro t mem
    rcases mem_append.mp mem with old | new
    · exact kept.tails t old
    · rw [mem_singleton.mp new,frames]

theorem Kept.placed (kept : Kept p s first second flight sent) :
    Placed s.ctx.eNextBulkOutPosition s.ctx.curWritePosition s.ctx.nextBulkOutPosition first second := by
  cases kept.worker with
  | quiet _ _ _ shape _ => exact shape.placed
  | writing _ _ busy => exact busy.shape.placed

theorem bulkOutCases (kept : Kept p s first second flight sent) (l) :
    first = [] ∧ rtusbBulkOutDataPacket l s.ctx = (s.ctx,false) ∨
      ∃ c' taken rest out, rtusbBulkOutDataPacket l s.ctx = (c',true) ∧ first = taken ++ rest ∧
        Sent s.ctx c' taken rest out := by
  have placed := Kept.placed kept
  rcases eq_or_ne first [] with none | some
  · refine .inl ⟨none,?_⟩
    unfold rtusbBulkOutDataPacket
    exact if_pos (placed.empty.mpr none)
  · have count := streamCount first
    have bound := placed.bound
    exact .inr (bulkOutSends l some placed.lane kept.heldFirst (by omega) fun nothing => some (placed.empty.mp nothing))

theorem bulkOutKeeps (kept : Kept p s first second flight sent) (bare : s.ctx.wirelessPacket.spans = [])
    (claimed : s.pipe = .claimed) (l) : Keeps p (act s (.bulkOut l)) ∧
      ∀ x ∈ (act s (.bulkOut l)).ctx.wirelessPacket.spans, x.1 + x.2 ≤ maxTxbulkSize := by
  have none : flight = [] := kept.landed (by simp [claimed])
  simp only [act,claimed]
  rcases bulkOutCases kept l with ⟨_,result⟩ | ⟨c',taken,rest,out,result,frames,bulk⟩
  · simp only [result,Bool.false_eq_true,if_false]
    refine ⟨⟨_,_,_,_,Kept.waits kept none (by simp [Pending])⟩,fun x mem => ?_⟩
    rw [bare] at mem
    cases mem
  · simp only [result,if_true]
    obtain ⟨first',second',kept'⟩ := kept.bulkOut claimed bulk frames
    refine ⟨⟨_,_,_,_,kept'⟩,fun x mem => ?_⟩
    have limit : maxTxbulkSize = 204800 := rfl
    have bound := (Kept.placed kept).bound
    have split := splitLength frames
    rcases bulk.spans x mem with old | inside
    · rw [bare] at old
      cases old
    · omega

def byWriter : Act Writer → Bool
  | .writeSingle .. | .copySingle .. | .commitSingle .. | .writeMulti .. | .copyMulti .. | .finalWrite .. => true
  | .claim .. | .bulkOut .. | .submit | .complete => false

def Safe (s : State Writer) (a : Act Writer) : Prop :=
  ∀ x ∈ (step s a).ctx.wirelessPacket.spans, x.1 + x.2 ≤ maxTxbulkSize ∧
    (byWriter a = true → s.pipe = .submitted → Apart x.1 x.2 s.ctx.nextBulkOutPosition s.ctx.bulkOutSize)

theorem writerKeeps {a} (advances : Advances p { s with ctx := s.ctx.forget } (step s a)) :
    Keeps p (step s a) ∧ Safe s a :=
  ⟨advances.1,fun x mem => ⟨(advances.2 x mem).1,fun _ pipe => (advances.2 x mem).2 (.inr pipe)⟩⟩

theorem pipeKeeps {a} (keeps : Keeps p (step s a)) (still : (step s a).ctx.wirelessPacket.spans = []) :
    Keeps p (step s a) ∧ Safe s a := by
  refine ⟨keeps,fun x mem => ?_⟩
  rw [still] at mem
  cases mem

theorem Kept.reserves (kept : Kept p s first second flight sent) (can : rtmpUsbCanDoWrite s.ctx = true) :
    Roomy (reserve s.ctx).eNextBulkOutPosition (reserve s.ctx).curWritePosition (reserve s.ctx).nextBulkOutPosition
      2048 := by
  obtain ⟨c1,c2,idle,c4⟩ := canDoWriteSpec.mp can
  obtain ⟨_,_,_,shape,_⟩ | ⟨_,_,busy⟩ := kept.worker
  · have roomy := shape.roomy c1 c2 c4
    unfold reserved at roomy
    unfold reserve
    split at roomy <;> rename_i same
    · simpa [same] using roomy
    · simpa [same] using roomy
  · have flag := busy.flag
    simp [idle] at flag

theorem shortLeaves {c len} (short : len ≤ localTxbufSize - 8)
    (roomy : Roomy c.eNextBulkOutPosition c.curWritePosition c.nextBulkOutPosition 2048) : LeavesRoom c len := by
  have buffer : localTxbufSize = 2048 := rfl
  have limit : maxTxbulkLimit = 202752 := rfl
  have size : maxTxbulkSize = 204800 := rfl
  obtain ⟨before,inside,same⟩ := roomy
  refine ⟨by omega,fun less => ?_,by omega,fun begins less => ?_⟩
  · have := before less
    omega
  · have := same begins less
    omega

theorem fitsRoom (keeps : Keeps p s) {a} (fits : Fits s a) : Room s a := by
  obtain ⟨first,second,flight,sent,kept⟩ := keeps
  cases a with
  | writeSingle w b => exact fun can => shortLeaves fits (Kept.reserves kept can)
  | writeMulti w b =>
    simp only [Fits,Room] at fits ⊢
    cases job : s.jobs w with
    | none =>
      rw [job] at fits
      exact fun can => shortLeaves fits (Kept.reserves kept can)
    | some j =>
      cases j with
      | batch priv copied =>
        rw [job] at fits
        exact shortLeaves fits ((kept.worker.busy job).shape.roomy (extentLow _).1)
      | _ => trivial
  | _ => trivial

theorem forgetLeaves {c len} (room : LeavesRoom (reserve c) len) : LeavesRoom (reserve c.forget) len := by
  unfold reserve at room ⊢
  rcases eq_or_ne c.eNextBulkOutPosition c.curWritePosition with same | other
  · rw [if_pos same] at room
    rwa [if_pos (show c.forget.eNextBulkOutPosition = c.forget.curWritePosition from same)]
  · rw [if_neg other] at room
    rwa [if_neg (show c.forget.eNextBulkOutPosition ≠ c.forget.curWritePosition from other)]

theorem stepKeeps (keeps : Keeps p s) {a} (room : Room s a) : Keeps p (step s a) ∧ Safe s a := by
  obtain ⟨first,second,flight,sent,kept⟩ := keeps
  have kept := kept.forget
  have bare : ({ s with ctx := s.ctx.forget } : State Writer).ctx.wirelessPacket.spans = [] := rfl
  have idle := advancesStill kept bare
  cases a with
  | writeSingle w b =>
    apply writerKeeps
    cases job : s.jobs w with
    | none => simpa only [step,act,job] using writeSingleAdvances kept bare b fun can => forgetLeaves (room can)
    | some j => simpa only [step,act,job] using idle
  | copySingle w =>
    apply writerKeeps
    cases job : s.jobs w with
    | none => simpa only [step,act,job] using idle
    | some j =>
      cases j with
      | single => exact copySingleAdvances kept bare job
      | _ => simpa only [step,act,job] using idle
  | commitSingle w =>
    apply writerKeeps
    cases job : s.jobs w with
    | none => simpa only [step,act,job] using idle
    | some j =>
      cases j with
      | written => exact commitSingleAdvances kept bare job
      | _ => simpa only [step,act,job] using idle
  | writeMulti w b =>
    apply writerKeeps
    simp only [Room] at room
    cases job : s.jobs w with
    | none =>
      rw [job] at room
      simpa only [step,act,job] using writeFirstAdvances kept bare b fun can => forgetLeaves (room can)
    | some j =>
      cases j with
      | batch priv copied =>
        rw [job] at room
        simpa only [step,act,job] using writeNextAdvances kept bare job b room
      | _ => simpa only [step,act,job] using idle
  | copyMulti w =>
    apply writerKeeps
    cases job : s.jobs w with
    | none => simpa only [step,act,job] using idle
    | some j =>
      cases j with
      | multi => exact copyMultiAdvances kept bare job
      | _ => simpa only [step,act,job] using idle
  | finalWrite w total =>
    apply writerKeeps
    cases job : s.jobs w with
    | none => simpa only [step,act,job] using idle
    | some j =>
      cases j with
      | batch => exact finalAdvances kept bare job total
      | _ => simpa only [step,act,job] using idle
  | claim needStopTx connected =>
    apply pipeKeeps
    · simp only [step,act]
      split
      · rename_i free
        exact ⟨_,_,_,_,Kept.waits kept (kept.landed (by simp [free.1])) (by simp [Pending])⟩
      · exact idle.1
    · simp only [step,act]
      split <;> rfl
  | bulkOut l =>
    cases pipe : s.pipe with
    | claimed =>
      obtain ⟨keeps,inside⟩ := bulkOutKeeps kept bare pipe l
      refine ⟨keeps,fun x mem => ⟨inside x mem,fun writer => ?_⟩⟩
      cases writer
    | _ => exact pipeKeeps (by simpa only [step,act,pipe] using idle.1) (by simp only [step,act,pipe]; rfl)
  | submit =>
    cases pipe : s.pipe with
    | prepared => exact pipeKeeps (submitKeeps kept pipe) (by simp only [step,act,pipe]; rfl)
    | _ => exact pipeKeeps (by simpa only [step,act,pipe] using idle.1) (by simp only [step,act,pipe]; rfl)
  | complete =>
    cases pipe : s.pipe with
    | submitted =>
      have waits := Kept.waits kept (q := .idle) (kept.landed (by simp [pipe])) (by simp [Pending])
      exact pipeKeeps ⟨_,_,_,_,by simpa only [step,act,pipe] using waits⟩ (by simp only [step,act,pipe]; rfl)
    | _ => exact pipeKeeps (by simpa only [step,act,pipe] using idle.1) (by simp only [step,act,pipe]; rfl)

theorem runKeepsRing (start : p = 0 ∨ p = 8) {memory pad} {acts : List (Act Writer)}
    (fits : Meets step Fits (fresh p memory pad) acts) : Always step (Keeps p) (fresh p memory pad) acts :=
  invariant (fun _ _ keeps fits => (stepKeeps keeps (fitsRoom keeps fits)).1) ⟨_,_,_,_,Kept.fresh start memory pad⟩ fits

theorem usbRingSafe (start : p = 0 ∨ p = 8) (memory pad : Nat → UInt8) (acts : List (Act Writer))
    (fits : Meets step Fits (fresh p memory pad) acts) : Meets step Safe (fresh p memory pad) acts :=
  meetsInvariant (fun _ _ keeps fits => (stepKeeps keeps (fitsRoom keeps fits)).1)
    (fun _ _ keeps fits => (stepKeeps keeps (fitsRoom keeps fits)).2) ⟨_,_,_,_,Kept.fresh start memory pad⟩ fits

def sampleBlock (k : UInt8) : TxBlk := ⟨fun i => k + UInt8.ofNat i,24,2,[k,k,k]⟩

def twoWriters : List (Act Nat) :=
  [.writeSingle 0 (sampleBlock 16),.copySingle 0,.commitSingle 0,.writeSingle 1 (sampleBlock 32),.claim false true,
    .bulkOut ⟨512,true⟩,.submit,.copySingle 1,.commitSingle 1,.complete,.claim false true,.bulkOut ⟨512,true⟩,.submit]

theorem twoWritersFit : Meets step Fits (fresh 0 (fun _ => 255) fun _ => 0) twoWriters := by decide +kernel

theorem usbRingSafeTwoWriters :
    Meets step Fits (fresh 0 (fun _ => 255) fun _ => 0) twoWriters ∧
      Meets step Safe (fresh 0 (fun _ => 255) fun _ => 0) twoWriters :=
  ⟨twoWritersFit,usbRingSafe (.inl rfl) _ _ twoWriters twoWritersFit⟩

def onWire (s : State Writer) : List Bytes := s.transfers.flatMap contents

def Fifo (s : State Writer) : Prop :=
  (onWire s).map mask <+: s.committed.map (fun k => mask k.bytes) ∧
    ∀ t ∈ s.transfers, t = (contents t).flatten ++ zeros 4

theorem Kept.fifo (kept : Kept p s first second flight sent) : Fifo s := by
  refine ⟨?_,kept.tails⟩
  have order := congrArg (map mask) kept.order
  rw [map_map,map_append,← kept.wire] at order
  exact ⟨_,order.symm⟩

theorem usbRingFifo (start : p = 0 ∨ p = 8) (memory pad : Nat → UInt8) (acts : List (Act Writer))
    (fits : Meets step Fits (fresh p memory pad) acts) : Always step Fifo (fresh p memory pad) acts :=
  alwaysMono (fun _ ⟨_,_,_,_,kept⟩ => Kept.fifo kept) (runKeepsRing start fits)

theorem usbRingFifoTwoWriters :
    (onWire (run step (fresh 0 (fun _ => 255) fun _ => 0) twoWriters)).length = 2 ∧
      Always step Fifo (fresh 0 (fun _ => 255) fun _ => 0) twoWriters :=
  ⟨by decide +kernel,usbRingFifo (.inl rfl) _ _ twoWriters twoWritersFit⟩

def call (l : Limits) : List (Act Writer) := [.claim false true,.bulkOut l,.submit]

def AtRest (s : State Writer) : Prop := s.ctx.bCurWriting = false ∧ s.pipe = .idle

def SendsOldest (s : State Writer) (l : Limits) : Prop :=
  ∃ t, (run step s (call l)).transfers = s.transfers ++ [t] ∧
    ∃ f k, (contents t).head? = some f ∧ s.committed[(onWire s).length]? = some k ∧ mask f = mask k.bytes

theorem runCall (idle : s.pipe = .idle) (l) : run step s (call l) =
      step { s with ctx := (rtusbBulkOutDataPacket l s.ctx.forget).1,pipe :=
        if (rtusbBulkOutDataPacket l s.ctx.forget).2 then .prepared else .idle } .submit := by
  simp only [run,call,foldl_cons,foldl_nil]
  congr 1
  simp only [step,act,idle,and_self,if_true]
  rfl

theorem sendsOldest (kept : Kept p s first second flight sent) (idle : s.pipe = .idle)
    (unsent : (onWire s).length < s.committed.length) (l) : SendsOldest s l := by
  have none : flight = [] := kept.landed (by simp [idle])
  subst none
  have count : (onWire s).length = sent.length := by simpa [onWire] using congrArg length kept.wire
  have order := kept.order
  rw [nil_append] at order
  have frames : first ≠ [] := by
    rintro rfl
    rw [(Kept.placed kept).none] at order
    have length := congrArg length order
    simp only [length_map,map_nil,append_nil] at length
    omega
  obtain ⟨nothing,_⟩ | ⟨c',taken,rest,out,result,split,bulk⟩ := bulkOutCases kept.forget l
  · exact absurd nothing frames
  have size : c'.bulkOutSize = out.flatten.length + 4 := by rw [bulk.bulk,bulk.size]
  have held := bulk.held
  rw [← bulk.start] at held
  obtain ⟨bytes,inside⟩ := submitted bulk.chained bulk.masks size held
  have sends : (run step s (call l)).transfers = s.transfers ++ [out.flatten ++ zeros 4] := by
    rw [runCall idle l,← bytes]
    simp only [result,if_true]
    rfl
  refine ⟨_,sends,?_⟩
  rw [inside]
  obtain ⟨f,taken,rfl⟩ := exists_cons_of_ne_nil bulk.some
  have masks := bulk.masks
  cases out with
  | nil => simp at masks
  | cons o out =>
    have oldest : (s.committed.map Committed.bytes)[(onWire s).length]? = some f.bytes := by
      rw [order,count,split,getElem?_append_right (Nat.le_refl _),Nat.sub_self]
      rfl
    rw [getElem?_map,Option.map_eq_some_iff] at oldest
    obtain ⟨k,here,same⟩ := oldest
    refine ⟨o,k,rfl,here,?_⟩
    rw [same]
    exact (cons.inj masks).1

theorem restAccepts (kept : Kept 0 s first second flight sent) (rest : AtRest s) :
    rtmpUsbCanDoWrite s.ctx = true ∨ ∀ l, (run step s [.claim false true,.bulkOut l]).pipe = .prepared := by
  obtain ⟨flag,idle⟩ := rest
  obtain ⟨_,_,_,shape,_⟩ | ⟨_,_,busy⟩ := kept.worker
  swap
  · have busy := busy.flag
    simp [flag] at busy
  rcases eq_or_ne first [] with rfl | some
  · obtain ⟨c1,c2,c4⟩ := shape.accepts (by decide)
    exact .inl (canDoWriteSpec.mpr ⟨c1,c2,flag,c4⟩)
  · refine .inr fun l => ?_
    obtain ⟨nothing,_⟩ | ⟨c',taken,rest,out,result,_⟩ := bulkOutCases kept.forget l
    · exact absurd nothing some
    · have prepared : (rtusbBulkOutDataPacket l s.ctx.forget.forget).2 = true := congrArg Prod.snd result
      simp only [run,foldl_cons,foldl_nil,step,act,idle,and_self,if_true]
      rw [prepared]
      rfl

def Progress (p : Nat) (s : State Writer) : Prop :=
  AtRest s → ((onWire s).length < s.committed.length → ∀ l, SendsOldest s l) ∧
    (p = 0 → rtmpUsbCanDoWrite s.ctx = true ∨ ∀ l, (run step s [.claim false true,.bulkOut l]).pipe = .prepared)

theorem usbRingProgress (start : p = 0 ∨ p = 8) (memory pad : Nat → UInt8) (acts : List (Act Writer))
    (fits : Meets step Fits (fresh p memory pad) acts) : Always step (Progress p) (fresh p memory pad) acts := by
  refine alwaysMono ?_ (runKeepsRing start fits)
  rintro s ⟨first,second,flight,sent,kept⟩ rest
  refine ⟨fun unsent l => sendsOldest kept rest.2 unsent l,?_⟩
  rintro rfl
  exact restAccepts kept rest

theorem usbRingProgressTwoWriters :
    Meets step Fits (fresh 0 (fun _ => 255) fun _ => 0) twoWriters ∧
      Always step (Progress 0) (fresh 0 (fun _ => 255) fun _ => 0) twoWriters :=
  ⟨twoWritersFit,usbRingProgress (.inl rfl) _ _ twoWriters twoWritersFit⟩

def RejectsBoth (s : State Writer) : Prop :=
  rtmpUsbCanDoWrite s.ctx = false ∧ ∀ l, (run step s [.claim false true,.bulkOut l]).pipe = .idle

theorem bothRejected :
    RejectsBoth (run step (fresh 0 (fun _ => 255) fun _ => 0) [.writeSingle 0 (sampleBlock 16)] : State Nat) ∧
      RejectsBoth (fresh 8 (fun _ => 255) fun _ => 0 : State Nat) :=
  ⟨⟨by decide,fun _ => rfl⟩,by decide,fun _ => rfl⟩

end RtmpDriver.UsbTransmit
