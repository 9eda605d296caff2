import Mathlib.Logic.Function.Basic
import RtmpDriver.UsbLayout

/-! The invariant of the USB transmit ring: at most one writer is at work, the unsent frames lie as the layout says, a
transfer under way is not disturbed, and what was committed is sent, in flight or in the buffer, in this order. -/
namespace RtmpDriver.UsbInvariant
open ByteMemory UsbDescriptor UsbRing UsbSweep UsbLayout List

variable {Writer : Type} [DecidableEq Writer]

def Formed (b : Bytes) (priv : Nat) (last : Bool) : Prop :=
  b.length = priv ∧ b.length = txInfoPktLen b + 4 ∧ 24 ≤ b.length ∧ txInfoSwLstRnd b = last

def Working (w : Nat) : Job → Prop
  | .single cursor src padding priv last copied =>
    cursor = w + copied.length ∧ 24 ≤ copied.length ∧ Formed (copied ++ src ++ zeros padding) priv last ∧
      last = decide (202752 < w + 3906 + priv)
  | .written priv last copied => Formed copied priv last ∧ last = decide (202752 < w + 3906 + priv)
  | .multi cursor src priv copied =>
    cursor = w + copied.length ∧ copied.length = priv ∧ 24 ≤ priv ∧ txInfoSwLstRnd copied = false ∧
      paddedLength (priv + src.length) ≤ 65539
  | .batch priv copied =>
    copied.length = priv ∧ 24 ≤ priv ∧ txInfoSwLstRnd copied = false ∧ paddedLength priv ≤ 65539

def size : Job → Nat
  | .single _ _ _ priv _ _ => priv
  | .written priv _ _ => priv
  | .multi _ src priv _ => paddedLength (priv + src.length)
  | .batch priv _ => paddedLength priv

/- What a writer may touch: RtmpUSBCanDoWrite has found LOCAL_TXBUF_SIZE bytes free for it. -/
def extent (j : Job) : Nat := max 2048 (size j + 8)

theorem extentLow (j) : 2048 ≤ extent j ∧ size j + 8 ≤ extent j := ⟨Nat.le_max_left ..,Nat.le_max_right ..⟩

theorem extentRoomy {r w n j} (base : Roomy r w n 2048) (roomy : Roomy r w n (size j + 8)) :
    Roomy r w n (extent j) := by
  unfold extent
  rcases Nat.le_total 2048 (size j + 8) with more | less
  · rwa [Nat.max_eq_right more]
  · rwa [Nat.max_eq_left less]

def Pending (pipe : Pipe) : Prop := pipe = .prepared ∨ pipe = .submitted

def Reaches (c : HtTxContext) (r : Nat) : Prop :=
  c.nextBulkOutPosition ≤ c.eNextBulkOutPosition → c.nextBulkOutPosition + c.bulkOutSize ≤ r

structure Busy (s : State Writer) (w : Writer) (j : Job) (first second : List Frame) : Prop where
  jobs : s.jobs = Function.update (fun _ => none) w (some j)
  flag : s.ctx.bCurWriting = true
  real : s.ctx.curWritePosition < s.ctx.curWriteRealPos
  shape : Writing s.ctx.eNextBulkOutPosition s.ctx.curWritePosition s.ctx.nextBulkOutPosition (extent j) first second
  works : Working s.ctx.curWritePosition j
  image : Holds (view s.ctx) s.ctx.curWritePosition j.copied
  clear : Pending s.pipe → first = [] → s.ctx.bCopySavePad = false → Reaches s.ctx s.ctx.eNextBulkOutPosition

inductive Worker (p : Nat) (s : State Writer) (first second : List Frame) : Prop where
  | quiet (jobs : s.jobs = fun _ => none) (flag : s.ctx.bCurWriting = false)
      (real : s.ctx.curWriteRealPos = s.ctx.curWritePosition)
      (shape : Quiet p s.ctx.eNextBulkOutPosition s.ctx.curWritePosition s.ctx.nextBulkOutPosition first second)
      (pad : s.ctx.bCopySavePad = true → first ≠ [])
  | writing (w : Writer) (j : Job) (busy : Busy s w j first second)

structure Kept (p : Nat) (s : State Writer) (first second flight : List Frame) (sent : List Bytes) : Prop where
  worker : Worker p s first second
  heldFirst : Holds (view s.ctx) s.ctx.eNextBulkOutPosition (stream first)
  heldSecond : Holds (view s.ctx) 8 (stream second)
  pending : Pending s.pipe → Reaches s.ctx (s.ctx.eNextBulkOutPosition + 4)
  prepared : s.pipe = .prepared → ∃ out, Chained out ∧ out.map mask = flight.map (fun f => mask f.bytes) ∧
    s.ctx.bulkOutSize = out.flatten.length + 4 ∧
    Holds s.ctx.wirelessPacket.cells s.ctx.nextBulkOutPosition (out.flatten ++ zeros 4)
  landed : s.pipe ≠ .prepared → flight = []
  order : s.committed.map Committed.bytes = sent ++ (flight ++ (first ++ second)).map Frame.bytes
  wire : (s.transfers.flatMap contents).map mask = sent.map mask
  tails : ∀ t ∈ s.transfers, t = (contents t).flatten ++ zeros 4

variable {p : Nat} {s : State Writer} {first second flight : List Frame} {sent : List Bytes}

theorem Kept.fresh (start : p = 0 ∨ p = 8) (memory pad) :
    Kept p (fresh p memory pad : State Writer) [] [] [] [] := by
  have level : Level p p p [] := ⟨nofun,rfl,Nat.le_refl p,by omega,by omega,by simp; omega⟩
  have low : p ≤ 198846 := by omega
  refine ⟨.quiet rfl rfl rfl (.level level low .inr) nofun,rfl,rfl,?_,nofun,fun _ => rfl,rfl,rfl,nofun⟩
  rintro (pipe | pipe) <;> cases pipe

theorem Kept.forget (kept : Kept p s first second flight sent) :
    Kept p { s with ctx := s.ctx.forget } first second flight sent := by
  obtain ⟨worker,heldFirst,heldSecond,pending,prepared,landed,order,wire,tails⟩ := kept
  refine ⟨?_,heldFirst,heldSecond,pending,prepared,landed,order,wire,tails⟩
  cases worker with
  | quiet jobs flag real shape pad => exact .quiet jobs flag real shape pad
  | writing w j busy =>
    obtain ⟨jobs,flag,real,shape,works,image,clear⟩ := busy
    exact .writing w j ⟨jobs,flag,real,shape,works,image,clear⟩

def opened (c : HtTxContext) (header : Bytes) : HtTxContext :=
  let c := reserve { c with bCurWriting := true }
  { c with
    wirelessPacket := c.wirelessPacket.write c.curWritePosition header
    curWriteRealPos := c.curWritePosition + header.length }

structure Opened (c c' : HtTxContext) (header : Bytes) : Prop where
  position : c'.curWritePosition = c.curWritePosition + reserved c.eNextBulkOutPosition c.curWritePosition
  reader : c'.eNextBulkOutPosition = c.eNextBulkOutPosition + reserved c.eNextBulkOutPosition c.curWritePosition
  real : c'.curWriteRealPos = c'.curWritePosition + header.length
  flag : c'.bCurWriting = true
  next : c'.nextBulkOutPosition = c.nextBulkOutPosition
  size : c'.bulkOutSize = c.bulkOutSize
  saved : c'.bCopySavePad = c.bCopySavePad
  pad : c'.savedPad = c.savedPad
  packet : c'.wirelessPacket = c.wirelessPacket.write c'.curWritePosition header

theorem openedFields (c header) : Opened c (opened c header) header := by
  unfold opened reserve
  rcases eq_or_ne c.eNextBulkOutPosition c.curWritePosition with same | other
  · simp only [if_pos same]
    constructor <;> simp [reserved,same]
  · simp only [if_neg other]
    constructor <;> simp [reserved,other]

theorem viewStore {c c' a b}
    (cells : c'.wirelessPacket.cells = store c.wirelessPacket.cells a b) (saved : c'.bCopySavePad = c.bCopySavePad)
    (pad : c'.savedPad = c.savedPad) (apart : c.bCopySavePad = true →
      c'.eNextBulkOutPosition = c.eNextBulkOutPosition ∧ Apart a b.length c.eNextBulkOutPosition 8) :
    view c' = store (view c) a b := by
  unfold view
  rw [saved,cells,pad]
  cases copy : c.bCopySavePad with
  | false => rfl
  | true =>
    obtain ⟨reader,apart⟩ := apart copy
    simp only [if_true]
    rw [reader]
    exact storeComm (by rw [loadLength]; exact apart)

def SpanSafe (s : State Writer) (x : Nat × Nat) : Prop :=
  x.1 + x.2 ≤ maxTxbulkSize ∧ (Pending s.pipe → Apart x.1 x.2 s.ctx.nextBulkOutPosition s.ctx.bulkOutSize)

theorem Kept.stillPrepared (kept : Kept p s first second flight sent) {cells}
    (same : Pending s.pipe → ∀ i, s.ctx.nextBulkOutPosition ≤ i →
      i < s.ctx.nextBulkOutPosition + s.ctx.bulkOutSize → cells i = s.ctx.wirelessPacket.cells i)
    (prepared : s.pipe = .prepared) : ∃ out, Chained out ∧ out.map mask = flight.map (fun f => mask f.bytes) ∧
      s.ctx.bulkOutSize = out.flatten.length + 4 ∧ Holds cells s.ctx.nextBulkOutPosition (out.flatten ++ zeros 4) := by
  obtain ⟨out,chained,masks,size,held⟩ := kept.prepared prepared
  refine ⟨out,chained,masks,size,held.congr fun i low high => same (.inl prepared) i low ?_⟩
  rw [size]
  simpa [zeros] using high

theorem Kept.begin (kept : Kept p s first second flight sent) (can : rtmpUsbCanDoWrite s.ctx = true) (w : Writer)
    {j header} (long : 24 ≤ header.length) (short : header.length ≤ size j) (image : j.copied = header)
    (works : Working (opened s.ctx header).curWritePosition j)
    (roomy : Roomy (opened s.ctx header).eNextBulkOutPosition (opened s.ctx header).curWritePosition
      s.ctx.nextBulkOutPosition (size j + 8)) :
    Kept p { s with ctx := opened s.ctx header,jobs := Function.update s.jobs w (some j) } first second flight sent ∧
      SpanSafe s ((opened s.ctx header).curWritePosition,header.length) := by
  obtain ⟨c1,c2,idle,c4⟩ := canDoWriteSpec.mp can
  obtain ⟨jobs,flag,real,shape,pad⟩ | ⟨_,_,busy⟩ := kept.worker
  swap
  · have flag := busy.flag
    simp [idle] at flag
  have fields := openedFields s.ctx header
  have place := fields.position
  have reader := fields.reader
  rw [place,reader] at roomy
  obtain ⟨writing,some,apart,apart'⟩ := shape.begin (z := s.ctx.bulkOutSize) c2
    (extentRoomy (shape.roomy c1 c2 c4) roomy)
  obtain ⟨low,high,roomFirst,roomSecond,empty,_,_⟩ := writing.room
  have large := extentLow j
  have next := fields.next
  have size := fields.size
  have clear : Pending s.pipe → s.ctx.nextBulkOutPosition + s.ctx.bulkOutSize ≤ (opened s.ctx header).curWritePosition ∨
      (opened s.ctx header).curWritePosition + extent j ≤ s.ctx.nextBulkOutPosition := by
    intro pending
    rw [place]
    rcases Nat.lt_or_ge s.ctx.eNextBulkOutPosition s.ctx.nextBulkOutPosition with wrapped | level
    · exact .inr (apart' wrapped)
    · exact apart level (kept.pending pending level)
  have whole : view (opened s.ctx header) = store (view s.ctx) (opened s.ctx header).curWritePosition header := by
    refine viewStore (by rw [fields.packet]; rfl) fields.saved fields.pad fun copy => ?_
    obtain ⟨zero,between⟩ := some (pad copy)
    rw [zero] at place reader
    refine ⟨reader,?_⟩
    rw [place,Apart]
    omega
  have below : (opened s.ctx header).nextBulkOutPosition ≤ (opened s.ctx header).eNextBulkOutPosition →
      s.ctx.nextBulkOutPosition ≤ s.ctx.eNextBulkOutPosition := by
    rw [next,reader]
    intro level
    unfold reserved at apart' level
    split at level <;> omega
  rw [← place,← reader,← next] at writing
  rw [← place,← reader] at roomFirst
  rw [← place] at low high roomSecond
  refine ⟨⟨.writing w j ⟨by simp only [jobs],fields.flag,?_,writing,works,?_,?_⟩,?_,?_,?_,?_,kept.landed,kept.order,
    kept.wire,kept.tails⟩,?_,?_⟩
  · simp only [fields.real]
    omega
  · simp only [whole,image]
    exact holdsStore
  · intro pending none _ level
    have reach := kept.pending pending (below level)
    have same := empty none
    have eight : reserved s.ctx.eNextBulkOutPosition s.ctx.curWritePosition = 8 := if_pos (by omega)
    simp only [next,size]
    omega
  · simp only [whole]
    rcases emptyLength first with ⟨rfl,_⟩ | ⟨frames,_⟩
    · exact holdsNil
    · rw [(some frames).1,Nat.add_zero] at reader
      rw [reader] at roomFirst
      simp only [reader]
      exact kept.heldFirst.apart (by unfold Apart; omega)
  · simp only [whole]
    exact kept.heldSecond.apart (by unfold Apart; omega)
  · intro pending level
    have reach := kept.pending pending (below level)
    simp only [next,size]
    omega
  · simp only [next,size]
    refine kept.stillPrepared fun pending i low' high' => ?_
    rw [fields.packet]
    have away := clear pending
    exact storeOut (by omega)
  · have limit : maxTxbulkSize = 204800 := rfl
    simp only [limit]
    omega
  · intro pending
    have away := clear pending
    unfold Apart
    omega

variable {w : Writer} {j : Job}

theorem Worker.busy (worker : Worker p s first second) (job : s.jobs w = some j) : Busy s w j first second := by
  cases worker with
  | quiet jobs =>
    rw [jobs] at job
    cases job
  | writing w' j' busy =>
    rw [busy.jobs] at job
    rcases eq_or_ne w w' with rfl | other
    · rw [Function.update_self] at job
      cases job
      exact busy
    · rw [Function.update_of_ne other] at job
      cases job

theorem Busy.retarget (busy : Busy s w j first second) (j') :
    Function.update s.jobs w j' = Function.update (fun _ => none) w j' := by
  rw [busy.jobs,Function.update_idem]

theorem Kept.spanBehind (kept : Kept p s first second flight sent) {e} (shape : Writing s.ctx.eNextBulkOutPosition
      s.ctx.curWritePosition s.ctx.nextBulkOutPosition e first second) {a k}
    (low : s.ctx.curWritePosition + 24 ≤ a) (high : a + k ≤ s.ctx.curWritePosition + e) : SpanSafe s (a,k) := by
  obtain ⟨_,upper,_,_,_,_,room⟩ := shape.room
  have limit : maxTxbulkSize = 204800 := rfl
  refine ⟨by simp only [limit]; omega,fun pending => ?_⟩
  have reach := kept.pending pending
  unfold Reaches at reach
  unfold Apart
  omega

theorem Kept.spanWhole (kept : Kept p s first second flight sent) (busy : Busy s w j first second)
    (unsaved : s.ctx.bCopySavePad = true → first ≠ []) {a k} (low : s.ctx.curWritePosition ≤ a)
    (high : a + k ≤ s.ctx.curWritePosition + extent j) : SpanSafe s (a,k) := by
  obtain ⟨_,upper,_,_,_,some,room⟩ := busy.shape.room
  have limit : maxTxbulkSize = 204800 := rfl
  refine ⟨by simp only [limit]; omega,fun pending => ?_⟩
  have reach := kept.pending pending
  unfold Reaches at reach
  unfold Apart
  rcases eq_or_ne first [] with none | frames
  · have bare : s.ctx.bCopySavePad = false := by
      cases copy : s.ctx.bCopySavePad with
      | false => rfl
      | true => exact absurd none (unsaved copy)
    have clear := busy.clear pending none bare
    unfold Reaches at clear
    omega
  · have apart := some frames
    have large := extentLow j
    omega

theorem Kept.fill (kept : Kept p s first second flight sent) (job : s.jobs w = some j) {a b}
    (packet : Region UInt8) (cells : packet.cells = store s.ctx.wirelessPacket.cells a b)
    (j') (shape : Writing s.ctx.eNextBulkOutPosition s.ctx.curWritePosition s.ctx.nextBulkOutPosition (extent j')
      first second)
    (low : s.ctx.curWritePosition + 24 ≤ a) (high : a + b.length ≤ s.ctx.curWritePosition + extent j')
    (works : Working s.ctx.curWritePosition j')
    (image : Holds (store (view s.ctx) a b) s.ctx.curWritePosition j'.copied) :
    Kept p { s with ctx := { s.ctx with wirelessPacket := packet },jobs := Function.update s.jobs w (some j') }
      first second flight sent := by
  have busy := kept.worker.busy job
  obtain ⟨_,upper,roomFirst,roomSecond,empty,some,room⟩ := shape.room
  have safe := (kept.spanBehind shape low high).2
  have whole : view { s.ctx with wirelessPacket := packet } = store (view s.ctx) a b := by
    refine viewStore cells rfl rfl fun _ => ⟨rfl,?_⟩
    unfold Apart
    rcases eq_or_ne first [] with none | frames
    · have := empty none
      omega
    · have := some frames
      omega
  refine ⟨.writing w j' ⟨busy.retarget _,busy.flag,busy.real,shape,works,?_,busy.clear⟩,?_,?_,kept.pending,?_,
    kept.landed,kept.order,kept.wire,kept.tails⟩
  · rwa [whole]
  · rw [whole]
    exact kept.heldFirst.apart (by unfold Apart; omega)
  · rw [whole]
    exact kept.heldSecond.apart (by unfold Apart; omega)
  · refine kept.stillPrepared fun pending i low' high' => ?_
    have apart := safe pending
    unfold Apart at apart
    rw [cells]
    exact storeOut (by omega)

structure Closed (c c' : HtTxContext) (f : Frame) : Prop where
  position : c'.curWritePosition = if f.last then 8 else c.curWritePosition + f.bytes.length
  real : c'.curWriteRealPos = c'.curWritePosition
  flag : c'.bCurWriting = false
  reader : c'.eNextBulkOutPosition = c.eNextBulkOutPosition
  next : c'.nextBulkOutPosition = c.nextBulkOutPosition
  size : c'.bulkOutSize = c.bulkOutSize
  saved : c'.bCopySavePad = c.bCopySavePad

theorem Kept.commit (kept : Kept p s first second flight sent) (job : s.jobs w = some j) {f c' k}
    (bytes : k.bytes = f.bytes) (closed : Closed s.ctx c' f) (fits : f.bytes.length = size j)
    (flag : f.last = decide (202752 < s.ctx.curWritePosition + 3906 + f.bytes.length))
    (image : Holds (view c') s.ctx.curWritePosition f.bytes)
    (outside : ∀ i, i < s.ctx.curWritePosition ∨ s.ctx.curWritePosition + extent j ≤ i → view c' i = view s.ctx i)
    (packet : Pending s.pipe → ∀ i, s.ctx.nextBulkOutPosition ≤ i →
      i < s.ctx.nextBulkOutPosition + s.ctx.bulkOutSize → c'.wirelessPacket.cells i = s.ctx.wirelessPacket.cells i) :
    ∃ first' second', Kept p
      { s with ctx := c',jobs := Function.update s.jobs w none,committed := s.committed ++ [k] }
      first' second' flight sent := by
  have busy := kept.worker.busy job
  obtain ⟨_,_,roomFirst,roomSecond,_⟩ := busy.shape.room
  have large := (extentLow j).2
  obtain ⟨first',second',quiet,frames,some,joined⟩ := busy.shape.commit (p := p) f (by omega) flag
  have oldFirst : Holds (view c') s.ctx.eNextBulkOutPosition (stream first) :=
    kept.heldFirst.congr fun i low high => outside i (by omega)
  have oldSecond : Holds (view c') 8 (stream second) :=
    kept.heldSecond.congr fun i low high => outside i (by omega)
  obtain ⟨heldFirst,heldSecond⟩ := joined (view c') oldFirst oldSecond image
  obtain ⟨position,real,idle,reader,next,size,saved⟩ := closed
  rw [← position,← reader,← next] at quiet
  rw [← reader] at heldFirst
  refine ⟨first',second',.quiet ?_ idle real quiet fun _ => some,heldFirst,heldSecond,?_,?_,kept.landed,?_,kept.wire,
    kept.tails⟩
  · rw [busy.retarget,Function.update_eq_self_iff]
  · intro pending
    have reach := kept.pending pending
    unfold Reaches at reach ⊢
    simpa only [reader,next,size] using reach
  · simp only [next,size]
    exact kept.stillPrepared packet
  · simp only [map_append,map_cons,map_nil,kept.order,bytes,frames,append_assoc]

theorem Working.short {a} (works : Working a j) : 24 ≤ j.copied.length ∧ j.copied.length ≤ size j := by
  cases j with
  | single cursor src padding priv last copied =>
    obtain ⟨_,long,formed,_⟩ := works
    have upper := formed.1
    simp only [length_append] at upper
    exact ⟨long,by simp only [Job.copied,size]; omega⟩
  | written priv last copied =>
    obtain ⟨formed,_⟩ := works
    exact ⟨formed.2.2.1,formed.1.le⟩
  | multi cursor src priv copied =>
    obtain ⟨_,length,long,_⟩ := works
    exact ⟨by simp only [Job.copied]; omega,by simp only [Job.copied,size,paddedLength]; omega⟩
  | batch priv copied =>
    obtain ⟨length,long,_⟩ := works
    exact ⟨by simp only [Job.copied]; omega,by simp only [Job.copied,size,paddedLength]; omega⟩

section BulkOut
variable {c c' : HtTxContext} {taken rest first' second' : List Frame} {out : List Bytes} {n : Nat}

theorem sentStopped (bulk : Sent c c' taken rest out) :
    Stopped c.eNextBulkOutPosition taken rest c'.eNextBulkOutPosition := by
  rcases bulk.ended with ⟨eight,_,none,flagged⟩ | ⟨position,plain,_⟩
  · exact .inl ⟨eight,none,flagged⟩
  · exact .inr ⟨position,plain⟩

theorem sentLeft (bulk : Sent c c' taken rest out)
    (send : Send c.eNextBulkOutPosition c.curWritePosition taken rest second c'.eNextBulkOutPosition first' second')
    (heldRest : Holds (view c) (c.eNextBulkOutPosition + (stream taken).length) (stream rest))
    (heldSecond : Holds (view c) 8 (stream second)) :
    Holds (view c') c'.eNextBulkOutPosition (stream first') ∧ Holds (view c') 8 (stream second') := by
  have long := streamLong bulk.some
  have ended := bulk.ended
  cases send with
  | same position length none =>
    refine ⟨?_,holdsNil⟩
    rcases ended with ⟨eight,_⟩ | ⟨_,_,saved | ⟨here,_⟩⟩
    · omega
    · rw [position]
      exact bulk.behind saved heldRest (Nat.le_refl _)
    · rcases emptyLength rest with ⟨rfl,_⟩ | ⟨_,more⟩
      · exact holdsNil
      · omega
  | chase position before room =>
    refine ⟨?_,bulk.below heldSecond (by omega)⟩
    rcases ended with ⟨eight,_⟩ | ⟨_,_,saved | ⟨here,_⟩⟩
    · omega
    · rw [position]
      exact bulk.behind saved heldRest (Nat.le_refl _)
    · omega
  | wrap position none before room =>
    refine ⟨?_,holdsNil⟩
    rw [position]
    exact bulk.below heldSecond (by omega)

theorem sentBusy (bulk : Sent c c' taken rest out) (real : c.curWritePosition < c.curWriteRealPos)
    (send : Send c.eNextBulkOutPosition c.curWritePosition taken rest second c'.eNextBulkOutPosition first' second') :
    c'.bCopySavePad = true ∧ c'.eNextBulkOutPosition = c.eNextBulkOutPosition + (stream taken).length ∨
      c.curWritePosition < c.eNextBulkOutPosition := by
  rcases bulk.ended with ⟨eight,_,_,_⟩ | ⟨position,_,saved | ⟨_,idle⟩⟩
  · have long := streamLong bulk.some
    cases send with
    | same position => omega
    | chase _ before => exact .inr before
    | wrap _ _ before => exact .inr before
  · exact .inl ⟨saved,position⟩
  · omega

theorem Busy.send (busy : Busy s w j first second) (bulk : Sent s.ctx c' taken rest out)
    (frames : first = taken ++ rest) :
    ∃ first' second', Busy { s with ctx := c',pipe := .prepared } w j first' second' ∧
      Send s.ctx.eNextBulkOutPosition s.ctx.curWritePosition taken rest second c'.eNextBulkOutPosition
        first' second' := by
  obtain ⟨_,_,roomFirst,_,_,some,_⟩ := busy.shape.room
  obtain ⟨first',second',shape,send⟩ := busy.shape.send frames bulk.some (sentStopped bulk) bulk.short
  have saved := sentBusy bulk busy.real send
  have long := streamLong bulk.some
  have split := splitLength frames
  obtain ⟨low,high⟩ := busy.works.short
  have large := (extentLow j).2
  refine ⟨first',second',⟨busy.jobs,bulk.writing.trans busy.flag,?_,?_,?_,?_,?_⟩,send⟩
  · simp only [bulk.position,bulk.real]
    exact busy.real
  · simp only [bulk.position,bulk.start]
    exact shape
  · simp only [bulk.position]
    exact busy.works
  · simp only [bulk.position]
    rcases saved with ⟨saved,position⟩ | before
    · rcases roomFirst with level | wrapped
      · exact bulk.behind saved busy.image (by omega)
      · exact bulk.below busy.image (by omega)
    · exact bulk.below busy.image (by omega)
  · rintro _ rfl bare level
    have same := shape.placed.same
    simp only [bulk.start] at level
    rcases saved with ⟨saved,_⟩ | before
    · simp [saved] at bare
    · omega

theorem Kept.bulkOut (kept : Kept p s first second flight sent) (claimed : s.pipe = .claimed)
    (bulk : Sent s.ctx c' taken rest out) (frames : first = taken ++ rest) :
    ∃ first' second', Kept p { s with ctx := c',pipe := .prepared } first' second' taken sent := by
  have none : flight = [] := kept.landed (by simp [claimed])
  have worker : ∃ first' second', Worker p { s with ctx := c',pipe := .prepared } first' second' ∧
      Send s.ctx.eNextBulkOutPosition s.ctx.curWritePosition taken rest second c'.eNextBulkOutPosition
        first' second' := by
    obtain ⟨jobs,flag,real,shape,pad⟩ | ⟨w,j,busy⟩ := kept.worker
    · obtain ⟨first',second',quiet,send⟩ := shape.send frames bulk.some (sentStopped bulk) bulk.short
      refine ⟨first',second',.quiet jobs (bulk.writing.trans flag) ?_ ?_ ?_,send⟩
      · simp only [bulk.position,bulk.real]
        exact real
      · simp only [bulk.position,bulk.start]
        exact quiet
      · rintro saved rfl
        have ahead := bulk.saving saved quiet.placed.same
        omega
    · obtain ⟨first',second',busy,send⟩ := busy.send bulk frames
      exact ⟨first',second',.writing w j busy,send⟩
  obtain ⟨first',second',worker,send⟩ := worker
  have held := kept.heldFirst
  rw [frames,streamAppend,holdsAppend] at held
  obtain ⟨heldFirst,heldSecond⟩ := sentLeft bulk send held.2 kept.heldSecond
  refine ⟨first',second',worker,heldFirst,heldSecond,?_,?_,?_,?_,kept.wire,kept.tails⟩
  · intro _ level
    simp only [bulk.start,bulk.bulk] at level ⊢
    cases send with
    | same position => omega
    | chase position => omega
    | wrap position _ before room => omega
  · intro _
    simp only [bulk.start]
    exact ⟨out,bulk.chained,bulk.masks,by rw [bulk.bulk,bulk.size],bulk.held⟩
  · exact fun other => absurd rfl other
  · simp only [kept.order,none,frames,send.frames,nil_append,append_assoc]

end BulkOut

end RtmpDriver.UsbInvariant
