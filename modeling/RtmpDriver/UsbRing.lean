import RtmpDriver.UsbDescriptor

/-! One HT_TX_CONTEXT of the USB transmit path: the three writers, the bulk-out routine RTUSBBulkOutDataPacket and its
completion. A step is one critical section of TxContextQueueLock, one unlocked copy of a payload, or a passage of the
bulk-out routine outside that lock. The packet buffer and SavedPad keep the ranges the last step wrote. -/
namespace RtmpDriver.UsbRing
open ByteMemory UsbDescriptor

def localTxbufSize : Nat := 2048
def bulkAggreSize : Nat := 100
def maxTxbulkLimit : Nat := localTxbufSize * (bulkAggreSize - 1)
def maxTxbulkSize : Nat := localTxbufSize * bulkAggreSize
def txInfoSize : Nat := 4
def txWiSize : Nat := 20
def tsoSize : Nat := 0

/- `savedPad` is SavedPad[8] and, from index 8 on, the fields of the context behind it. -/
structure HtTxContext where
  bulkOutSize : Nat
  bCurWriting : Bool
  bCopySavePad : Bool
  savedPad : Region UInt8
  curWritePosition : Nat
  curWriteRealPos : Nat
  nextBulkOutPosition : Nat
  eNextBulkOutPosition : Nat
  wirelessPacket : Region UInt8

structure TxBlk where
  headerBuf : Nat → UInt8
  mpduHeaderLen : Nat
  hdrPadLen : Nat
  srcBuf : Bytes

def zeros (n : Nat) : Bytes := List.replicate n 0
def roundUp (n : Nat) : Nat := (4 - n % 4) &&& 0x03

def TxBlk.hdrLen (b : TxBlk) : Nat := txWiSize + tsoSize + b.mpduHeaderLen + b.hdrPadLen
def TxBlk.padding (b : TxBlk) : Nat := roundUp (b.hdrLen + b.srcBuf.length)
def TxBlk.dmaLen (b : TxBlk) : Nat := b.hdrLen + b.srcBuf.length + b.padding
def TxBlk.priv (b : TxBlk) : Nat := txInfoSize + b.dmaLen

/- The three frame types of the source subtract a sub-header length and add it again. -/
def TxBlk.hwHdrLen (b : TxBlk) : Nat := b.mpduHeaderLen + b.hdrPadLen

def rtmpUsbCanDoWrite (c : HtTxContext) : Bool :=
  if c.curWritePosition < c.nextBulkOutPosition ∧
      c.nextBulkOutPosition < c.curWritePosition + localTxbufSize then false
  else if c.curWritePosition = 8 ∧ c.nextBulkOutPosition < localTxbufSize then false
  else if c.bCurWriting then false
  else if c.eNextBulkOutPosition = 8 ∧ maxTxbulkLimit < c.curWritePosition + 7912 then false
  else true

def reserve (c : HtTxContext) : HtTxContext :=
  if c.eNextBulkOutPosition = c.curWritePosition then
    { c with eNextBulkOutPosition := c.eNextBulkOutPosition + 8,curWritePosition := c.curWritePosition + 8 }
  else c

/- A writer between two of its steps, with the local variables it still reads. `copied` is a history
variable: the bytes of its frame copied so far. -/
inductive Job where
  | single (cursor : Nat) (src : Bytes) (padding priv : Nat) (bTxQLastRound : Bool) (copied : Bytes)
  | written (priv : Nat) (bTxQLastRound : Bool) (copied : Bytes)
  | multi (cursor : Nat) (src : Bytes) (priv : Nat) (copied : Bytes)
  | batch (priv : Nat) (copied : Bytes)

def Job.copied : Job → Bytes
  | .single _ _ _ _ _ copied => copied
  | .written _ _ copied => copied
  | .multi _ _ _ copied => copied
  | .batch _ copied => copied

def writeSingleTxResource (c : HtTxContext) (b : TxBlk) : Option (HtTxContext × Job) :=
  if rtmpUsbCanDoWrite c then
    let c := reserve { c with bCurWriting := true }
    let fillOffset := c.curWritePosition
    let hdrCopyLen := txInfoSize + b.hdrLen
    let info := rltUsbWriteTxinfo b.dmaLen false fifoEdca false (load b.headerBuf 0 hdrCopyLen)
    let bTxQLastRound := decide (maxTxbulkLimit < c.curWritePosition + 3906 + b.priv)
    let header := if bTxQLastRound then setSwLstRnd true info else info
    some ({ c with
        wirelessPacket := c.wirelessPacket.write fillOffset header
        curWriteRealPos := c.curWritePosition + hdrCopyLen },
      .single (fillOffset + hdrCopyLen) b.srcBuf b.padding b.priv bTxQLastRound header)
  else none

def commitSingle (c : HtTxContext) (priv : Nat) (bTxQLastRound : Bool) : HtTxContext :=
  let position := if bTxQLastRound then 8 else c.curWritePosition + priv
  { c with curWritePosition := position,curWriteRealPos := position,bCurWriting := false }

def writeMultiFirst (c : HtTxContext) (b : TxBlk) : Option (HtTxContext × Job) :=
  if rtmpUsbCanDoWrite c then
    let c := reserve { c with bCurWriting := true }
    let fillOffset := c.curWritePosition
    let priv := txInfoSize + txWiSize + b.hwHdrLen
    -- the length is only a temporary value here
    let header := rltUsbWriteTxinfo priv false fifoEdca false (load b.headerBuf 0 priv)
    some ({ c with
        wirelessPacket := c.wirelessPacket.write fillOffset header
        curWriteRealPos := c.curWritePosition + priv },
      .multi (fillOffset + priv) b.srcBuf priv header)
  else none

def writeMultiNext (c : HtTxContext) (b : TxBlk) (priv : Nat) (copied : Bytes) : Option (HtTxContext × Job) :=
  if c.bCurWriting then
    let fillOffset := c.curWritePosition + priv
    let header := load b.headerBuf 0 b.mpduHeaderLen
    some ({ c with wirelessPacket := c.wirelessPacket.write fillOffset header },
      .multi (fillOffset + b.mpduHeaderLen) b.srcBuf (priv + b.mpduHeaderLen) (copied ++ header))
  else none

def Saved (c : HtTxContext) : Prop :=
  (c.eNextBulkOutPosition = c.curWritePosition ∨ c.eNextBulkOutPosition = c.curWritePosition + 8) ∧
    c.bCopySavePad = true

instance (c : HtTxContext) : Decidable (Saved c) := inferInstanceAs (Decidable (_ ∧ _))

/- The descriptor at `p` as RtmpUSB_FinalWriteTxResource completes it. -/
def completeDescriptor (r : Region UInt8) (p usbDmaPktLen totalMpduSize : Nat) (last : Bool) : Region UInt8 :=
  let r := (r.patch p txInfoSize (setPktLen usbDmaPktLen)).patch (p + mpduField) 2 (putMpduCount totalMpduSize)
  if last then r.patch p txInfoSize (setSwLstRnd true) else r

def finalWriteTxResource (c : HtTxContext) (priv totalMpduSize : Nat) : HtTxContext :=
  if c.bCurWriting then
    let fillOffset := c.curWritePosition
    let padding := roundUp (priv - txInfoSize)
    let usbDmaPktLen := priv - txInfoSize + padding
    let next := c.curWritePosition + (txInfoSize + usbDmaPktLen)
    let last := decide (maxTxbulkLimit < next + 3906)
    let c' :=
      if Saved c then
        { c with savedPad := completeDescriptor c.savedPad 0 usbDmaPktLen totalMpduSize last }
      else
        { c with wirelessPacket := completeDescriptor c.wirelessPacket fillOffset usbDmaPktLen totalMpduSize last }
    let position := if last then 8 else next
    { c' with
      curWritePosition := position
      curWriteRealPos := position
      wirelessPacket := c'.wirelessPacket.write (fillOffset + priv) (zeros (padding + 8))
      bCurWriting := false }
  else c

def batchFrame (c : HtTxContext) (priv totalMpduSize : Nat) (copied : Bytes) : Bytes :=
  let padding := roundUp (priv - txInfoSize)
  let usbDmaPktLen := priv - txInfoSize + padding
  let sized := setPktLen usbDmaPktLen copied
  let counted := if Saved c then sized else setMpduCount totalMpduSize sized
  let described := if maxTxbulkLimit < c.curWritePosition + (txInfoSize + usbDmaPktLen) + 3906 then
      setSwLstRnd true counted
    else counted
  described ++ zeros padding

structure Limits where
  bulkOutMaxPacketSize : Nat
  usbAggregation : Bool

def sizeReached (l : Limits) (thisBulkSize : Nat) (phy : UInt8) : Bool :=
  if thisBulkSize ≠ 0 ∧ phy = modeCck then
    decide (thisBulkSize &&& 0xffff8000 ≠ 0 ∨ thisBulkSize &&& 0x1000 = 0x1000 ∨
      l.bulkOutMaxPacketSize < 512 ∧ thisBulkSize &&& 0xfffff800 ≠ 0)
  else
    decide (thisBulkSize &&& 0xffffe000 ≠ 0 ∨ thisBulkSize &&& 0x6000 = 0x6000 ∨
      l.bulkOutMaxPacketSize < 512 ∧ thisBulkSize &&& 0xfffff800 ≠ 0)

structure Sweep where
  wirelessPacket : Region UInt8
  tmpBulkEndPos : Nat
  thisBulkSize : Nat
  pLastTxInfo : Option Nat
  bTxQLastRound : Bool
  eNextBulkOutPosition : Nat
  aggregationNum : Nat

inductive Turn where
  | again (s : Sweep)
  | leave (s : Sweep)
  | fail (s : Sweep)

def turn (l : Limits) (curWritePosition : Nat) (s : Sweep) : Turn :=
  let pos := s.tmpBulkEndPos
  let info := load s.wirelessPacket.cells pos 8
  if sizeReached l s.thisBulkSize (phyMode info) then .leave { s with eNextBulkOutPosition := pos }
  else if pos = curWritePosition then .leave { s with eNextBulkOutPosition := pos }
  else if txInfoPktLen info ≤ 8 then .fail s
  else
    let size := txInfoPktLen info + 4
    let next := pos + size
    let edca := s.wirelessPacket.patch pos txInfoSize (setQsel fifoEdca)
    let packet := if next ≠ curWritePosition then edca.patch pos txInfoSize (setNextVld true) else edca
    let s := { s with
      wirelessPacket := packet
      tmpBulkEndPos := next
      thisBulkSize := s.thisBulkSize + size
      pLastTxInfo := some pos }
    if txInfoSwLstRnd (load packet.cells pos txInfoSize) then
      let packet := if curWritePosition = 8 then packet.patch pos txInfoSize (setNextVld false) else packet
      .leave { s with
        wirelessPacket := packet.patch pos txInfoSize (setSwLstRnd false)
        bTxQLastRound := true
        eNextBulkOutPosition := 8 }
    else if s.aggregationNum + 1 = 1 ∧ l.usbAggregation = false then
      .leave { s with aggregationNum := s.aggregationNum + 1,eNextBulkOutPosition := next }
    else .again { s with aggregationNum := s.aggregationNum + 1 }

/- The do-while loop. Every turn adds to ThisBulkSize, and a size of 0x8000 ends it. -/
def sweep (l : Limits) (curWritePosition : Nat) : Nat → Sweep → Turn
  | 0,s => .again s
  | fuel + 1,s =>
    match turn l curWritePosition s with
    | .again s => sweep l curWritePosition fuel s
    | .leave s => .leave s
    | .fail s => .fail s

def finishBulkOut (c : HtTxContext) (s : Sweep) : HtTxContext :=
  let packet :=
    match s.pLastTxInfo with
    | some info => s.wirelessPacket.patch info txInfoSize (setNextVld false)
    | none => s.wirelessPacket
  let saving := s.bTxQLastRound = false ∧
    (s.eNextBulkOutPosition = c.curWritePosition ∧ c.curWritePosition < c.curWriteRealPos ∨
      s.eNextBulkOutPosition ≠ c.curWritePosition)
  let c := if saving then
      { c with savedPad := c.savedPad.write 0 (load packet.cells s.eNextBulkOutPosition 8),bCopySavePad := true }
    else c
  { c with
    wirelessPacket := packet.write s.tmpBulkEndPos (zeros 8)
    bulkOutSize := s.thisBulkSize + 4
    eNextBulkOutPosition := s.eNextBulkOutPosition }

def restorePad (c : HtTxContext) : HtTxContext :=
  let c := { c with nextBulkOutPosition := c.eNextBulkOutPosition }
  if c.bCopySavePad then
    { c with
      wirelessPacket := c.wirelessPacket.write c.nextBulkOutPosition (load c.savedPad.cells 0 8)
      bCopySavePad := false }
  else c

def firstTurn (c : HtTxContext) : Sweep :=
  ⟨c.wirelessPacket,c.nextBulkOutPosition,0,none,false,c.eNextBulkOutPosition,0⟩

def nothingToSend (c : HtTxContext) : Prop :=
  c.eNextBulkOutPosition = c.curWritePosition ∨ c.eNextBulkOutPosition = c.curWritePosition + 8

instance (c : HtTxContext) : Decidable (nothingToSend c) := inferInstanceAs (Decidable (_ ∨ _))

/- The critical section of RTUSBBulkOutDataPacket; the flag says that a transfer is ready. -/
def rtusbBulkOutDataPacket (l : Limits) (c : HtTxContext) : HtTxContext × Bool :=
  if nothingToSend c then (c,false)
  else
    let c := restorePad c
    match sweep l c.curWritePosition 0x8000 (firstTurn c) with
    | .leave s => (finishBulkOut c s,true)
    | .fail s => ({ c with wirelessPacket := s.wirelessPacket },false)
    | .again s => ({ c with wirelessPacket := s.wirelessPacket },false)

/- Where the bulk-out routine is. BulkOutPending is TRUE from `claimed` on; `prepared` is between the
critical section and the URB's submission. -/
inductive Pipe where
  | idle | claimed | prepared | submitted
  deriving DecidableEq

/- A committed frame as its writer left it, with the padded length and the MPDU size of a batch. -/
structure Committed where
  bytes : Bytes
  batch : Option (Nat × Nat)
  deriving DecidableEq

structure State (Writer : Type) where
  ctx : HtTxContext
  jobs : Writer → Option Job
  pipe : Pipe
  committed : List Committed
  transfers : List Bytes

inductive Act (Writer : Type) where
  | writeSingle (w : Writer) (b : TxBlk)
  | copySingle (w : Writer)
  | commitSingle (w : Writer)
  | writeMulti (w : Writer) (b : TxBlk)
  | copyMulti (w : Writer)
  | finalWrite (w : Writer) (totalMpduSize : Nat)
  | claim (needStopTx connected : Bool)
  | bulkOut (l : Limits)
  | submit
  | complete

variable {Writer : Type} [DecidableEq Writer]

def HtTxContext.forget (c : HtTxContext) : HtTxContext :=
  { c with savedPad := c.savedPad.forget,wirelessPacket := c.wirelessPacket.forget }

def State.begin (s : State Writer) (w : Writer) : Option (HtTxContext × Job) → State Writer
  | some (ctx,job) => { s with ctx := ctx,jobs := Function.update s.jobs w (some job) }
  | none => s

def State.write (s : State Writer) (cursor : Nat) (b : Bytes) : State Writer :=
  { s with ctx := { s.ctx with wirelessPacket := s.ctx.wirelessPacket.write cursor b } }

def act (s : State Writer) : Act Writer → State Writer
  | .writeSingle w b =>
    match s.jobs w with
    | none => s.begin w (writeSingleTxResource s.ctx b)
    | some _ => s
  | .copySingle w =>
    match s.jobs w with
    | some (.single cursor src padding priv last copied) =>
      { (s.write cursor src).write (cursor + src.length) (zeros (padding + 8)) with
        jobs := Function.update s.jobs w (some (.written priv last (copied ++ src ++ zeros padding))) }
    | _ => s
  | .commitSingle w =>
    match s.jobs w with
    | some (.written priv last copied) =>
      { s with
        ctx := UsbRing.commitSingle s.ctx priv last
        jobs := Function.update s.jobs w none
        committed := s.committed ++ [⟨copied,none⟩] }
    | _ => s
  | .writeMulti w b =>
    match s.jobs w with
    | none => s.begin w (writeMultiFirst s.ctx b)
    | some (.batch priv copied) => s.begin w (writeMultiNext s.ctx b priv copied)
    | _ => s
  | .copyMulti w =>
    match s.jobs w with
    | some (.multi cursor src priv copied) =>
      { s.write cursor src with
        jobs := Function.update s.jobs w (some (.batch (priv + src.length) (copied ++ src))) }
    | _ => s
  | .finalWrite w totalMpduSize =>
    match s.jobs w with
    | some (.batch priv copied) =>
      { s with
        ctx := finalWriteTxResource s.ctx priv totalMpduSize
        jobs := Function.update s.jobs w none
        committed := if s.ctx.bCurWriting then
            s.committed ++ [⟨batchFrame s.ctx priv totalMpduSize copied,
              some (priv - txInfoSize + roundUp (priv - txInfoSize),totalMpduSize)⟩]
          else s.committed }
    | _ => s
  | .claim needStopTx connected =>
    if s.pipe = .idle ∧ needStopTx = false ∧ connected = true then { s with pipe := .claimed } else s
  | .bulkOut l =>
    match s.pipe with
    | .claimed =>
      let r := rtusbBulkOutDataPacket l s.ctx
      { s with ctx := r.1,pipe := if r.2 then .prepared else .idle }
    | _ => s
  | .submit =>
    match s.pipe with
    | .prepared =>
      { s with
        pipe := .submitted
        transfers := s.transfers ++
          [load s.ctx.wirelessPacket.cells s.ctx.nextBulkOutPosition s.ctx.bulkOutSize] }
    | _ => s
  | .complete =>
    match s.pipe with
    | .submitted => { s with pipe := .idle }
    | _ => s

def step (s : State Writer) (a : Act Writer) : State Writer := act { s with ctx := s.ctx.forget } a

/- A context with all positions at `p`; the driver starts at 0. The buffer's contents are unknown. -/
def freshContext (p : Nat) (memory pad : Nat → UInt8) : HtTxContext :=
  ⟨0,false,false,⟨pad,[]⟩,p,p,p,p,⟨memory,[]⟩⟩

def fresh (p : Nat) (memory pad : Nat → UInt8) : State Writer := ⟨freshContext p memory pad,fun _ => none,.idle,[],[]⟩

def paddedLength (priv : Nat) : Nat := priv + roundUp (priv - txInfoSize)

/- The frame, with the eight bytes behind it, ends before NextBulkOutPosition where that is ahead, and before the end
of the buffer; it does not start a new round while the bulk-out routine still is at the buffer's start. -/
def LeavesRoom (c : HtTxContext) (len : Nat) : Prop :=
  len ≤ 65539 ∧ (c.curWritePosition < c.nextBulkOutPosition → c.curWritePosition + len + 8 ≤ c.nextBulkOutPosition) ∧
    c.curWritePosition + len + 8 ≤ maxTxbulkSize ∧
    (c.eNextBulkOutPosition ≤ 16 → c.nextBulkOutPosition ≤ c.curWritePosition →
      c.curWritePosition + len + 3906 ≤ maxTxbulkLimit)

instance (c : HtTxContext) (len : Nat) : Decidable (LeavesRoom c len) := inferInstanceAs (Decidable (_ ∧ _))

def Room (s : State Writer) : Act Writer → Prop
  | .writeSingle _ b => rtmpUsbCanDoWrite s.ctx = true → LeavesRoom (reserve s.ctx) b.priv
  | .writeMulti w b =>
    match s.jobs w with
    | none => rtmpUsbCanDoWrite s.ctx = true →
        LeavesRoom (reserve s.ctx) (paddedLength (txInfoSize + txWiSize + b.hwHdrLen + b.srcBuf.length))
    | some (.batch priv _) => LeavesRoom s.ctx (paddedLength (priv + b.mpduHeaderLen + b.srcBuf.length))
    | _ => True
  | _ => True

instance (s : State Writer) : ∀ a, Decidable (Room s a)
  | .writeSingle _ b =>
    inferInstanceAs (Decidable (rtmpUsbCanDoWrite s.ctx = true → LeavesRoom (reserve s.ctx) b.priv))
  | .writeMulti w b =>
    match job : s.jobs w with
    | none => decidable_of_iff (rtmpUsbCanDoWrite s.ctx = true →
        LeavesRoom (reserve s.ctx) (paddedLength (txInfoSize + txWiSize + b.hwHdrLen + b.srcBuf.length)))
        (by simp [Room,job])
    | some (.batch priv _) => decidable_of_iff
        (LeavesRoom s.ctx (paddedLength (priv + b.mpduHeaderLen + b.srcBuf.length))) (by simp [Room,job])
    | some (.single ..) | some (.written ..) | some (.multi ..) => isTrue (by simp [Room,job])
  | .copySingle _ | .commitSingle _ | .copyMulti _ | .finalWrite .. | .claim .. | .bulkOut _ | .submit | .complete =>
    isTrue trivial

def Fits (s : State Writer) : Act Writer → Prop
  | .writeSingle _ b => b.priv ≤ localTxbufSize - 8
  | .writeMulti w b =>
    match s.jobs w with
    | none => paddedLength (txInfoSize + txWiSize + b.hwHdrLen + b.srcBuf.length) ≤ localTxbufSize - 8
    | some (.batch priv _) => paddedLength (priv + b.mpduHeaderLen + b.srcBuf.length) ≤ localTxbufSize - 8
    | _ => True
  | _ => True

instance (s : State Writer) : ∀ a, Decidable (Fits s a)
  | .writeSingle _ b => inferInstanceAs (Decidable (b.priv ≤ localTxbufSize - 8))
  | .writeMulti w b =>
    match job : s.jobs w with
    | none => decidable_of_iff
        (paddedLength (txInfoSize + txWiSize + b.hwHdrLen + b.srcBuf.length) ≤ localTxbufSize - 8) (by simp [Fits,job])
    | some (.batch priv _) => decidable_of_iff
        (paddedLength (priv + b.mpduHeaderLen + b.srcBuf.length) ≤ localTxbufSize - 8) (by simp [Fits,job])
    | some (.single ..) | some (.written ..) | some (.multi ..) => isTrue (by simp [Fits,job])
  | .copySingle _ | .commitSingle _ | .copyMulti _ | .finalWrite .. | .claim .. | .bulkOut _ | .submit | .complete =>
    isTrue trivial

end RtmpDriver.UsbRing
