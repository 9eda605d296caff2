import RtmpDriver.UsbTransmit

/-! The descriptor of a batch closed by RtmpUSB_FinalWriteTxResource. SavedPad has eight bytes, and the count is ten
bytes into the descriptor. -/
namespace RtmpDriver.UsbBatch
open ByteMemory UsbDescriptor UsbRing UsbSweep UsbLayout UsbInvariant UsbWriters UsbTransmit StepMachine

variable {Writer : Type} [DecidableEq Writer]
variable {p : Nat} {s : State Writer}

/- A batch is closed in the ring, with an MPDU size that the 14 bits of the count can hold. -/
def OffPad (s : State Writer) : Act Writer → Prop
  | .finalWrite w total =>
    match s.jobs w with
    | some (.batch ..) => ¬ Saved s.ctx ∧ total < 16384
    | _ => True
  | _ => True

instance (s : State Writer) : ∀ a, Decidable (OffPad s a)
  | .finalWrite w total =>
    match job : s.jobs w with
    | some (.batch ..) => decidable_of_iff (¬ Saved s.ctx ∧ total < 16384) (by simp [OffPad,job])
    | none | some (.single ..) | some (.written ..) | some (.multi ..) => isTrue (by simp [OffPad,job])
  | .writeSingle .. | .copySingle _ | .commitSingle _ | .writeMulti .. | .copyMulti _ | .claim .. | .bulkOut _ |
    .submit | .complete => isTrue trivial

def OwnArea (s : State Writer) (a : Act Writer) : Prop :=
  ∀ w total priv copied, a = .finalWrite w total → s.jobs w = some (.batch priv copied) →
    (∀ x ∈ (step s a).ctx.savedPad.spans, x.1 + x.2 ≤ 8) ∧
    ∀ x ∈ (step s a).ctx.wirelessPacket.spans,
      s.ctx.curWritePosition ≤ x.1 ∧ x.1 + x.2 ≤ s.ctx.curWritePosition + paddedLength priv + 8

def Finalized (s : State Writer) : Prop :=
  ∀ (i : Nat) (frame : Bytes) (k : Committed) (len total : Nat), (onWire s)[i]? = some frame →
    s.committed[i]? = some k → k.batch = some (len,total) → txInfoPktLen frame = len ∧ mpduTotalByteCnt frame = total

def Described (k : Committed) : Prop :=
  ∀ len total, k.batch = some (len,total) → txInfoPktLen k.bytes = len ∧ mpduTotalByteCnt k.bytes = total

theorem mpduOfSwLstRnd {b v} : mpduTotalByteCnt (setSwLstRnd v b) = mpduTotalByteCnt b := by
  simp only [mpduTotalByteCnt,setSwLstRnd,byteAtOther (i := 2) (j := 10) (by decide),
    byteAtOther (i := 2) (j := 11) (by decide)]

theorem mpduAppend {b} (c) (long : 12 ≤ b.length) : mpduTotalByteCnt (b ++ c) = mpduTotalByteCnt b := by
  simp only [mpduTotalByteCnt,byteAtAppend (b := b) (i := 10) c (by omega),byteAtAppend (b := b) (i := 11) c (by omega)]

theorem batchCount {c total copied} (long : 24 ≤ copied.length) (unsaved : ¬ Saved c)
    (small : total < 16384) : mpduTotalByteCnt (batchFrame c copied.length total copied) = total := by
  rw [batchFrameUnsaved total long unsaved]
  have length : ∀ n last, (describe n total last copied).length = copied.length := by
    intro n last
    unfold describe
    cases last <;> simp
  rw [mpduAppend _ (by rw [length]; omega)]
  have count : ∀ n, mpduTotalByteCnt (setMpduCount total (setPktLen n copied)) = total := fun n =>
    mpduOfSet (by simp [mpduField]; omega) small
  unfold describe
  cases lastRound c copied.length with
  | false => exact count _
  | true => exact mpduOfSwLstRnd.trans (count _)

theorem beginCommitted {w result} : (s.begin w result).committed = s.committed := by
  cases result <;> rfl

theorem committedStep (s : State Writer) (a) :
    (step s a).committed = s.committed ∨ ∃ k, (step s a).committed = s.committed ++ [k] ∧
      (k.batch = none ∨ ∃ w total priv copied, a = .finalWrite w total ∧ s.jobs w = some (.batch priv copied) ∧
        k = ⟨batchFrame s.ctx priv total copied,some (priv - txInfoSize + roundUp (priv - txInfoSize),total)⟩) := by
  cases a with
  | commitSingle w =>
    cases job : s.jobs w with
    | none => exact .inl (by simp only [step,act,job])
    | some j =>
      cases j with
      | written priv last copied => exact .inr ⟨⟨copied,none⟩,by simp only [step,act,job],.inl rfl⟩
      | _ => exact .inl (by simp only [step,act,job])
  | finalWrite w total =>
    cases job : s.jobs w with
    | none => exact .inl (by simp only [step,act,job])
    | some j =>
      cases j with
      | batch priv copied =>
        cases flag : s.ctx.bCurWriting with
        | false => exact .inl (by simp [step,act,job,HtTxContext.forget,flag])
        | true =>
          refine .inr ⟨_,?_,.inr ⟨w,total,priv,copied,rfl,job,rfl⟩⟩
          simp only [step,act,job,HtTxContext.forget,flag,if_true]
          rfl
      | _ => exact .inl (by simp only [step,act,job])
  | writeSingle w b | writeMulti w b =>
    left
    simp only [step,act]
    split <;> first | rfl | exact beginCommitted
  | copySingle | copyMulti | claim | bulkOut | submit | complete =>
    left
    simp only [step,act]
    split <;> rfl

theorem describedBatch {first second w priv total copied}
    (busy : Busy s w (.batch priv copied) first second) (unsaved : ¬ Saved s.ctx) (small : total < 16384) :
    Described ⟨batchFrame s.ctx priv total copied,some (priv - txInfoSize + roundUp (priv - txInfoSize),total)⟩ := by
  obtain ⟨rfl,long,plain,fits⟩ := busy.works
  obtain ⟨size,sized,_⟩ := batchFormed s.ctx total long plain fits
  have sum := paddedSum long
  have four : txInfoSize = 4 := rfl
  rintro _ _ ⟨⟩
  exact ⟨by simp only; omega,batchCount long unsaved small⟩

theorem describedStep (keeps : Keeps p s) {a} (off : OffPad s a)
    (described : ∀ k ∈ s.committed, Described k) : ∀ k ∈ (step s a).committed, Described k := by
  have join : ∀ k, Described k → ∀ k' ∈ s.committed ++ [k], Described k' := by
    intro k here k' mem
    rcases List.mem_append.mp mem with old | new
    · exact described k' old
    · rwa [List.mem_singleton.mp new]
  rcases committedStep s a with same | ⟨k,more,single | ⟨w,total,priv,copied,rfl,job,rfl⟩⟩
  · rwa [same]
  · rw [more]
    exact join k fun len total batch => by simp [single] at batch
  · rw [more]
    obtain ⟨_,_,_,_,kept⟩ := keeps
    simp only [OffPad,job] at off
    exact join _ (describedBatch (kept.worker.busy job) off.1 off.2)

theorem ownArea (keeps : Keeps p s) {a} (off : OffPad s a) : OwnArea s a := by
  rintro w total priv copied rfl job
  obtain ⟨_,_,_,_,kept⟩ := keeps
  have busy := kept.forget.worker.busy job
  simp only [OffPad,job] at off
  obtain ⟨f,bytes,size,closed,_⟩ := batchCloses busy total
  have landed := batchLands busy closed off.1
  have long : 24 ≤ priv := busy.works.2.1
  have pad := (finalUnsaved total busy.flag long off.1).1
  rw [← bytes] at landed
  simp only [step,act,job]
  refine ⟨fun x mem => ?_,fun x mem => ?_⟩
  · rw [pad] at mem
    cases mem
  · rcases landed.spans x mem with old | inside
    · cases old
    · rw [size] at inside
      exact inside

omit [DecidableEq Writer] in
theorem finalized (fifo : Fifo s) (described : ∀ k ∈ s.committed, Described k) : Finalized s := by
  intro i frame k len total sent here batch
  obtain ⟨length,count⟩ := described k (List.mem_of_getElem? here) len total batch
  have same : mask frame = mask k.bytes := by
    have left : ((onWire s).map mask)[i]? = some (mask frame) := by simp [sent]
    obtain ⟨rest,whole⟩ := fifo.1
    have inside : i < ((onWire s).map mask).length := (List.getElem?_eq_some_iff.mp left).1
    have right : (s.committed.map fun k => mask k.bytes)[i]? = some (mask frame) := by
      rw [← whole,List.getElem?_append_left inside,left]
    simpa [here] using right.symm
  rw [← pktLenOfMask,same,pktLenOfMask,← mpduOfMask,same,mpduOfMask]
  exact ⟨length,count⟩

theorem batchFinalized (start : p = 0 ∨ p = 8) (memory pad : Nat → UInt8) (acts : List (Act Writer))
    (meets : Meets step (fun s a => Room s a ∧ OffPad s a) (fresh p memory pad) acts) :
    Meets step OwnArea (fresh p memory pad) acts ∧ Always step Finalized (fresh p memory pad) acts := by
  have keeps : ∀ (s : State Writer) a, (Keeps p s ∧ ∀ k ∈ s.committed, Described k) → Room s a ∧ OffPad s a →
      Keeps p (step s a) ∧ ∀ k ∈ (step s a).committed, Described k :=
    fun s a ⟨keeps,described⟩ ⟨room,off⟩ => ⟨(stepKeeps keeps room).1,describedStep keeps off described⟩
  have begins : Keeps p (fresh p memory pad : State Writer) ∧
      ∀ k ∈ (fresh p memory pad : State Writer).committed, Described k :=
    ⟨⟨_,_,_,_,Kept.fresh start memory pad⟩,nofun⟩
  refine ⟨meetsInvariant keeps (fun s a inv allowed => ownArea inv.1 allowed.2) begins meets,?_⟩
  refine alwaysMono ?_ (invariant keeps begins meets)
  rintro s ⟨⟨_,_,_,_,kept⟩,described⟩
  exact finalized (Kept.fifo kept) described

def sampleSubframe (k : UInt8) : TxBlk := { sampleBlock k with srcBuf := List.replicate 1500 k }

def twoPartBatch : List (Act Nat) :=
  [.writeMulti 0 (sampleSubframe 16),.copyMulti 0,.writeMulti 0 (sampleSubframe 32),.copyMulti 0,.finalWrite 0 3052,
    .claim false true,.bulkOut ⟨512,true⟩,.submit]

theorem batchFinalizedTwoParts :
    (onWire (run step (fresh 0 (fun _ => 255) fun _ => 0) twoPartBatch)).map
        (fun frame => (frame.length,mpduTotalByteCnt frame)) = [(3076,3052)] ∧
      Meets step OwnArea (fresh 0 (fun _ => 255) fun _ => 0) twoPartBatch ∧
      Always step Finalized (fresh 0 (fun _ => 255) fun _ => 0) twoPartBatch :=
  ⟨by decide +kernel,batchFinalized (.inl rfl) _ _ twoPartBatch (by decide +kernel)⟩

def batchInPad : List (Act Nat) :=
  [.writeSingle 0 (sampleBlock 16),.copySingle 0,.commitSingle 0,.writeMulti 1 (sampleBlock 32),.claim false true,
    .bulkOut ⟨512,true⟩,.submit,.copyMulti 1,.finalWrite 1 300]

def batchOut : List (Act Nat) := [.complete,.claim false true,.bulkOut ⟨512,true⟩,.submit]

theorem countBehindSavedPad :
    Meets step (fun s a => Fits s a ∧ Room s a) (fresh 0 (fun _ => 255) fun _ => 0) (batchInPad ++ batchOut) ∧
      (10,2) ∈ (run step (fresh 0 (fun _ => 255) fun _ => 0) batchInPad).ctx.savedPad.spans ∧
      ¬ Finalized (run step (fresh 0 (fun _ => 255) fun _ => 0) (batchInPad ++ batchOut)) := by
  refine ⟨by decide +kernel,by decide +kernel,fun done => ?_⟩
  have counts : ((onWire (run step (fresh 0 (fun _ => 255) fun _ => 0) (batchInPad ++ batchOut)))[1]?).map
      mpduTotalByteCnt = some 11050 := by decide +kernel
  have closed : ((run step (fresh 0 (fun _ => 255) fun _ => 0) (batchInPad ++ batchOut)).committed[1]?).map
      Committed.batch = some (some (52,300)) := by decide +kernel
  obtain ⟨frame,sent,count⟩ := Option.map_eq_some_iff.mp counts
  obtain ⟨k,here,batch⟩ := Option.map_eq_some_iff.mp closed
  have claimed := (done 1 frame k 52 300 sent here batch).2
  rw [count] at claimed
  cases claimed

end RtmpDriver.UsbBatch
