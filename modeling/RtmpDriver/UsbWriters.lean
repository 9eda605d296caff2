import RtmpDriver.UsbInvariant

/-! The writers' steps keep the ring's invariant. A single frame is complete from its header on; a batch gets its
length, its MPDU count and its round flag when it is closed, in the buffer or in the saved pad. -/
namespace RtmpDriver.UsbWriters
open ByteMemory UsbDescriptor UsbRing UsbSweep UsbLayout UsbInvariant List

variable {Writer : Type} [DecidableEq Writer]

def Keeps (p : Nat) (s : State Writer) : Prop := ∃ first second flight sent, Kept p s first second flight sent

def Advances (p : Nat) (s s' : State Writer) : Prop :=
  Keeps p s' ∧ ∀ x ∈ s'.ctx.wirelessPacket.spans, SpanSafe s x

variable {p : Nat} {s : State Writer} {first second flight : List Frame} {sent : List Bytes} {w : Writer}

theorem advancesStill (kept : Kept p s first second flight sent) (bare : s.ctx.wirelessPacket.spans = []) :
    Advances p s s := by
  refine ⟨⟨_,_,_,_,kept⟩,fun x mem => ?_⟩
  rw [bare] at mem
  cases mem

def singleHeader (w : Nat) (b : TxBlk) : Bytes :=
  let info := rltUsbWriteTxinfo b.dmaLen false fifoEdca false (load b.headerBuf 0 (txInfoSize + b.hdrLen))
  if 202752 < w + 3906 + b.priv then setSwLstRnd true info else info

theorem singleHeaderLength (w b) : (singleHeader w b).length = txInfoSize + b.hdrLen := by
  unfold singleHeader
  dsimp only
  split <;> simp

theorem writeSingleOpens {c} (b) (can : rtmpUsbCanDoWrite c = true) :
    let w := c.curWritePosition + reserved c.eNextBulkOutPosition c.curWritePosition
    writeSingleTxResource c b = some (opened c (singleHeader w b),
      .single (w + (singleHeader w b).length) b.srcBuf b.padding b.priv (decide (202752 < w + 3906 + b.priv))
        (singleHeader w b)) := by
  intro w
  have place : (reserve { c with bCurWriting := true }).curWritePosition = w := by
    unfold reserve
    rcases eq_or_ne c.eNextBulkOutPosition c.curWritePosition with same | other
    · simp [same,w,reserved]
    · simp [other,w,reserved]
  have limit : maxTxbulkLimit = 202752 := rfl
  simp only [writeSingleTxResource,can,if_true,opened,place,singleHeaderLength,limit,decide_eq_true_eq]
  rfl

theorem singleFormed (w b) (fits : b.priv ≤ 65539) :
    Formed (singleHeader w b ++ b.srcBuf ++ zeros b.padding) b.priv (decide (202752 < w + 3906 + b.priv)) := by
  have long : 4 ≤ (singleHeader w b).length := by
    rw [singleHeaderLength]
    exact Nat.le_add_right 4 _
  have header : 2 < txInfoSize + b.hdrLen := Nat.lt_of_lt_of_le (by decide : 2 < 4) (Nat.le_add_right 4 _)
  have whole : (singleHeader w b ++ b.srcBuf ++ zeros b.padding).length = b.priv := by
    simp only [length_append,singleHeaderLength,zeros,length_replicate,TxBlk.priv,TxBlk.dmaLen]
    omega
  have low : 24 ≤ b.priv := by
    simp only [TxBlk.priv,TxBlk.dmaLen,TxBlk.hdrLen,txInfoSize,txWiSize]
    omega
  have priv : b.priv = b.dmaLen + 4 := Nat.add_comm 4 b.dmaLen
  refine ⟨whole,?_,by omega,?_⟩
  · rw [whole,append_assoc,pktLenAppend _ long,priv]
    congr 1
    unfold singleHeader
    dsimp only
    split
    · rw [pktLenOfSwLstRnd,pktLenOfWrite (by rw [loadLength]; omega) (by omega)]
    · rw [pktLenOfWrite (by rw [loadLength]; omega) (by omega)]
  · rw [append_assoc,swLstRndAppend _ long]
    unfold singleHeader
    dsimp only
    split
    · rename_i beyond
      rw [swLstRndOfSet (by simpa using header),decide_eq_true beyond]
    · rename_i fits
      rw [swLstRndOfWrite (by simpa using header),decide_eq_false fits]

theorem leavesRoomy {c len} (room : LeavesRoom c len) :
    Roomy c.eNextBulkOutPosition c.curWritePosition c.nextBulkOutPosition (len + 8) := by
  have limit : maxTxbulkLimit = 202752 := rfl
  have size : maxTxbulkSize = 204800 := rfl
  obtain ⟨_,before,inside,same⟩ := room
  rw [size] at inside
  rw [limit] at same
  exact ⟨by omega,by omega,by omega⟩

theorem openedRoomy {c header len} (room : LeavesRoom (reserve c) len) :
    Roomy (opened c header).eNextBulkOutPosition (opened c header).curWritePosition c.nextBulkOutPosition
      (len + 8) := by
  have roomy := leavesRoomy room
  unfold opened
  unfold reserve at roomy ⊢
  split at roomy <;> rename_i same
  · simpa [same] using roomy
  · simpa [same] using roomy

section
variable (kept : Kept p s first second flight sent) (bare : s.ctx.wirelessPacket.spans = [])
include kept bare

theorem writeSingleAdvances (b) (room : rtmpUsbCanDoWrite s.ctx = true → LeavesRoom (reserve s.ctx) b.priv) :
    Advances p s (s.begin w (writeSingleTxResource s.ctx b)) := by
  cases can : rtmpUsbCanDoWrite s.ctx with
  | false =>
    simp only [writeSingleTxResource,can,Bool.false_eq_true,if_false]
    exact advancesStill kept bare
  | true =>
    rw [writeSingleOpens b can]
    simp only [State.begin]
    generalize place : s.ctx.curWritePosition + reserved s.ctx.eNextBulkOutPosition s.ctx.curWritePosition = a
    have formed := singleFormed a b (room can).1
    have size := singleHeaderLength a b
    have fields := openedFields s.ctx (singleHeader a b)
    have position : (opened s.ctx (singleHeader a b)).curWritePosition = a := fields.position.trans place
    have low : 24 ≤ (singleHeader a b).length := by
      rw [size]
      simp only [TxBlk.hdrLen,txInfoSize,txWiSize]
      omega
    have high : (singleHeader a b).length ≤ b.priv := by
      have := formed.1
      simp only [length_append] at this
      omega
    obtain ⟨kept,safe⟩ := kept.begin can w low high rfl
      (j := .single (a + (singleHeader a b).length) b.srcBuf b.padding b.priv
        (decide (202752 < a + 3906 + b.priv)) (singleHeader a b))
      (by rw [position]; exact ⟨rfl,low,formed,rfl⟩) (openedRoomy (room can))
    refine ⟨⟨_,_,_,_,kept⟩,fun x mem => ?_⟩
    simp only [fields.packet,Region.writeSpans,bare,nil_append,mem_singleton] at mem
    rwa [mem]

theorem copySingleAdvances {cursor padding priv src copied last}
    (job : s.jobs w = some (.single cursor src padding priv last copied)) : Advances p s (act s (.copySingle w)) := by
  have busy := kept.worker.busy job
  obtain ⟨rfl,long,formed,flag⟩ := busy.works
  have short := formed.1
  have large := (extentLow (.single (s.ctx.curWritePosition + copied.length) src padding priv last copied)).2
  simp only [length_append,zeros,length_replicate] at short
  simp only [size] at large
  have tail : zeros (padding + 8) = zeros padding ++ zeros 8 := replicate_add _ _ _
  have image : Holds (store (view s.ctx) (s.ctx.curWritePosition + copied.length) (src ++ zeros (padding + 8)))
      s.ctx.curWritePosition (copied ++ (src ++ zeros (padding + 8))) := busy.image.extend
  have whole : copied ++ (src ++ zeros (padding + 8)) = copied ++ src ++ zeros padding ++ zeros 8 := by simp [tail]
  rw [whole] at image
  have cells : store (store s.ctx.wirelessPacket.cells (s.ctx.curWritePosition + copied.length) src)
      (s.ctx.curWritePosition + copied.length + src.length) (zeros (padding + 8)) =
      store s.ctx.wirelessPacket.cells (s.ctx.curWritePosition + copied.length) (src ++ zeros (padding + 8)) :=
    storeAppend.symm
  have high : s.ctx.curWritePosition + copied.length + (src ++ zeros (padding + 8)).length ≤
      s.ctx.curWritePosition + extent (.single (s.ctx.curWritePosition + copied.length) src padding priv last copied) :=
    by simp only [length_append,zeros,length_replicate]; omega
  have done := kept.fill job ((s.ctx.wirelessPacket.write _ src).write _ (zeros (padding + 8))) cells
    (.written priv last (copied ++ src ++ zeros padding)) busy.shape (by omega) high ⟨formed,flag⟩
    (holdsAppend.mp image).1
  refine ⟨⟨_,_,_,_,by simpa only [act,job,State.write] using done⟩,fun x mem => ?_⟩
  simp only [act,job,State.write,Region.writeSpans,bare,nil_append,cons_append,mem_cons,
    not_mem_nil,or_false] at mem
  rcases mem with rfl | rfl
  · exact kept.spanBehind busy.shape (by omega) (by omega)
  · exact kept.spanBehind busy.shape (by omega) (by simp only [zeros,length_replicate]; omega)

theorem commitSingleAdvances {priv copied last} (job : s.jobs w = some (.written priv last copied)) :
    Advances p s (act s (.commitSingle w)) := by
  have busy := kept.worker.busy job
  obtain ⟨⟨size,sized,low,flagged⟩,flag⟩ := busy.works
  let f : Frame := ⟨copied,sized,low⟩
  have last' : f.last = last := flagged
  have closed : Closed s.ctx (UsbRing.commitSingle s.ctx priv last) f := by
    refine ⟨?_,rfl,rfl,rfl,rfl,rfl,rfl⟩
    simp only [UsbRing.commitSingle,last',← size,f]
  obtain ⟨first',second',done⟩ := kept.commit job (k := ⟨copied,none⟩) rfl closed size
    (by rw [last',flag,← size]) busy.image (fun _ _ => rfl) (fun _ _ _ _ => rfl)
  refine ⟨⟨first',second',_,_,by simpa only [act,job] using done⟩,fun x mem => ?_⟩
  simp only [act,job,UsbRing.commitSingle,bare] at mem
  cases mem

end

theorem writeMultiOpens {c} (b) (can : rtmpUsbCanDoWrite c = true) :
    let priv := txInfoSize + txWiSize + b.hwHdrLen
    let header := rltUsbWriteTxinfo priv false fifoEdca false (load b.headerBuf 0 priv)
    writeMultiFirst c b = some (opened c header,
      .multi ((opened c header).curWritePosition + header.length) b.srcBuf priv header) := by
  intro priv header
  have size : header.length = priv := by simp [header]
  simp only [writeMultiFirst,can,if_true,opened]
  rw [size]

section
variable (kept : Kept p s first second flight sent) (bare : s.ctx.wirelessPacket.spans = [])
include kept bare

theorem writeFirstAdvances (b) (room : rtmpUsbCanDoWrite s.ctx = true →
      LeavesRoom (reserve s.ctx) (paddedLength (txInfoSize + txWiSize + b.hwHdrLen + b.srcBuf.length))) :
    Advances p s (s.begin w (writeMultiFirst s.ctx b)) := by
  cases can : rtmpUsbCanDoWrite s.ctx with
  | false =>
    simp only [writeMultiFirst,can,Bool.false_eq_true,if_false]
    exact advancesStill kept bare
  | true =>
    rw [writeMultiOpens b can]
    simp only [State.begin]
    have fits := room can
    generalize priv' : txInfoSize + txWiSize + b.hwHdrLen = priv at fits ⊢
    generalize image : rltUsbWriteTxinfo priv false fifoEdca false (load b.headerBuf 0 priv) = header
    have low : 24 ≤ priv := by
      rw [← priv']
      exact Nat.le_add_right 24 _
    have size : header.length = priv := by simp [← image]
    have plain : txInfoSwLstRnd header = false := by
      rw [← image]
      exact swLstRndOfWrite (by rw [loadLength]; omega)
    have high : header.length ≤ paddedLength (priv + b.srcBuf.length) := by
      unfold paddedLength
      omega
    obtain ⟨kept,safe⟩ := kept.begin can w (by omega) high rfl
      (j := .multi ((opened s.ctx header).curWritePosition + header.length) b.srcBuf priv header)
      ⟨rfl,size,low,plain,fits.1⟩ (openedRoomy fits)
    refine ⟨⟨_,_,_,_,kept⟩,fun x mem => ?_⟩
    simp only [(openedFields s.ctx header).packet,Region.writeSpans,bare,nil_append,mem_singleton] at mem
    rwa [mem]

theorem writeNextAdvances {priv copied} (job : s.jobs w = some (.batch priv copied)) (b)
    (room : LeavesRoom s.ctx (paddedLength (priv + b.mpduHeaderLen + b.srcBuf.length))) :
    Advances p s (s.begin w (writeMultiNext s.ctx b priv copied)) := by
  have busy := kept.worker.busy job
  obtain ⟨rfl,long,plain,_⟩ := busy.works
  have opens : writeMultiNext s.ctx b copied.length copied =
      some ({ s.ctx with wirelessPacket :=
          s.ctx.wirelessPacket.write (s.ctx.curWritePosition + copied.length) (load b.headerBuf 0 b.mpduHeaderLen) },
        .multi (s.ctx.curWritePosition + copied.length + b.mpduHeaderLen) b.srcBuf (copied.length + b.mpduHeaderLen)
          (copied ++ load b.headerBuf 0 b.mpduHeaderLen)) := if_pos busy.flag
  rw [opens,State.begin]
  generalize sub : load b.headerBuf 0 b.mpduHeaderLen = header
  have size : header.length = b.mpduHeaderLen := by simp [← sub]
  rw [← size] at room ⊢
  let j : Job := .multi (s.ctx.curWritePosition + copied.length + header.length) b.srcBuf
    (copied.length + header.length) (copied ++ header)
  have before := extentLow (.batch copied.length copied)
  have large := (extentLow j).2
  have high : copied.length + header.length ≤ UsbInvariant.size j := by
    simp only [j,UsbInvariant.size,paddedLength]
    omega
  have shape := busy.shape.widen (by omega) (extentRoomy (j := j) (busy.shape.roomy before.1) (leavesRoomy room))
  have image : Holds (view s.ctx) s.ctx.curWritePosition copied := busy.image
  refine ⟨⟨_,_,_,_,kept.fill job _ rfl j shape (by omega) (by omega) ?_ image.extend⟩,fun x mem => ?_⟩
  · refine ⟨by simp [Nat.add_assoc],by simp,by omega,?_,room.1⟩
    rwa [swLstRndAppend _ (by omega)]
  · simp only [Region.writeSpans,bare,nil_append,mem_singleton] at mem
    rw [mem]
    exact kept.spanBehind shape (by omega) (by omega)

theorem copyMultiAdvances {cursor priv src copied} (job : s.jobs w = some (.multi cursor src priv copied)) :
    Advances p s (act s (.copyMulti w)) := by
  have busy := kept.worker.busy job
  obtain ⟨rfl,rfl,long,plain,fits⟩ := busy.works
  have large := (extentLow (.batch (copied.length + src.length) (copied ++ src))).2
  have high : copied.length + src.length + 8 ≤ extent (.batch (copied.length + src.length) (copied ++ src)) := by
    simp only [size,paddedLength] at large
    omega
  have image : Holds (view s.ctx) s.ctx.curWritePosition copied := busy.image
  have done := kept.fill job (s.ctx.wirelessPacket.write _ src) rfl
    (.batch (copied.length + src.length) (copied ++ src)) busy.shape (by omega) (by omega)
    ⟨by simp,by omega,by rw [swLstRndAppend _ (by omega)]; exact plain,fits⟩ image.extend
  refine ⟨⟨_,_,_,_,by simpa only [act,job,State.write] using done⟩,fun x mem => ?_⟩
  simp only [act,job,State.write,Region.writeSpans,bare,nil_append,mem_singleton] at mem
  rw [mem]
  exact kept.spanBehind (e := extent (.batch (copied.length + src.length) (copied ++ src))) busy.shape (by omega)
    (by omega)

end

section Descriptor
variable {r : Region UInt8} {a n : Nat} {b : Bytes}

theorem countEdited (total) (held : Holds r.cells a b) (long : 12 ≤ b.length) :
    Edited r (r.patch (a + mpduField) 2 (putMpduCount total)) a b (setMpduCount total b) := by
  have ten : (b.take mpduField).length = mpduField := length_take_of_le (by unfold mpduField; omega)
  rw [← take_append_drop mpduField b,holdsAppend,ten] at held
  have tail := Edited.patch (r := r) (putMpduCountFront (n := total)) (by simp [mpduField]; omega) held.2
  rw [← ten] at tail
  have whole := (Edited.refl held.1).append tail
  rwa [ten,take_append_drop] at whole

def describe (usbDmaPktLen total : Nat) (last : Bool) (b : Bytes) : Bytes :=
  let counted := setMpduCount total (setPktLen usbDmaPktLen b)
  if last then setSwLstRnd true counted else counted

theorem completeEdited (total) (held : Holds r.cells a b) (long : 12 ≤ b.length) (last) :
    Edited r (completeDescriptor r a n total last) a b (describe n total last b) := by
  have sized := infoEdited (setPktLenFront (n := n)) (by omega) held
  have counted := sized.trans (countEdited total sized.holds (by simpa using long))
  unfold completeDescriptor describe
  cases last with
  | false => exact counted
  | true => exact counted.trans (infoEdited (setSwLstRndFront (v := true)) (by simp; omega) counted.holds)

def padFields (usbDmaPktLen : Nat) (last : Bool) (b : Bytes) : Bytes :=
  if last then setSwLstRnd true (setPktLen usbDmaPktLen b) else setPktLen usbDmaPktLen b

theorem padFieldsFront (last) : Front 4 (padFields n last) := by
  cases last with
  | false => exact setPktLenFront
  | true => exact setPktLenFront.comp setSwLstRndFront

theorem describePad (total last b) (long : 12 ≤ b.length) :
    (describe n total last b).take 8 = padFields n last (b.take 8) := by
  have eight : (b.take 8).length = 8 := length_take_of_le (by omega)
  have sized : (setPktLen n b).take 8 = setPktLen n (b.take 8) := by
    have whole := (setPktLenFront (n := n)).more (by decide : 4 ≤ 8) (b.take 8) (b.drop 8) eight
    rw [take_append_drop] at whole
    rw [whole.1,take_left' whole.2]
  have counted : (setMpduCount total (setPktLen n b)).take 8 = setPktLen n (b.take 8) := by
    unfold setMpduCount
    rw [take_append_of_le_length (by simp [mpduField]; omega),take_take]
    exact sized
  unfold describe
  cases last with
  | false => exact counted
  | true =>
    have size : ((setMpduCount total (setPktLen n b)).take 8).length = 8 := length_take_of_le (by simp; omega)
    have whole := (setSwLstRndFront (v := true)).more (by decide : 4 ≤ 8) _
      ((setMpduCount total (setPktLen n b)).drop 8) size
    rw [take_append_drop] at whole
    simp only [if_true,padFields]
    rw [whole.1,take_left' whole.2,counted]

theorem padCompleted (total last) :
    load (completeDescriptor r 0 n total last).cells 0 8 = padFields n last (load r.cells 0 8) := by
  have held : Holds r.cells 0 (load r.cells 0 12) := by rw [Holds,loadLength]
  have edited := completeEdited (n := n) total held (by rw [loadLength]) last
  rw [edited.holds.take (n := 8) (by rw [edited.size,loadLength]; omega),describePad _ _ _ (by rw [loadLength]),
    held.take (n := 8) (by rw [loadLength]; omega)]

end Descriptor

theorem paddedSum {priv} (long : 24 ≤ priv) :
    txInfoSize + (priv - txInfoSize + roundUp (priv - txInfoSize)) = paddedLength priv := by
  unfold paddedLength txInfoSize
  omega

theorem batchFormed (c total) {copied} (long : 24 ≤ copied.length)
    (plain : txInfoSwLstRnd copied = false) (fits : paddedLength copied.length ≤ 65539) :
    Formed (batchFrame c copied.length total copied) (paddedLength copied.length)
      (decide (202752 < c.curWritePosition + 3906 + paddedLength copied.length)) := by
  have limit : maxTxbulkLimit = 202752 := rfl
  have sum := paddedSum long
  have beyond : maxTxbulkLimit < c.curWritePosition + paddedLength copied.length + 3906 ↔
      202752 < c.curWritePosition + 3906 + paddedLength copied.length := by
    rw [limit]
    omega
  unfold batchFrame
  simp only [sum,beyond]
  generalize roundUp (copied.length - txInfoSize) = padding at sum ⊢
  have small : copied.length - txInfoSize + padding < 65536 := by
    unfold txInfoSize at sum ⊢
    omega
  generalize shape : (if Saved c then setPktLen (copied.length - txInfoSize + padding) copied
    else setMpduCount total (setPktLen (copied.length - txInfoSize + padding) copied)) = counted
  have size : counted.length = copied.length := by
    rw [← shape]
    split <;> simp
  have length : txInfoPktLen counted = copied.length - txInfoSize + padding := by
    have sized := pktLenOfSet (b := copied) (by omega) small
    rw [← shape]
    split
    · exact sized
    · rw [pktLenOfMpduCount (by simp [mpduField]; omega),sized]
  have flag : txInfoSwLstRnd counted = false := by
    rw [← shape]
    split
    · rw [swLstRndOfPktLen,plain]
    · rw [swLstRndOfMpduCount (by simp [mpduField]; omega),swLstRndOfPktLen,plain]
  generalize closed : (if 202752 < c.curWritePosition + 3906 + paddedLength copied.length then setSwLstRnd true counted
    else counted) = described
  have facts : described.length = copied.length ∧ txInfoPktLen described = txInfoPktLen counted ∧
      txInfoSwLstRnd described = decide (202752 < c.curWritePosition + 3906 + paddedLength copied.length) := by
    rw [← closed]
    split
    · rename_i last
      rw [decide_eq_true last]
      exact ⟨by simpa using size,pktLenOfSwLstRnd,swLstRndOfSet (by omega)⟩
    · rename_i fitting
      rw [decide_eq_false fitting]
      exact ⟨size,rfl,flag⟩
  obtain ⟨size',length',flag'⟩ := facts
  have whole : (described ++ zeros padding).length = paddedLength copied.length := by
    simp only [length_append,zeros,length_replicate,size']
    unfold txInfoSize at sum
    omega
  refine ⟨whole,?_,by omega,?_⟩
  · rw [whole,pktLenAppend _ (by omega),length',length,← sum,Nat.add_comm]
    rfl
  · rw [swLstRndAppend _ (by omega),flag']

section Final
variable {c : HtTxContext} {priv : Nat} (total : Nat)

def lastRound (c : HtTxContext) (priv : Nat) : Bool := decide (202752 < c.curWritePosition + 3906 + paddedLength priv)

theorem finalLast (long : 24 ≤ priv) : decide (maxTxbulkLimit <
        c.curWritePosition + (txInfoSize + (priv - txInfoSize + roundUp (priv - txInfoSize))) + 3906) =
      lastRound c priv := by
  have limit : maxTxbulkLimit = 202752 := rfl
  rw [paddedSum long,limit,lastRound]
  exact decide_eq_decide.mpr (by omega)

section
variable (flag : c.bCurWriting = true) (long : 24 ≤ priv)
include flag long

theorem finalCloses {f}
    (size : f.bytes.length = paddedLength priv) (last : f.last = lastRound c priv) :
    Closed c (finalWriteTxResource c priv total) f := by
  have sum := paddedSum long
  have beyond := finalLast (c := c) long
  unfold finalWriteTxResource
  rw [if_pos flag]
  simp only [beyond]
  simp only [sum,← last]
  split <;> exact ⟨by simp only [size],rfl,rfl,rfl,rfl,rfl,rfl⟩

theorem finalUnsaved (unsaved : ¬ Saved c) :
    (finalWriteTxResource c priv total).savedPad = c.savedPad ∧ (finalWriteTxResource c priv total).wirelessPacket =
        (completeDescriptor c.wirelessPacket c.curWritePosition (priv - txInfoSize + roundUp (priv - txInfoSize)) total
          (lastRound c priv)).write (c.curWritePosition + priv) (zeros (roundUp (priv - txInfoSize) + 8)) := by
  have beyond := finalLast (c := c) long
  unfold finalWriteTxResource
  rw [if_pos flag]
  simp only [beyond,if_neg unsaved,and_self]

theorem finalSaved (saved : Saved c) :
    (finalWriteTxResource c priv total).savedPad =
        completeDescriptor c.savedPad 0 (priv - txInfoSize + roundUp (priv - txInfoSize)) total (lastRound c priv) ∧
      (finalWriteTxResource c priv total).wirelessPacket =
        c.wirelessPacket.write (c.curWritePosition + priv) (zeros (roundUp (priv - txInfoSize) + 8)) := by
  have beyond := finalLast (c := c) long
  unfold finalWriteTxResource
  rw [if_pos flag]
  simp only [beyond,if_pos saved,and_self]

end

theorem batchFrameUnsaved (long : 24 ≤ priv) (unsaved : ¬ Saved c) (copied) : batchFrame c priv total copied =
      describe (priv - txInfoSize + roundUp (priv - txInfoSize)) total (lastRound c priv) copied ++
        zeros (roundUp (priv - txInfoSize)) := by
  have beyond := finalLast (c := c) long
  unfold batchFrame describe
  rw [← beyond]
  simp only [if_neg unsaved,decide_eq_true_eq]

theorem batchFrameSaved (long : 24 ≤ priv) (saved : Saved c) (copied) : batchFrame c priv total copied =
      padFields (priv - txInfoSize + roundUp (priv - txInfoSize)) (lastRound c priv) copied ++
        zeros (roundUp (priv - txInfoSize)) := by
  have beyond := finalLast (c := c) long
  unfold batchFrame padFields
  rw [← beyond]
  simp only [if_pos saved,decide_eq_true_eq]

end Final

structure Landed (c c' : HtTxContext) (low : Nat) (frame : Bytes) : Prop where
  image : Holds (view c') c.curWritePosition frame
  outside : ∀ i, i < c.curWritePosition ∨ c.curWritePosition + frame.length + 8 ≤ i → view c' i = view c i
  packet : ∀ i, i < low ∨ c.curWritePosition + frame.length + 8 ≤ i →
    c'.wirelessPacket.cells i = c.wirelessPacket.cells i
  spans : ∀ x ∈ c'.wirelessPacket.spans,
    x ∈ c.wirelessPacket.spans ∨ low ≤ x.1 ∧ x.1 + x.2 ≤ c.curWritePosition + frame.length + 8

theorem paddedHolds {m a b} (padding) (held : Holds m a b) :
    Holds (store m (a + b.length) (zeros (padding + 8))) a (b ++ zeros padding) := by
  have whole := held.extend (c := zeros (padding + 8))
  have split : zeros (padding + 8) = zeros padding ++ zeros 8 := replicate_add _ _ _
  rw [split] at whole ⊢
  rw [← append_assoc] at whole
  exact (holdsAppend.mp whole).1

theorem unsavedLands {c total copied f} (flag : c.bCurWriting = true)
    (long : 24 ≤ copied.length) (closed : Closed c (finalWriteTxResource c copied.length total) f)
    (unsaved : ¬ Saved c)
    (image : Holds (view c) c.curWritePosition copied)
    (away : c.bCopySavePad = true → c.eNextBulkOutPosition + 8 ≤ c.curWritePosition ∨
      c.curWritePosition + paddedLength copied.length ≤ c.eNextBulkOutPosition) :
    Landed c (finalWriteTxResource c copied.length total) c.curWritePosition
      (batchFrame c copied.length total copied) := by
  obtain ⟨pad,packet⟩ := finalUnsaved total flag long unsaved
  rw [batchFrameUnsaved total long unsaved]
  generalize finalWriteTxResource c copied.length total = c' at closed pad packet ⊢
  unfold paddedLength at away
  generalize roundUp (copied.length - txInfoSize) = padding at packet away ⊢
  have inBuffer : Holds c.wirelessPacket.cells c.curWritePosition copied :=
    image.congr fun i low high => (viewNear fun saved => by have := away saved; omega).symm
  have edited := completeEdited (n := copied.length - txInfoSize + padding) total inBuffer (by omega)
    (lastRound c copied.length)
  generalize completeDescriptor c.wirelessPacket c.curWritePosition _ total _ = described at edited packet
  have whole := paddedHolds padding edited.holds
  have cells : c'.wirelessPacket.cells =
      store described.cells (c.curWritePosition + copied.length) (zeros (padding + 8)) := by
    rw [packet,Region.writeCells]
  rw [edited.size,← cells] at whole
  have length : (describe (copied.length - txInfoSize + padding) total (lastRound c copied.length) copied ++
      zeros padding).length = copied.length + padding := by rw [length_append,edited.size,zeros,length_replicate]
  have untouched : ∀ i, i < c.curWritePosition ∨
      c.curWritePosition + (describe (copied.length - txInfoSize + padding) total (lastRound c copied.length) copied ++
        zeros padding).length + 8 ≤ i → c'.wirelessPacket.cells i = c.wirelessPacket.cells i := by
    intro i outside
    rw [length] at outside
    rw [cells,storeOut (by simp only [zeros,length_replicate]; omega)]
    exact edited.outside i (by omega)
  refine ⟨whole.congr fun i low high => viewNear fun saved => ?_,fun i outside => ?_,untouched,
    fun x mem => ?_⟩
  · rw [closed.saved] at saved
    rw [closed.reader]
    simp only [length_append,zeros,length_replicate,edited.size] at high
    have := away saved
    omega
  · exact viewCongr closed.saved closed.reader pad (untouched i outside)
  · rw [packet,Region.writeSpans,mem_append,mem_singleton] at mem
    simp only [length_append,zeros,length_replicate,edited.size] at mem ⊢
    rcases mem with mem | rfl
    · rcases edited.spans x mem with before | inside
      · exact .inl before
      · exact .inr (by omega)
    · exact .inr (by simp only; omega)

theorem viewSaved {c a} (saved : c.bCopySavePad = true) (here : c.eNextBulkOutPosition = a) :
    view c = store c.wirelessPacket.cells a (load c.savedPad.cells 0 8) := by
  simp [view,saved,here]

theorem savedStart {m pad a} {copied : Bytes} (long : 8 ≤ copied.length)
    (image : Holds (store m a (load pad 0 8)) a copied) :
    load pad 0 8 = copied.take 8 ∧ Holds m (a + 8) (copied.drop 8) := by
  have eight : (copied.take 8).length = 8 := length_take_of_le long
  constructor
  · have stored : Holds (store m a (load pad 0 8)) a (load pad 0 8) := holdsStore
    rw [Holds,loadLength] at stored
    rw [← image.take (n := 8) long]
    exact stored.symm
  · rw [← take_append_drop 8 copied,holdsAppend,eight] at image
    exact image.2.congr fun i low _ => (storeOut (.inr (by rw [loadLength]; omega))).symm

theorem savedLands {c : HtTxContext} {total copied} {f : Frame} (flag : c.bCurWriting = true)
    (long : 24 ≤ copied.length) (closed : Closed c (finalWriteTxResource c copied.length total) f) (saved : Saved c)
    (here : c.eNextBulkOutPosition = c.curWritePosition) (image : Holds (view c) c.curWritePosition copied) :
    Landed c (finalWriteTxResource c copied.length total) (c.curWritePosition + 24)
      (batchFrame c copied.length total copied) := by
  obtain ⟨pad,packet⟩ := finalSaved total flag long saved
  rw [batchFrameSaved total long saved]
  generalize finalWriteTxResource c copied.length total = c' at closed pad packet ⊢
  generalize roundUp (copied.length - txInfoSize) = padding at packet pad ⊢
  generalize copied.length - txInfoSize + padding = n at pad ⊢
  have viewOld := viewSaved saved.2 here
  have viewNew := viewSaved (closed.saved.trans saved.2) (closed.reader.trans here)
  rw [viewOld] at image
  obtain ⟨start,rest⟩ := savedStart (by omega) image
  rw [pad,padCompleted,start,packet,Region.writeCells] at viewNew
  have front := padFieldsFront (n := n) (lastRound c copied.length)
  generalize padFields n (lastRound c copied.length) = fields at front viewNew ⊢
  have eight : (copied.take 8).length = 8 := length_take_of_le (by omega)
  obtain ⟨split,size⟩ := front.more (by decide : 4 ≤ 8) (copied.take 8) (copied.drop 8) eight
  rw [take_append_drop] at split
  have long' : (fields copied).length = copied.length := front.length (by omega)
  have base : Holds (store c.wirelessPacket.cells c.curWritePosition (fields (copied.take 8))) c.curWritePosition
      (fields copied) := by
    rw [split,holdsAppend,size]
    exact ⟨holdsStore,rest.congr fun i low _ => storeOut (.inr (by omega))⟩
  have whole := paddedHolds padding base
  rw [long',storeComm (.inl (by rw [size]; omega)),← viewNew] at whole
  have untouched : ∀ i, i < c.curWritePosition + 24 ∨
      c.curWritePosition + (fields copied ++ zeros padding).length + 8 ≤ i →
      c'.wirelessPacket.cells i = c.wirelessPacket.cells i := by
    intro i outside
    simp only [length_append,zeros,length_replicate,long'] at outside
    rw [packet,Region.writeCells]
    exact storeOut (by simp only [zeros,length_replicate]; omega)
  refine ⟨whole,fun i outside => ?_,untouched,fun x mem => ?_⟩
  · simp only [length_append,zeros,length_replicate,long'] at outside
    rw [viewNew,viewOld,storeOut (by omega),storeOut (by simp only [zeros,length_replicate]; omega)]
    exact (storeOut (by rw [loadLength]; omega)).symm
  · rw [packet,Region.writeSpans,mem_append,mem_singleton] at mem
    simp only [length_append,zeros,length_replicate,long'] at mem ⊢
    rcases mem with mem | rfl
    · exact .inl mem
    · exact .inr (by simp only; omega)

theorem savedHere {j} (busy : Busy s w j first second) (saved : Saved s.ctx) :
    first = [] ∧ s.ctx.eNextBulkOutPosition = s.ctx.curWritePosition := by
  have none := busy.shape.placed.empty.mp saved.1
  exact ⟨none,busy.shape.room.2.2.2.2.1 none⟩

theorem unsavedFrames {j} (busy : Busy s w j first second) (unsaved : ¬ Saved s.ctx)
    (copy : s.ctx.bCopySavePad = true) : first ≠ [] :=
  fun none => unsaved ⟨.inl (busy.shape.room.2.2.2.2.1 none),copy⟩

theorem landedAdvances (kept : Kept p s first second flight sent) (bare : s.ctx.wirelessPacket.spans = []) {j}
    (job : s.jobs w = some j) {f c' low} (k) (bytes : k.bytes = f.bytes)
    (closed : Closed s.ctx c' f) (flag : f.last = decide (202752 < s.ctx.curWritePosition + 3906 + f.bytes.length))
    (fits : f.bytes.length = size j) (landed : Landed s.ctx c' low f.bytes)
    (inside : low ≤ s.ctx.curWritePosition + extent j)
    (safe : ∀ a n, low ≤ a → a + n ≤ s.ctx.curWritePosition + extent j → SpanSafe s (a,n)) :
    Advances p s { s with ctx := c',jobs := Function.update s.jobs w none,committed := s.committed ++ [k] } := by
  have large := (extentLow j).2
  have whole := safe low (s.ctx.curWritePosition + extent j - low) (Nat.le_refl _) (by omega)
  have packet : Pending s.pipe → ∀ i, s.ctx.nextBulkOutPosition ≤ i →
      i < s.ctx.nextBulkOutPosition + s.ctx.bulkOutSize →
      c'.wirelessPacket.cells i = s.ctx.wirelessPacket.cells i := by
    intro pending i from' to'
    have apart := whole.2 pending
    unfold Apart at apart
    exact landed.packet i (by omega)
  obtain ⟨first',second',done⟩ := kept.commit job bytes closed fits flag landed.image
    (fun i outside => landed.outside i (by omega)) packet
  refine ⟨⟨first',second',_,_,done⟩,fun x mem => ?_⟩
  rcases landed.spans x mem with old | ⟨from',to'⟩
  · rw [bare] at old
    cases old
  · exact safe x.1 x.2 from' (by omega)

theorem batchCloses {priv copied} (busy : Busy s w (.batch priv copied) first second) (total) :
    ∃ f : Frame, f.bytes = batchFrame s.ctx priv total copied ∧ f.bytes.length = paddedLength priv ∧
      Closed s.ctx (finalWriteTxResource s.ctx priv total) f ∧
      f.last = decide (202752 < s.ctx.curWritePosition + 3906 + f.bytes.length) := by
  obtain ⟨rfl,long,plain,fits⟩ := busy.works
  obtain ⟨size,sized,lower,flag⟩ := batchFormed s.ctx total long plain fits
  refine ⟨⟨_,sized,lower⟩,rfl,size,finalCloses total busy.flag long size flag,?_⟩
  rwa [size]

theorem batchLands {priv copied} (busy : Busy s w (.batch priv copied) first second) {total f}
    (closed : Closed s.ctx (finalWriteTxResource s.ctx priv total) f) (unsaved : ¬ Saved s.ctx) :
    Landed s.ctx (finalWriteTxResource s.ctx priv total) s.ctx.curWritePosition
      (batchFrame s.ctx priv total copied) := by
  obtain ⟨rfl,long,_⟩ := busy.works
  refine unsavedLands busy.flag long closed unsaved busy.image fun copy => ?_
  have large : paddedLength copied.length + 8 ≤ extent (.batch copied.length copied) :=
    (extentLow (.batch copied.length copied)).2
  have apart := busy.shape.room.2.2.2.2.2.1 (unsavedFrames busy unsaved copy)
  omega

theorem finalAdvances (kept : Kept p s first second flight sent) (bare : s.ctx.wirelessPacket.spans = [])
    {priv copied} (job : s.jobs w = some (.batch priv copied)) (total) :
    Advances p s (act s (.finalWrite w total)) := by
  have busy := kept.worker.busy job
  obtain ⟨f,bytes,length,closed,last⟩ := batchCloses busy total
  have large := extentLow (.batch priv copied)
  simp only [act,job,busy.flag,if_true]
  rcases em (Saved s.ctx) with saved | unsaved
  · obtain ⟨rfl,long,_⟩ := busy.works
    have landed := savedLands busy.flag long closed saved (savedHere busy saved).2 busy.image
    rw [← bytes] at landed
    exact landedAdvances kept bare job _ bytes.symm closed last length landed (by omega)
      fun a n => kept.spanBehind busy.shape
  · have landed := batchLands busy closed unsaved
    rw [← bytes] at landed
    exact landedAdvances kept bare job _ bytes.symm closed last length landed (by omega)
      fun a n => kept.spanWhole busy (unsavedFrames busy unsaved)

end RtmpDriver.UsbWriters
