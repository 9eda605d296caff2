import RtmpDriver.BaParts
import RtmpDriver.ReorderParts
import RtmpDriver.StepMachine

/-! The bookkeeping of the Block-Ack table. `RecView` and `OriView` keep of an adapter what tables, counters, index
arrays and bitmaps say about sessions; through the views every handler opens, answers or closes a session. -/
namespace RtmpDriver.BaTable
open StepMachine SlotTable ReorderList ReorderEngine ReorderParts BaFrames BaSession BaParts
open Function (comp_update update update_eq_self update_idem update_of_ne update_self)

def entryId (e : RecEntry) : RecStatus × Nat × Nat := (e.status,e.wcid,e.tid)

theorem entryParts : Parts fun c c' => entryId c'.entry = entryId c.entry where
  refl _ := rfl
  trans h h' := h'.trans h
  emit _ _ := rfl
  last _ _ := rfl
  timer _ _ := rfl
  counts _ _ _ := rfl
  head c := by
    unfold announceHead
    split <;> rfl

theorem entryQueued (p c rx now) : entryId (baEnqueueReorderingPacket p c rx now).entry = entryId c.entry := by
  obtain ⟨blk,c',eq⟩ : ∃ blk c', baMpduBlkAlloc c = (blk,c') := ⟨_,_,rfl⟩
  have alloc : entryId c'.entry = entryId c.entry := by
    have kept : entryId (baMpduBlkAlloc c).2.entry = entryId c.entry := by
      unfold baMpduBlkAlloc
      split <;> rfl
    rwa [eq] at kept
  unfold baEnqueueReorderingPacket
  rw [eq]
  cases blk with
  | none => exact (entryParts.fallback ..).trans alloc
  | some m =>
    cases rx.eap with
    | true => exact (entryParts.fallback ..).trans alloc
    | false =>
      refine (entryParts.asserted ..).trans ?_
      rw [← alloc]
      split <;> rfl

theorem entryReceived (p c rx now now') : entryId (receiveAmpdu p c rx now now').entry = entryId c.entry :=
  (entryParts.received entryQueued ..).trans (entryParts.arrived p c rx now)

theorem getBit (tid) {t} (small : t < numOfTid) : (bit tid).getLsbD t = decide (t = tid) := by
  change (BitVec.twoPow 16 tid).getLsbD t = decide (t = tid)
  have wide : t < 16 := lt_trans small (by decide)
  rw [BitVec.getLsbD_twoPow]
  by_cases same : t = tid
  · simp [same ▸ wide,same]
  · simp [same,Ne.symm same]

def Marked (bits : Nat → BitVec 16) (on : Nat × Nat → Prop) : Prop :=
  ∀ w t, t < numOfTid → ((bits w).getLsbD t = true ↔ on (w,t))

section
variable {bits : Nat → BitVec 16} {on on' : Nat × Nat → Prop} {w t : Nat}

theorem Marked.write (h : Marked bits on) {word}
    (own : ∀ t', t' < numOfTid → (word.getLsbD t' = true ↔ if t' = t then on' (w,t) else (bits w).getLsbD t' = true))
    (rest : ∀ k, k ≠ (w,t) → (on' k ↔ on k)) : Marked (update bits w word) on' := by
  intro w' t' small
  have old := h w' t' small
  by_cases station : w' = w
  · subst station
    rw [update_self,own t' small]
    by_cases tid : t' = t
    · simp [tid]
    · rw [if_neg tid,old,rest (w',t') fun eq => tid (Prod.mk.inj eq).2]
  · rw [update_of_ne station,old,rest (w',t') fun eq => station (Prod.mk.inj eq).1]

theorem Marked.set (h : Marked bits on) (is : on' (w,t)) (rest : ∀ k, k ≠ (w,t) → (on' k ↔ on k)) :
    Marked (update bits w (bits w ||| bit t)) on' := by
  refine h.write (fun t' small => ?_) rest
  rw [BitVec.getLsbD_or,getBit t small]
  by_cases tid : t' = t <;> simp [tid,is]

theorem Marked.clear (h : Marked bits on) (off : ¬ on' (w,t)) (rest : ∀ k, k ≠ (w,t) → (on' k ↔ on k)) :
    Marked (update bits w (bits w &&& ~~~ bit t)) on' := by
  refine h.write (fun t' small => ?_) rest
  have wide : t' < 16 := lt_trans small (by decide)
  rw [BitVec.getLsbD_and,BitVec.getLsbD_not,getBit t small]
  by_cases tid : t' = t <;> simp [tid,off,wide]

theorem Marked.congr (h : Marked bits on) (same : ∀ k, on' k ↔ on k) : Marked bits on' := by
  intro w t small
  rw [h w t small,same]

end

def ownerOf {σ : Type} [DecidableEq σ] (free : σ) (id : σ × Nat × Nat) : Option (Nat × Nat) :=
  if id.1 = free then none else some id.2

theorem ownerIsSome {σ : Type} [DecidableEq σ] (free) (id : σ × Nat × Nat) :
    (ownerOf free id).isSome = decide (id.1 ≠ free) := by
  unfold ownerOf
  split <;> simp_all

@[ext] structure RecView where
  ids : Nat → RecStatus × Nat × Nat
  slot : Nat × Nat → Nat
  bits : Nat → BitVec 16
  count : Int

def recView (ad : Adapter) : RecView where
  ids := fun i => entryId (ad.recs i)
  slot := fun k => (ad.stations k.1).baRecWcidArray k.2
  bits := fun w => (ad.stations w).rxBaBitmap
  count := ad.numAsRecipient

def RecView.opened (v : RecView) (w t i : Nat) : RecView where
  ids := Function.update v.ids i (.accept,w,t)
  slot := Function.update v.slot (w,t) i
  bits := Function.update v.bits w (v.bits w ||| bit t)
  count := v.count + 1

def RecView.renewed (v : RecView) (w t : Nat) : RecView where
  ids := Function.update v.ids (v.slot (w,t)) (.accept,w,t)
  slot := Function.update v.slot (w,t) (v.slot (w,t))
  bits := Function.update v.bits w (v.bits w ||| bit t)
  count := v.count

def RecView.closed (v : RecView) (w t : Nat) : RecView where
  ids := Function.update v.ids (v.slot (w,t)) (.none,w,t)
  slot := Function.update v.slot (w,t) 0
  bits := Function.update v.bits w (v.bits w &&& ~~~ bit t)
  count := v.count - 1

structure RecGood (n : Nat) (v : RecView) : Prop where
  book : Book n (fun i => ownerOf .none (v.ids i)) v.slot v.count
  accepted : ∀ i, (v.ids i).1 ≠ .none → (v.ids i).1 = .accept
  bits : Marked v.bits fun k => v.slot k ≠ 0

section
variable {n w t i : Nat} {v : RecView}

theorem RecGood.entry (h : RecGood n v) (held : v.slot (w,t) ≠ 0) :
    v.slot (w,t) < n ∧ v.ids (v.slot (w,t)) = (.accept,w,t) := by
  obtain ⟨high,owned⟩ := h.book.bound held
  by_cases free : (v.ids (v.slot (w,t))).1 = .none
  · simp [ownerOf,free] at owned
  · have pair : (v.ids (v.slot (w,t))).2 = (w,t) := by simpa [ownerOf,free] using owned
    exact ⟨high,Prod.ext (h.accepted _ free) pair⟩

theorem ownerUpdate {σ : Type} [DecidableEq σ] (free : σ) (ids) (i : Nat) (id : σ × Nat × Nat) :
    (fun j => ownerOf free (update ids i id j)) = update (fun j => ownerOf free (ids j)) i (ownerOf free id) :=
  comp_update (ownerOf free) ids i id

theorem RecGood.opened (h : RecGood n v) (none : v.slot (w,t) = 0) (low : 1 ≤ i) (high : i < n)
    (free : (v.ids i).1 = .none) : RecGood n (v.opened w t i) := by
  refine ⟨?_,?_,?_⟩
  · have book := h.book.assign none low high (by simp [ownerOf,free])
    simp only [RecView.opened,ownerUpdate]
    exact book
  · intro j used
    by_cases same : j = i
    · simp [RecView.opened,same]
    · simp only [RecView.opened,update_of_ne same] at used ⊢
      exact h.accepted j used
  · refine h.bits.set ?_ ?_
    · have entered : i ≠ 0 := by omega
      simpa [RecView.opened] using entered
    · intro k other
      simp [RecView.opened,other]

theorem RecGood.renewed (h : RecGood n v) (held : v.slot (w,t) ≠ 0) : RecGood n (v.renewed w t) := by
  have same : update v.ids (v.slot (w,t)) (.accept,w,t) = v.ids := by
    rw [← (h.entry held).2,update_eq_self]
  simp only [RecView.renewed,same,update_eq_self]
  exact ⟨h.book,h.accepted,h.bits.set held fun _ _ => Iff.rfl⟩

theorem RecGood.closed (h : RecGood n v) (held : v.slot (w,t) ≠ 0) : RecGood n (v.closed w t) := by
  refine ⟨?_,?_,?_⟩
  · have book := h.book.release held
    simp only [RecView.closed,ownerUpdate]
    exact book
  · intro j used
    by_cases same : j = v.slot (w,t)
    · simp [RecView.closed,same] at used
    · simp only [RecView.closed,update_of_ne same] at used ⊢
      exact h.accepted j used
  · refine h.bits.clear ?_ ?_
    · simp [RecView.closed]
    · intro k other
      simp [RecView.closed,other]

end

@[ext] structure OriView where
  ids : Nat → OriStatus × Nat × Nat
  armed : Nat → Bool
  slot : Nat × Nat → Nat
  bits : Nat → BitVec 16
  count : Int
  done : Int

def oriView (ad : Adapter) : OriView where
  ids := fun i => ((ad.oris i).status,(ad.oris i).wcid,(ad.oris i).tid)
  armed := fun i => (ad.oris i).armed
  slot := fun k => (ad.stations k.1).baOriWcidArray k.2
  bits := fun w => (ad.stations w).txBaBitmap
  count := ad.numAsOriginator
  done := ad.numDoneOriginator

def OriView.waiting (v : OriView) (w t i : Nat) : OriView :=
  {v with
    ids := Function.update v.ids i (.waitRes,w,t)
    armed := Function.update v.armed i true
    slot := Function.update v.slot (w,t) i
    count := v.count + 1}

def OriView.answered (v : OriView) (w t : Nat) : OriView :=
  {v with
    ids := Function.update v.ids (v.slot (w,t)) (.done,w,t)
    armed := Function.update v.armed (v.slot (w,t)) false
    bits := Function.update v.bits w (v.bits w ||| bit t)
    done := v.done + 1}

def OriView.closed (v : OriView) (w t : Nat) : OriView where
  ids := Function.update v.ids (v.slot (w,t)) (.none,w,t)
  armed := Function.update v.armed (v.slot (w,t)) false
  slot := Function.update v.slot (w,t) 0
  bits := Function.update v.bits w (if (v.ids (v.slot (w,t))).1 = .done then v.bits w &&& ~~~ bit t else v.bits w)
  count := v.count - 1
  done := if (v.ids (v.slot (w,t))).1 = .done then v.done - 1 else v.done

def OriView.timed (v : OriView) (i : Nat) (on : Bool) : OriView :=
  {v with armed := Function.update v.armed i on}

structure OriGood (n : Nat) (v : OriView) : Prop where
  book : Book n (fun i => ownerOf .none (v.ids i)) v.slot v.count
  settled : ∀ i, (v.ids i).1 ≠ .used
  done : v.done = tally n fun i => decide ((v.ids i).1 = .done)
  bits : Marked v.bits fun k => v.slot k ≠ 0 ∧ (v.ids (v.slot k)).1 = .done
  timers : ∀ i, v.armed i = true → i ≠ 0 ∧ (v.ids i).1 = .waitRes

section
variable {n w t i : Nat} {v : OriView}

theorem OriGood.entry (h : OriGood n v) (held : v.slot (w,t) ≠ 0) :
    v.slot (w,t) < n ∧ (v.ids (v.slot (w,t))).2 = (w,t) ∧ (v.ids (v.slot (w,t))).1 ≠ .none := by
  obtain ⟨high,owned⟩ := h.book.bound held
  by_cases free : (v.ids (v.slot (w,t))).1 = .none
  · simp [ownerOf,free] at owned
  · exact ⟨high,by simpa [ownerOf,free] using owned,free⟩

theorem OriGood.waiting (h : OriGood n v) (none : v.slot (w,t) = 0) (low : 1 ≤ i) (high : i < n)
    (free : (v.ids i).1 = .none) : OriGood n (v.waiting w t i) := by
  have unowned : ownerOf .none (v.ids i) = Option.none := by simp [ownerOf,free]
  refine ⟨?_,?_,?_,?_,?_⟩
  · have book := h.book.assign none low high unowned
    simp only [OriView.waiting,ownerUpdate]
    exact book
  · intro j
    by_cases same : j = i
    · simp [OriView.waiting,same]
    · simpa [OriView.waiting,same] using h.settled j
  · refine h.done.trans ?_
    refine congrArg Nat.cast (tallyCongr fun j _ _ => ?_)
    by_cases same : j = i
    · simp [OriView.waiting,same,free]
    · simp [OriView.waiting,same]
  · refine h.bits.congr fun k => ?_
    by_cases key : k = (w,t)
    · simp [OriView.waiting,key,none]
    · simp [OriView.waiting,key,h.book.apart low unowned k]
  · intro j on
    by_cases same : j = i
    · have entered : i ≠ 0 := by omega
      simp [OriView.waiting,same,entered]
    · simp only [OriView.waiting,update_of_ne same] at on ⊢
      exact h.timers j on

theorem OriGood.answered (h : OriGood n v) (held : v.slot (w,t) ≠ 0)
    (waits : (v.ids (v.slot (w,t))).1 = .waitRes) : OriGood n (v.answered w t) := by
  obtain ⟨high,pair,_⟩ := h.entry held
  have owner : update (fun j => ownerOf .none (v.ids j)) (v.slot (w,t)) (some (w,t)) =
      fun j => ownerOf .none (v.ids j) := by
    refine Function.update_eq_self_iff.mpr ?_
    simp [ownerOf,waits,pair]
  refine ⟨?_,?_,?_,?_,?_⟩
  · simp only [OriView.answered,ownerUpdate]
    change Book n (update _ _ (some (w,t))) v.slot v.count
    rw [owner]
    exact h.book
  · intro j
    by_cases same : j = v.slot (w,t)
    · simp [OriView.answered,same]
    · simpa [OriView.answered,same] using h.settled j
  · have enter : tally n (fun j => decide (((v.answered w t).ids j).1 = .done)) =
        tally n (fun j => decide ((v.ids j).1 = .done)) + 1 := by
      refine tallyEnter (by omega) high (by simp [waits]) (by simp [OriView.answered]) ?_
      intro j other
      simp [OriView.answered,other]
    change v.done + 1 = _
    rw [enter,h.done]
    rfl
  · refine h.bits.set ?_ ?_
    · simp [OriView.answered,held]
    · intro k other
      simp [OriView.answered,h.book.alone held other]
  · intro j on
    by_cases same : j = v.slot (w,t)
    · simp [OriView.answered,same] at on
    · simp only [OriView.answered,update_of_ne same] at on ⊢
      exact h.timers j on

theorem OriGood.closed (h : OriGood n v) (held : v.slot (w,t) ≠ 0) : OriGood n (v.closed w t) := by
  have high := (h.entry held).1
  have rest : ∀ k, k ≠ (w,t) → ((v.closed w t).slot k ≠ 0 ∧ ((v.closed w t).ids ((v.closed w t).slot k)).1 = .done ↔
      v.slot k ≠ 0 ∧ (v.ids (v.slot k)).1 = .done) := by
    intro k other
    simp [OriView.closed,other,h.book.alone held other]
  refine ⟨?_,?_,?_,?_,?_⟩
  · have book := h.book.release held
    simp only [OriView.closed,ownerUpdate]
    exact book
  · intro j
    by_cases same : j = v.slot (w,t)
    · simp [OriView.closed,same]
    · simpa [OriView.closed,same] using h.settled j
  · by_cases was : (v.ids (v.slot (w,t))).1 = .done
    · have leave : tally n (fun j => decide ((v.ids j).1 = .done)) =
          tally n (fun j => decide (((v.closed w t).ids j).1 = .done)) + 1 := by
        refine tallyEnter (by omega) high (by simp [OriView.closed]) (by simp [was]) ?_
        intro j other
        simp [OriView.closed,other]
      have count : (v.closed w t).done = v.done - 1 := if_pos was
      rw [count,h.done,leave]
      omega
    · have count : (v.closed w t).done = v.done := if_neg was
      rw [count,h.done]
      refine congrArg Nat.cast (tallyCongr fun j _ _ => ?_)
      by_cases same : j = v.slot (w,t)
      · simp [OriView.closed,same,was]
      · simp [OriView.closed,same]
  · by_cases was : (v.ids (v.slot (w,t))).1 = .done
    · have bits : (v.closed w t).bits = update v.bits w (v.bits w &&& ~~~ bit t) := by
        simp [OriView.closed,was]
      rw [bits]
      exact h.bits.clear (by simp [OriView.closed]) rest
    · have bits : (v.closed w t).bits = v.bits := by simp [OriView.closed,was]
      rw [bits]
      refine h.bits.congr fun k => ?_
      by_cases key : k = (w,t)
      · simp [OriView.closed,key,was]
      · exact rest k key
  · intro j on
    by_cases same : j = v.slot (w,t)
    · simp [OriView.closed,same] at on
    · simp only [OriView.closed,update_of_ne same] at on ⊢
      exact h.timers j on

theorem OriGood.timed (h : OriGood n v) {on} (waits : on = true → i ≠ 0 ∧ (v.ids i).1 = .waitRes) :
    OriGood n (v.timed i on) := by
  refine ⟨h.book,h.settled,h.done,h.bits,?_⟩
  intro j set
  by_cases same : j = i
  · subst same
    exact waits (by simpa [OriView.timed] using set)
  · simp only [OriView.timed,update_of_ne same] at set
    exact h.timers j set

end

structure Good (cfg : Config) (ad : Adapter) : Prop where
  named : ∀ w, (ad.stations w).wcid = w
  recipients : RecGood cfg.recTableLen (recView ad)
  originators : OriGood cfg.oriTableLen (oriView ad)

section
variable {cfg : Config} {ad : Adapter} {w : Nat}

theorem recViewOnRec (ad i f) : recView (ad.onRec i f) =
    {recView ad with ids := update (recView ad).ids i (entryId (f (ad.ctx i)).entry)} := by
  simp only [recView,Adapter.onRec]
  congr 1
  exact comp_update entryId ad.recs i _

theorem recViewStation {f t i}
    (slots : (f (ad.stations w)).baRecWcidArray = update (ad.stations w).baRecWcidArray t i) :
    recView (ad.onStation w f) = {recView ad with
      slot := update (recView ad).slot (w,t) i
      bits := update (recView ad).bits w (f (ad.stations w)).rxBaBitmap} := by
  simp only [recView,Adapter.onStation]
  congr 1
  · exact slotUpdate ad.stations Station.baRecWcidArray slots
  · exact comp_update Station.rxBaBitmap ad.stations w _

structure OriFrame (ad ad' : Adapter) : Prop where
  named : ∀ v, (ad'.stations v).wcid = (ad.stations v).wcid
  view : oriView ad' = oriView ad

structure RecFrame (ad ad' : Adapter) : Prop where
  named : ∀ v, (ad'.stations v).wcid = (ad.stations v).wcid
  view : recView ad' = recView ad

theorem OriFrame.station {ad' st} (stations : ad'.stations = update ad.stations w st)
    (named : st.wcid = (ad.stations w).wcid) (slots : st.baOriWcidArray = (ad.stations w).baOriWcidArray)
    (bits : st.txBaBitmap = (ad.stations w).txBaBitmap) (oris : ad'.oris = ad.oris)
    (count : ad'.numAsOriginator = ad.numAsOriginator) (done : ad'.numDoneOriginator = ad.numDoneOriginator) :
    OriFrame ad ad' := by
  refine ⟨fun v => by rw [stations,updateKept Station.wcid named],OriView.ext ?_ ?_ ?_ ?_ count done⟩ <;>
    simp only [oriView,oris,stations]
  · exact slotSame ad.stations Station.baOriWcidArray slots
  · exact funext fun v => updateKept Station.txBaBitmap bits v

theorem RecFrame.station {ad' st} (stations : ad'.stations = update ad.stations w st)
    (named : st.wcid = (ad.stations w).wcid) (slots : st.baRecWcidArray = (ad.stations w).baRecWcidArray)
    (bits : st.rxBaBitmap = (ad.stations w).rxBaBitmap) (recs : ad'.recs = ad.recs)
    (count : ad'.numAsRecipient = ad.numAsRecipient) : RecFrame ad ad' := by
  refine ⟨fun v => by rw [stations,updateKept Station.wcid named],RecView.ext ?_ ?_ ?_ count⟩ <;>
    simp only [recView,recs,stations]
  · exact slotSame ad.stations Station.baRecWcidArray slots
  · exact funext fun v => updateKept Station.rxBaBitmap bits v

theorem Good.ofRec {ad'} (h : Good cfg ad) (frame : OriFrame ad ad')
    (view : RecGood cfg.recTableLen (recView ad')) : Good cfg ad' :=
  ⟨fun v => (frame.named v).trans (h.named v),view,by rw [frame.view]; exact h.originators⟩

theorem Good.ofOri {ad'} (h : Good cfg ad) (frame : RecFrame ad ad')
    (view : OriGood cfg.oriTableLen (oriView ad')) : Good cfg ad' :=
  ⟨fun v => (frame.named v).trans (h.named v),by rw [frame.view]; exact h.recipients,view⟩

theorem Good.onRec (h : Good cfg ad) (i) {f}
    (same : entryId (f (ad.ctx i)).entry = entryId (ad.recs i)) : Good cfg (ad.onRec i f) := by
  have view : recView (ad.onRec i f) = recView ad := by
    have kept : update (recView ad).ids i (entryId (f (ad.ctx i)).entry) = (recView ad).ids := by
      rw [same]
      exact update_eq_self i (recView ad).ids
    rw [recViewOnRec,kept]
  exact ⟨h.named,by rw [view]; exact h.recipients,h.originators⟩

theorem recFilledView (named : (ad.stations w).wcid = w) (e idx req) : recView (recFilled cfg ad w e idx req) =
      ⟨update (recView ad).ids e (.accept,w,req.tid),update (recView ad).slot (w,req.tid) idx,
        update (recView ad).bits w ((recView ad).bits w ||| bit req.tid),(recView ad).count⟩ := by
  have ids := congrArg RecView.ids (recViewOnRec ad e fun c => fillSession c (ad.stations w).wcid cfg.rxBaWinLimit req)
  have id : entryId (fillSession (ad.ctx e) (ad.stations w).wcid cfg.rxBaWinLimit req).entry =
    (.accept,w,req.tid) := Prod.ext rfl (Prod.ext named rfl)
  unfold recFilled
  rw [recViewStation (t := req.tid) (i := idx) rfl]
  refine RecView.ext ?_ rfl rfl rfl
  exact ids.trans (congrArg (update (recView ad).ids e) id)

theorem recFilledFrame (cfg ad w e idx req) : OriFrame ad (recFilled cfg ad w e idx req) :=
  .station rfl rfl rfl rfl rfl rfl rfl

theorem scanFree {σ : Type} [DecidableEq σ] {free n} {ids : Nat → σ × Nat × Nat} {slot count}
    (book : Book n (fun i => ownerOf free (ids i)) slot count) (room : count < (n : Int) - 1) :
    ∃ i, (indices n).find? (fun i => (ids i).1 == free) = some i ∧ 1 ≤ i ∧ i < n ∧ (ids i).1 = free := by
  have counted := book.counted
  obtain ⟨i,found,low,high,vacant⟩ := tallyFree (n := n) (p := fun i => (ownerOf free (ids i)).isSome) (by omega)
  have same : (fun i => !(ownerOf free (ids i)).isSome) = fun i => (ids i).1 == free := by
    funext i
    by_cases vacant : (ids i).1 = free <;> simp [ownerIsSome,vacant]
  exact ⟨i,same ▸ found,low,high,by simpa [ownerIsSome] using vacant⟩

theorem Good.recScan (h : Good cfg ad) (room : ad.numAsRecipient < (cfg.recTableLen : Int) - 1) :
    ∃ i, recScan cfg ad = some i ∧ 1 ≤ i ∧ i < cfg.recTableLen ∧ (ad.recs i).status = .none :=
  scanFree h.recipients.book room

theorem Good.touch (h : Good cfg ad) (tid) : Good cfg (ad.touch tid) :=
  ⟨h.named,h.recipients,h.originators⟩

theorem Good.send (h : Good cfg ad) (frames) : Good cfg (ad.send frames) :=
  ⟨h.named,h.recipients,h.originators⟩

theorem Good.recAdd (h : Good cfg ad) (w req) : Good cfg (baRecSessionAdd cfg ad w req).2 := by
  rcases recAddCases cfg ad w req with ⟨held,eq⟩ | ⟨_,_,eq⟩ | ⟨none,room,i,found,eq⟩ | ⟨_,room,missing,_⟩
  · have flushed : Good cfg ((ad.touch req.tid).onRec ((ad.stations w).baRecWcidArray req.tid)
      baRefreshReorderingMpdus) := (h.touch req.tid).onRec _ (entryParts.refresh _)
    rw [eq]
    refine flushed.ofRec (recFilledFrame ..) ?_
    rw [recFilledView (flushed.named w)]
    exact flushed.recipients.renewed held
  · rw [eq]
    exact h.touch req.tid
  · obtain ⟨j,first,low,high,free⟩ := h.recScan room
    have same : i = j := Option.some.inj (found.symm.trans first)
    subst same
    have ids : (recView (recTaken (ad.touch req.tid) i)).ids =
        update (recView ad).ids i (entryId {ad.recs i with status := .used}) :=
      comp_update entryId ad.recs i _
    have frame := recFilledFrame cfg (recTaken (ad.touch req.tid) i) w i i req
    have named : ((recTaken (ad.touch req.tid) i).stations w).wcid = w := h.named w
    rw [eq]
    refine h.ofRec ⟨frame.named,frame.view⟩ ?_
    rw [recFilledView named,ids,update_idem]
    exact h.recipients.opened none low high free
  · obtain ⟨j,found,_⟩ := h.recScan room
    rw [found] at missing
    cases missing

theorem recFreedView (ad idx) : recView (recFreed ad idx) =
    ⟨update (recView ad).ids idx (.none,((recView ad).ids idx).2),
      update (recView ad).slot ((recView ad).ids idx).2 0,(recView ad).bits,(recView ad).count - 1⟩ := by
  refine RecView.ext (comp_update entryId ad.recs idx _) ?_ ?_ rfl
  · exact slotUpdate ad.stations Station.baRecWcidArray rfl
  · exact (comp_update Station.rxBaBitmap ad.stations _ _).trans (update_eq_self _ _)

theorem recReleasedView (ad w tid idx bPassive) : recView (recReleased ad w tid idx bPassive) = {recView ad with
        slot := update (recView ad).slot (w,tid) 0
        bits := update (recView ad).bits w ((recView ad).bits w &&& ~~~ bit ((recView ad).ids idx).2.2)} := by
  have quit : ∀ c : Ctx, entryId (recQuit c).entry = entryId c.entry := fun c => entryParts.refresh c
  have kept : update (recView ad).ids idx (entryId (recQuit (ad.ctx idx)).entry) = (recView ad).ids := by
    rw [quit]
    exact update_eq_self idx (recView ad).ids
  have ids : (recView (ad.onRec idx recQuit)).ids = (recView ad).ids :=
    (congrArg RecView.ids (recViewOnRec ad idx recQuit)).trans kept
  have tid' : ((ad.onRec idx recQuit).recs idx).tid = ((recView ad).ids idx).2.2 :=
    congrArg (fun f => (f idx).2.2) ids
  unfold recReleased
  rw [recViewStation (t := tid) (i := 0) rfl]
  refine RecView.ext ids rfl ?_ rfl
  exact congrArg (fun t => update (recView ad).bits w ((recView ad).bits w &&& ~~~ bit t)) tid'

theorem recReleasedFrame (ad w tid idx bPassive) : OriFrame ad (recReleased ad w tid idx bPassive) :=
  .station rfl rfl rfl rfl rfl rfl rfl

theorem recFreedFrame (ad idx) : OriFrame ad (recFreed ad idx) := .station rfl rfl rfl rfl rfl rfl rfl

theorem Good.recTearDown (h : Good cfg ad) (w tid bPassive) :
    Good cfg (baRecSessionTearDown cfg ad w tid bPassive) := by
  unfold baRecSessionTearDown recTearAt
  split
  · exact h
  · split
    · exact h.touch tid
    · rename_i held
      obtain ⟨high,id⟩ := h.recipients.entry (w := w) (t := tid) held
      have status : (ad.recs ((ad.stations w).baRecWcidArray tid)).status = .accept := congrArg Prod.fst id
      have number : (ad.recs ((ad.stations w).baRecWcidArray tid)).tid = tid := congrArg (·.2.2) id
      have released := recReleasedView (ad.touch tid) w tid ((ad.stations w).baRecWcidArray tid) bPassive
      have used : ((recReleased (ad.touch tid) w tid ((ad.stations w).baRecWcidArray tid) bPassive).recs
          ((ad.stations w).baRecWcidArray tid)).status ≠ .none := by
        have same := congrArg (fun v => (v.ids ((ad.stations w).baRecWcidArray tid)).1) released
        intro none
        exact absurd (status.symm.trans (same.symm.trans none)) (by decide)
      have inside : ¬((ad.stations w).baRecWcidArray tid = 0 ∨
        cfg.recTableLen ≤ (ad.stations w).baRecWcidArray tid) := not_or.mpr ⟨held,not_le.mpr high⟩
      have view : recView (recFreed (recReleased (ad.touch tid) w tid ((ad.stations w).baRecWcidArray tid) bPassive)
          ((ad.stations w).baRecWcidArray tid)) = (recView ad).closed w tid := by
        have pair : ((recView (ad.touch tid)).ids ((ad.stations w).baRecWcidArray tid)).2 = (w,tid) :=
          congrArg Prod.snd id
        rw [recFreedView,released]
        simp only [pair,update_idem]
        rfl
      rw [if_pos ⟨number.symm,status⟩]
      unfold baTableFreeRecEntry
      rw [if_neg inside,if_neg used]
      have frame := recReleasedFrame (ad.touch tid) w tid ((ad.stations w).baRecWcidArray tid) bPassive
      have freed := recFreedFrame (recReleased (ad.touch tid) w tid ((ad.stations w).baRecWcidArray tid) bPassive)
        ((ad.stations w).baRecWcidArray tid)
      refine h.ofRec ⟨fun v => (freed.named v).trans (frame.named v),freed.view.trans frame.view⟩ ?_
      rw [view]
      exact h.recipients.closed held

def oriId (e : OriEntry) : OriStatus × Nat × Nat := (e.status,e.wcid,e.tid)

theorem oriViewOnOri (ad i f) : oriView (ad.onOri i f) = {oriView ad with
      ids := update (oriView ad).ids i (oriId (f (ad.oris i)))
      armed := update (oriView ad).armed i (f (ad.oris i)).armed} := by
  refine OriView.ext ?_ ?_ rfl rfl rfl rfl
  · exact comp_update oriId ad.oris i _
  · exact comp_update OriEntry.armed ad.oris i _

theorem Good.timed (h : Good cfg ad) {i f} (same : oriId (f (ad.oris i)) = oriId (ad.oris i))
    (waits : (f (ad.oris i)).armed = true → i ≠ 0 ∧ (ad.oris i).status = .waitRes) : Good cfg (ad.onOri i f) := by
  refine h.ofOri ⟨fun _ => rfl,rfl⟩ ?_
  have kept : update (oriView ad).ids i (oriId (f (ad.oris i))) = (oriView ad).ids := by
    rw [same]
    exact update_eq_self i (oriView ad).ids
  rw [oriViewOnOri,kept]
  exact h.originators.timed waits

theorem Good.disarmed (h : Good cfg ad) (i) : Good cfg (oriDisarmed ad i) :=
  h.timed rfl fun on => absurd on Bool.false_ne_true

theorem oriFreedView (ad idx) (off : (ad.oris idx).armed = false)
    (index : (oriView ad).slot ((oriView ad).ids idx).2 = idx) :
    oriView (oriFreed ad idx) = (oriView ad).closed (ad.oris idx).wcid (ad.oris idx).tid := by
  have here : (oriView ad).slot ((ad.oris idx).wcid,(ad.oris idx).tid) = idx := index
  unfold OriView.closed
  rw [here]
  refine OriView.ext ?_ ?_ ?_ ?_ rfl rfl
  · exact comp_update oriId ad.oris idx _
  · refine (comp_update OriEntry.armed ad.oris idx _).trans ?_
    exact congrArg (update (oriView ad).armed idx) off
  · exact slotUpdate ad.stations Station.baOriWcidArray rfl
  · exact comp_update Station.txBaBitmap ad.stations _ _

theorem oriFreedFrame (ad idx) : RecFrame ad (oriFreed ad idx) := .station rfl rfl rfl rfl rfl rfl

theorem Good.slotOf (h : Good cfg ad) {idx} (pos : idx ≠ 0) (high : idx < cfg.oriTableLen)
    (used : (ad.oris idx).status ≠ .none) :
    (ad.stations (ad.oris idx).wcid).baOriWcidArray (ad.oris idx).tid = idx := by
  refine (h.originators.book.link ((ad.oris idx).wcid,(ad.oris idx).tid) idx pos).mpr ⟨high,?_⟩
  simp [ownerOf,oriView,used]

theorem Good.freeOri (h : Good cfg ad) {idx} (off : (ad.oris idx).armed = false) :
    Good cfg (baTableFreeOriEntry cfg ad idx) := by
  unfold baTableFreeOriEntry
  split
  · exact h
  · rename_i inside
    obtain ⟨pos,high⟩ := not_or.mp inside
    split
    · exact h
    · rename_i used
      have index := h.slotOf pos (not_le.mp high) used
      have held : (oriView ad).slot ((ad.oris idx).wcid,(ad.oris idx).tid) ≠ 0 :=
        fun zero => pos (index.symm.trans zero)
      refine h.ofOri (oriFreedFrame ad idx) ?_
      rw [oriFreedView ad idx off index]
      exact h.originators.closed held

theorem Good.oriTearDown (h : Good cfg ad) (w tid bPassive bForceSend) :
    Good cfg (baOriSessionTearDown cfg ad w tid bPassive bForceSend) := by
  unfold baOriSessionTearDown oriTearAt
  split
  · exact h
  · split
    · exact (h.touch tid).send _
    · refine Good.freeOri (((h.touch tid).send _).disarmed _) ?_
      simp [oriDisarmed,Adapter.onOri]

theorem Good.tearDownAll (h : Good cfg ad) (w) : Good cfg (baSessionTearDownAll cfg ad w) := by
  unfold baSessionTearDownAll
  generalize List.range numOfTid = tids
  induction tids generalizing ad with
  | nil => exact h
  | cons tid tids ih => exact ih ((h.oriTearDown w tid false false).recTearDown w tid false)

theorem Good.setupTimeout (h : Good cfg ad) {i} (high : i < cfg.oriTableLen) (armed : (ad.oris i).armed = true)
    (monitorOn scanning) : Good cfg (baOriSessionSetupTimeout cfg ad i monitorOn scanning) := by
  obtain ⟨pos,waits⟩ : i ≠ 0 ∧ (ad.oris i).status = .waitRes := h.originators.timers i armed
  have fired := h.disarmed i
  have entry : (oriDisarmed ad i).oris i = {ad.oris i with armed := false} := by simp [oriDisarmed,Adapter.onOri]
  have status : ((oriDisarmed ad i).oris i).status = .waitRes := by rw [entry]; exact waits
  unfold baOriSessionSetupTimeout oriFired
  split
  · exact fired
  · split
    · unfold oriRetry
      exact (fired.send _).timed rfl fun _ => ⟨pos,status⟩
    · have index := fired.slotOf pos high (by rw [status]; decide)
      rw [index]
      refine (fired.touch _).freeOri ?_
      change ((oriDisarmed ad i).oris i).armed = false
      rw [entry]

theorem Good.oriScan (h : Good cfg ad) (room : ad.numAsOriginator < (cfg.oriTableLen : Int) - 1) :
    ∃ i, oriScan cfg ad = some i ∧ 1 ≤ i ∧ i < cfg.oriTableLen ∧ (ad.oris i).status = .none :=
  scanFree h.originators.book room

theorem oriWaitingView (named : (ad.stations w).wcid = w) (tid i timeOut) :
    oriView (oriWaiting cfg (oriTaken ad i) w tid i i timeOut) = (oriView ad).waiting w tid i := by
  refine OriView.ext ?_ ?_ ?_ ?_ rfl rfl
  · have id : oriId {ad.oris i with status := .waitRes, wcid := (ad.stations w).wcid, tid := tid} =
      (.waitRes,w,tid) := Prod.ext rfl (Prod.ext named rfl)
    refine (comp_update oriId (update ad.oris i {ad.oris i with status := .used}) i _).trans ?_
    rw [comp_update,update_idem]
    exact congrArg (update (oriView ad).ids i) id
  · refine (comp_update OriEntry.armed
      (update ad.oris i {ad.oris i with status := .used}) i _).trans ?_
    rw [comp_update,update_idem]
    rfl
  · exact slotUpdate ad.stations Station.baOriWcidArray rfl
  · exact (comp_update Station.txBaBitmap ad.stations w _).trans (update_eq_self _ _)

theorem oriWaitingFrame (cfg ad w tid e idx timeOut) : RecFrame ad (oriWaiting cfg ad w tid e idx timeOut) :=
  .station rfl rfl rfl rfl rfl rfl

theorem Good.setUp (h : Good cfg ad) (w tid timeOut isForced) :
    Good cfg (baOriSessionSetUp cfg ad w tid timeOut isForced) := by
  unfold baOriSessionSetUp
  split
  · exact ⟨h.named,h.recipients,h.originators⟩
  · split
    · exact h
    · split
      · exact h
      · rcases oriSetUpCases cfg (ad.touch tid) w tid timeOut ((ad.stations w).baOriWcidArray tid) with
          ⟨held,eq⟩ | ⟨_,_,eq⟩ | ⟨none,room,i,found,eq⟩ | ⟨_,room,missing,_⟩
        · have used := (h.originators.entry (w := w) (t := tid) held).2.2
          have settled := h.originators.settled ((ad.stations w).baOriWcidArray tid)
          have running : ((ad.touch tid).oris ((ad.stations w).baOriWcidArray tid)).status = .waitRes ∨
              ((ad.touch tid).oris ((ad.stations w).baOriWcidArray tid)).status = .done := by
            change (ad.oris ((ad.stations w).baOriWcidArray tid)).status ≠ .none at used
            change (ad.oris ((ad.stations w).baOriWcidArray tid)).status ≠ .used at settled
            change (ad.oris ((ad.stations w).baOriWcidArray tid)).status = .waitRes ∨
              (ad.oris ((ad.stations w).baOriWcidArray tid)).status = .done
            cases status : (ad.oris ((ad.stations w).baOriWcidArray tid)).status <;> simp_all
          rw [eq,oriSetUpWith,if_pos running]
          exact h.touch tid
        · rw [eq]
          exact h.touch tid
        · obtain ⟨j,first,low,high,free⟩ := (h.touch tid).oriScan room
          have same : i = j := Option.some.inj (found.symm.trans first)
          subst same
          have fresh : ((oriTaken (ad.touch tid) i).oris i).status = .used := by simp [oriTaken]
          have frame := oriWaitingFrame cfg (oriTaken (ad.touch tid) i) w tid i i timeOut
          have named : ((ad.touch tid).stations w).wcid = w := h.named w
          rw [eq,oriSetUpWith,if_neg (by rw [fresh]; decide)]
          refine h.ofOri ⟨frame.named,frame.view⟩ ?_
          rw [oriWaitingView named]
          exact h.originators.waiting none low high free
        · obtain ⟨j,found,_⟩ := (h.touch tid).oriScan room
          rw [found] at missing
          cases missing

theorem oriDoneView (cfg frame) (named : oriId (ad.oris
    ((ad.stations w).baOriWcidArray frame.parm.tid)) = (.waitRes,w,frame.parm.tid)) :
    oriView (oriDone cfg ad w ((ad.stations w).baOriWcidArray frame.parm.tid) frame) =
      (oriView ad).answered w frame.parm.tid := by
  have pair : ((ad.oris ((ad.stations w).baOriWcidArray frame.parm.tid)).wcid,
    (ad.oris ((ad.stations w).baOriWcidArray frame.parm.tid)).tid) = (w,frame.parm.tid) := congrArg Prod.snd named
  refine OriView.ext ?_ ?_ ?_ ?_ rfl rfl
  · refine (comp_update oriId ad.oris _ _).trans ?_
    exact congrArg (update (oriView ad).ids _) (Prod.ext rfl pair)
  · exact comp_update OriEntry.armed ad.oris _ _
  · exact slotSame ad.stations Station.baOriWcidArray rfl
  · exact comp_update Station.txBaBitmap ad.stations w _

theorem Good.oriAdd (h : Good cfg ad) (w frame) : Good cfg (baOriSessionAdd cfg ad w frame) := by
  unfold baOriSessionAdd oriAddAt
  split
  · rename_i ready
    obtain ⟨held,_,waits⟩ := ready
    have pair := (h.originators.entry (w := w) (t := frame.parm.tid) held).2.1
    refine h.ofOri (.station rfl rfl rfl rfl rfl rfl) ?_
    have view := @oriDoneView (ad.touch frame.parm.tid) w cfg frame (Prod.ext waits pair)
    change OriGood _ (oriView (oriDone cfg (ad.touch frame.parm.tid) w
      (((ad.touch frame.parm.tid).stations w).baOriWcidArray frame.parm.tid) frame))
    rw [view]
    exact h.originators.answered held waits
  · exact h.touch _

theorem Good.declined (h : Good cfg ad) (w) (bitmap : Station → BitVec 16) :
    Good cfg (ad.onStation w fun st => {st with baDeclineBitmap := bitmap st}) := by
  have frame : RecFrame ad (ad.onStation w fun st => {st with baDeclineBitmap := bitmap st}) :=
    .station rfl rfl rfl rfl rfl rfl
  refine h.ofRec (.station rfl rfl rfl rfl rfl rfl rfl) ?_
  rw [frame.view]
  exact h.recipients

theorem Good.peerAddbaReq (h : Good cfg ad) (w msg) : Good cfg (peerAddbaReqAction cfg ad w msg) := by
  have added := h.recAdd w (addbaReqOf msg)
  unfold peerAddbaReqAction
  split
  · exact h
  · split
    · split
      · split <;> rename_i eq <;> rw [eq] at added
        · exact added.send _
        · exact added.send _
      · exact h.send _
    · exact h.send _

theorem Good.peerAddbaRsp (h : Good cfg ad) (w) (msg : Bytes) : Good cfg (peerAddbaRspAction cfg ad w msg) := by
  have answered : Good cfg (addbaAnswer cfg ad w (frameAddbaRsp msg)) := by
    unfold addbaAnswer
    split
    · exact h.oriAdd w _
    · exact h.oriTearDown w _ true false
  unfold peerAddbaRspAction
  split
  · exact h
  · split
    · exact answered.declined w _
    · exact h

theorem Good.peerDelba (h : Good cfg ad) (w msg) : Good cfg (peerDelbaAction cfg ad w msg) := by
  unfold peerDelbaAction
  split
  · split
    · exact h.recTearDown w _ true
    · exact h.oriTearDown w _ true false
  · exact h

end

/- TIDs in range, and a set-up timeout comes from a timer that is armed. -/
def Orderly (ad : Adapter) : AdapterOp → Prop
  | .ampdu rx _ _ => rx.tid < numOfTid
  | .legacy rx _ => rx.tid < numOfTid
  | .setUp _ tid _ _ => tid < numOfTid
  | .setupTimeout i _ _ => (ad.oris i).armed = true
  | .addbaReq _ msg => (frameAddbaReq msg).parm.tid < numOfTid
  | .addbaRsp _ msg => (frameAddbaRsp msg).parm.tid < numOfTid
  | .delba _ msg => (frameDelbaReq msg).tid < numOfTid
  | .oriTearDown _ tid _ _ => tid < numOfTid
  | .recTearDown _ tid _ => tid < numOfTid
  | .bar .. | .idle .. | .tearDownAll _ => True

instance (ad : Adapter) : ∀ op, Decidable (Orderly ad op)
  | .ampdu .. | .legacy .. | .setUp .. | .addbaReq .. | .addbaRsp .. | .delba .. | .oriTearDown ..
  | .recTearDown .. => inferInstanceAs (Decidable (_ < _))
  | .setupTimeout .. => inferInstanceAs (Decidable (_ = _))
  | .bar .. | .idle .. | .tearDownAll _ => isTrue trivial

theorem Good.step {cfg ad} (h : Good cfg ad) {op} (orderly : Orderly ad op) : Good cfg (adapterStep cfg ad op) := by
  cases op with
  | ampdu rx now now' =>
    simp only [adapterStep,indicateAmpduPacket]
    split
    · exact ⟨h.named,h.recipients,h.originators⟩
    · split
      · exact ⟨h.named,h.recipients,h.originators⟩
      · split
        · exact ⟨h.named,h.recipients,h.originators⟩
        · exact h.onRec _ (entryReceived ..)
  | legacy rx now =>
    simp only [adapterStep,indicateLegacy]
    split
    · exact ⟨h.named,h.recipients,h.originators⟩
    · exact h.onRec _ (entryParts.legacyPacket ..)
  | bar w tid startSeq =>
    simp only [adapterStep,cntlEnqueueForRecv]
    split
    · exact h.onRec _ (entryParts.bar ..)
    · exact h
  | idle i now =>
    simp only [adapterStep]
    split
    · exact h.onRec _ (entryParts.idle ..)
    · exact h
  | setUp w tid timeOut isForced => exact h.setUp w tid timeOut isForced
  | setupTimeout i monitorOn scanning =>
    simp only [adapterStep]
    split
    · rename_i high
      exact h.setupTimeout high orderly monitorOn scanning
    · exact h
  | addbaReq w msg => exact h.peerAddbaReq w msg
  | addbaRsp w msg => exact h.peerAddbaRsp w msg
  | delba w msg => exact h.peerDelba w msg
  | oriTearDown w tid bPassive bForceSend => exact h.oriTearDown w tid bPassive bForceSend
  | recTearDown w tid bPassive => exact h.recTearDown w tid bPassive
  | tearDownAll w => exact h.tearDownAll w

theorem Good.fresh {cfg num ad} (fresh : Fresh num ad) : Good cfg ad := by
  have recs : ∀ i, (ad.recs i).status = .none := fun i => by rw [fresh.recs i]; rfl
  have oris : ∀ i, (ad.oris i).status = .none := fun i => by rw [fresh.oris i]; rfl
  have off : ∀ i, (ad.oris i).armed = false := fun i => by rw [fresh.oris i]; rfl
  have unused : ∀ n, tally n (fun _ => false) = 0 := fun n => by simp [tally]
  have empty : ∀ {σ : Type} [DecidableEq σ] (n : Nat) (free : σ) (ids : Nat → σ × Nat × Nat) (slot : Nat × Nat → Nat),
      (∀ i, (ids i).1 = free) → (∀ k, slot k = 0) → Book n (fun i => ownerOf free (ids i)) slot 0 := by
    intro σ _ n free ids slot none zero
    refine ⟨?_,?_⟩
    · simp [ownerOf,none,unused]
    · intro k i pos
      simp [ownerOf,none,zero,Ne.symm pos]
  refine ⟨fun w => (fresh.stations w).1,⟨?_,?_,?_⟩,⟨?_,?_,?_,?_,?_⟩⟩
  · have count : (recView ad).count = 0 := fresh.counters.1
    rw [count]
    exact empty _ _ _ _ recs fun k => (fresh.stations k.1).2.1 k.2
  · exact fun i used => absurd (recs i) used
  · intro w t _
    simp [recView,(fresh.stations w).2.2.2.1,(fresh.stations w).2.1 t]
  · have count : (oriView ad).count = 0 := fresh.counters.2.1
    rw [count]
    exact empty _ _ _ _ oris fun k => (fresh.stations k.1).2.2.1 k.2
  · intro i used
    exact absurd ((oris i).symm.trans used) (by decide)
  · simp [oriView,oris,unused,fresh.counters.2.2]
  · intro w t _
    simp [oriView,(fresh.stations w).2.2.2.2,(fresh.stations w).2.2.1 t]
  · intro i on
    exact absurd ((off i).symm.trans on) (by decide)

structure Bookkept (cfg : Config) (ad : Adapter) : Prop where
  recipients : ad.numAsRecipient = tally cfg.recTableLen fun i => decide ((ad.recs i).status ≠ .none)
  originators : ad.numAsOriginator = tally cfg.oriTableLen fun i => decide ((ad.oris i).status ≠ .none)
  done : ad.numDoneOriginator = tally cfg.oriTableLen fun i => decide ((ad.oris i).status = .done)
  recIndex : ∀ w t i, i ≠ 0 → ((ad.stations w).baRecWcidArray t = i ↔
    i < cfg.recTableLen ∧ (ad.recs i).status ≠ .none ∧ (ad.recs i).wcid = w ∧ (ad.recs i).tid = t)
  oriIndex : ∀ w t i, i ≠ 0 → ((ad.stations w).baOriWcidArray t = i ↔
    i < cfg.oriTableLen ∧ (ad.oris i).status ≠ .none ∧ (ad.oris i).wcid = w ∧ (ad.oris i).tid = t)
  rxBits : ∀ w t, t < numOfTid → ((ad.stations w).rxBaBitmap.getLsbD t = true ↔
    (ad.stations w).baRecWcidArray t ≠ 0 ∧ (ad.recs ((ad.stations w).baRecWcidArray t)).status = .accept)
  txBits : ∀ w t, t < numOfTid → ((ad.stations w).txBaBitmap.getLsbD t = true ↔
    (ad.stations w).baOriWcidArray t ≠ 0 ∧ (ad.oris ((ad.stations w).baOriWcidArray t)).status = .done)
  allocRec : ∀ idx i idx' ad', baTableAllocRecEntry cfg ad idx = (some i,idx',ad') →
    idx' = i ∧ 1 ≤ i ∧ i < cfg.recTableLen ∧ (ad.recs i).status = .none
  allocOri : ∀ idx i idx' ad', baTableAllocOriEntry cfg ad idx = (some i,idx',ad') →
    idx' = i ∧ 1 ≤ i ∧ i < cfg.oriTableLen ∧ (ad.oris i).status = .none

theorem ownerSome {σ : Type} [DecidableEq σ] {free : σ} {id} {w t : Nat} :
    ownerOf free id = some (w,t) ↔ id.1 ≠ free ∧ id.2.1 = w ∧ id.2.2 = t := by
  unfold ownerOf
  split
  · rename_i none
    simp [none]
  · rename_i used
    simp [used,Prod.ext_iff]

theorem Good.bookkept {cfg : Config} {ad : Adapter} (h : Good cfg ad) : Bookkept cfg ad := by
  refine ⟨?_,?_,h.originators.done,?_,?_,?_,h.originators.bits,?_,?_⟩
  · refine h.recipients.book.counted.trans (congrArg Nat.cast (tallyCongr fun i _ _ => ownerIsSome ..))
  · refine h.originators.book.counted.trans (congrArg Nat.cast (tallyCongr fun i _ _ => ownerIsSome ..))
  · exact fun w t i pos => (h.recipients.book.link (w,t) i pos).trans (and_congr_right fun _ => ownerSome)
  · exact fun w t i pos => (h.originators.book.link (w,t) i pos).trans (and_congr_right fun _ => ownerSome)
  · intro w t small
    refine (h.recipients.bits w t small).trans ⟨fun held => ⟨held,?_⟩,And.left⟩
    exact congrArg Prod.fst (h.recipients.entry held).2
  · intro idx i idx' ad' eq
    unfold baTableAllocRecEntry at eq
    split at eq
    · cases eq
    · rename_i room
      obtain ⟨j,found,low,high,free⟩ := h.recScan (not_le.mp room)
      rw [found] at eq
      cases eq
      exact ⟨rfl,low,high,free⟩
  · intro idx i idx' ad' eq
    unfold baTableAllocOriEntry at eq
    split at eq
    · cases eq
    · rename_i room
      obtain ⟨j,found,low,high,free⟩ := h.oriScan (not_le.mp room)
      rw [found] at eq
      cases eq
      exact ⟨rfl,low,high,free⟩

theorem tableBookkeeping (cfg : Config) {num : Nat} {ad : Adapter} {ops : List AdapterOp} (fresh : Fresh num ad)
    (orderly : Meets (adapterStep cfg) Orderly ad ops) : Always (adapterStep cfg) (Bookkept cfg) ad ops :=
  alwaysMono (fun _ => Good.bookkept) (invariant (fun _ _ h ok => h.step ok) (Good.fresh fresh) orderly)

theorem tableBookkeepingTwoStations :
    Always (adapterStep sampleConfig) (Bookkept sampleConfig) (sampleAdapter 4)
      [.addbaReq 1 (actionFrame [3,0,1,2,2,0,0,0,0]),.setUp 2 5 0 true,.setUp 1 3 0 true,
        .setupTimeout 1 false false,.addbaRsp 2 (actionFrame [3,1,1,0,0,22,2,0,0]),
        .delba 1 (actionFrame [3,2,0,8,0,0]),.tearDownAll 2] :=
  tableBookkeeping sampleConfig (sampleFresh 4) (by decide +kernel)

end RtmpDriver.BaTable
