import RtmpDriver.BaSession

/-! The parts of the Block-Ack handlers. A relation between adapters that holds across each part holds across the
handlers of `ba_action.c`; `brought` holds of the TIDs that the operation brings in. -/
namespace RtmpDriver.BaParts
open SlotTable ReorderList ReorderEngine BaFrames BaSession List

def Entered (cfg : Config) (ad : Adapter) (i : Nat) : Prop :=
  i < cfg.recTableLen ∨ ∃ w t, i = (ad.stations w).baRecWcidArray t

structure Parts (cfg : Config) (brought : Nat → Prop) (R : Adapter → Adapter → Prop) : Prop where
  refl : ∀ ad, R ad ad
  trans : ∀ {a b c}, R a b → R b c → R a c
  touch : ∀ {ad t}, brought t ∨ (∃ i, (ad.recs i).tid = t) ∨ (∃ i, (ad.oris i).tid = t) → R ad (ad.touch t)
  plain : ∀ {ad ad'}, (∀ w t, Entered cfg ad ((ad'.stations w).baRecWcidArray t)) →
    (∀ i, (ad'.recs i).list = (ad.recs i).list ∧ (ad'.recs i).tid = (ad.recs i).tid) →
    (∀ i, brought (ad'.oris i).tid ∨ (ad'.oris i).tid = (ad.oris i).tid) →
    ad'.freelist = ad.freelist → ad'.touched = ad.touched → R ad ad'
  refreshed : ∀ {ad i}, Entered cfg ad i → R ad (ad.onRec i baRefreshReorderingMpdus)
  quit : ∀ {ad i}, Entered cfg ad i → R ad (ad.onRec i recQuit)
  fill : ∀ {ad i} wcid {req}, Entered cfg ad i → brought req.tid →
    R ad (ad.onRec i fun c => fillSession c wcid cfg.rxBaWinLimit req)

theorem updateKept {α β : Type} {stations : Nat → α} (g : α → β) {w st} (same : g st = g (stations w)) (v) :
    g (Function.update stations w st v) = g (stations v) := by
  by_cases eq : v = w
  · rw [eq,Function.update_self,same]
  · rw [Function.update_of_ne eq]

theorem recKept {ad ad' : Adapter} {i e} (recs : ad'.recs = Function.update ad.recs i e)
    (list : e.list = (ad.recs i).list) (tid : e.tid = (ad.recs i).tid) (j) :
    (ad'.recs j).list = (ad.recs j).list ∧ (ad'.recs j).tid = (ad.recs j).tid := by
  rw [recs]
  exact ⟨updateKept RecEntry.list list j,updateKept RecEntry.tid tid j⟩

section
variable {cfg : Config} {brought : Nat → Prop} {R : Adapter → Adapter → Prop} (parts : Parts cfg brought R)
include parts

theorem Parts.quiet {ad ad'} (arrays : ∀ w, (ad'.stations w).baRecWcidArray = (ad.stations w).baRecWcidArray)
    (recs : ad'.recs = ad.recs) (oris : ad'.oris = ad.oris) (free : ad'.freelist = ad.freelist)
    (touched : ad'.touched = ad.touched) : R ad ad' :=
  parts.plain (fun w t => .inr ⟨w,t,by rw [arrays]⟩) (fun i => by rw [recs]; exact ⟨rfl,rfl⟩)
    (fun i => .inr (by rw [oris])) free touched

theorem Parts.ori {ad ad' i e} (arrays : ∀ w, (ad'.stations w).baRecWcidArray = (ad.stations w).baRecWcidArray)
    (recs : ad'.recs = ad.recs) (oris : ad'.oris = Function.update ad.oris i e)
    (tid : brought e.tid ∨ e.tid = (ad.oris i).tid) (free : ad'.freelist = ad.freelist)
    (touched : ad'.touched = ad.touched) : R ad ad' := by
  refine parts.plain (fun w t => .inr ⟨w,t,by rw [arrays]⟩) (fun j => by rw [recs]; exact ⟨rfl,rfl⟩) (fun j => ?_) free
    touched
  rw [oris]
  by_cases here : j = i
  · simpa [here] using tid
  · simp [here]

theorem Parts.slot {ad ad' w st tid idx} (stations : ad'.stations = Function.update ad.stations w st)
    (array : st.baRecWcidArray = Function.update (ad.stations w).baRecWcidArray tid idx) (bound : Entered cfg ad idx)
    (recs : ∀ i, (ad'.recs i).list = (ad.recs i).list ∧ (ad'.recs i).tid = (ad.recs i).tid)
    (oris : ad'.oris = ad.oris) (free : ad'.freelist = ad.freelist)
    (touched : ad'.touched = ad.touched) : R ad ad' := by
  refine parts.plain (fun v t => ?_) recs (fun i => .inr (by rw [oris])) free touched
  rw [stations]
  by_cases station : v = w
  · rw [station,Function.update_self,array]
    by_cases here : t = tid
    · simpa [here] using bound
    · exact .inr ⟨w,t,by simp [here]⟩
  · exact .inr ⟨v,t,by simp [station]⟩

theorem Parts.filled (w) {ad e idx req} (entry : Entered cfg ad e) (bound : Entered cfg ad idx)
    (own : brought req.tid) :
    R ad (recFilled cfg ad w e idx req) := by
  refine parts.trans (parts.fill (ad.stations w).wcid entry own) (parts.trans (parts.touch (.inl own)) ?_)
  exact parts.slot rfl rfl bound (fun _ => ⟨rfl,rfl⟩) rfl rfl rfl

theorem Parts.freeRec (ad idx) : R ad (baTableFreeRecEntry cfg ad idx) := by
  unfold baTableFreeRecEntry
  split
  · exact parts.refl ad
  · split
    · exact parts.refl ad
    · refine parts.trans (parts.touch (.inr (.inl ⟨idx,rfl⟩))) ?_
      exact parts.slot rfl rfl (.inl cfg.recTablePos) (recKept rfl rfl rfl) rfl rfl rfl

theorem Parts.freeOri (ad idx) : R ad (baTableFreeOriEntry cfg ad idx) := by
  unfold baTableFreeOriEntry
  split
  · exact parts.refl ad
  · split
    · exact parts.refl ad
    · refine parts.trans (parts.touch (.inr (.inr ⟨idx,rfl⟩))) ?_
      exact parts.ori (updateKept Station.baRecWcidArray rfl) rfl rfl (.inr rfl) rfl rfl

theorem Parts.recTorn {tid} (own : brought tid) {w} (near : w < cfg.macTableLen) (ad bPassive) :
    R (ad.touch tid) (baRecSessionTearDown cfg ad w tid bPassive) := by
  have entered : Entered cfg (ad.touch tid) ((ad.stations w).baRecWcidArray tid) := .inr ⟨w,tid,rfl⟩
  rw [baRecSessionTearDown,if_neg (not_le.mpr near),recTearAt]
  split
  · exact parts.refl _
  · split
    · refine parts.trans ?_ (parts.freeRec ..)
      have sent (frames) : R (ad.touch tid) ((ad.touch tid).send frames) := parts.quiet (fun _ => rfl) rfl rfl rfl rfl
      refine parts.trans (sent (if bPassive then [] else [.delba w tid .recipient])) ?_
      refine parts.trans (parts.quit entered) (parts.trans (parts.touch (.inl own)) ?_)
      exact parts.slot rfl rfl (.inl cfg.recTablePos) (fun _ => ⟨rfl,rfl⟩) rfl rfl rfl
    · exact parts.freeRec ..

theorem Parts.oriTorn {tid w} (near : w < cfg.macTableLen) (ad bPassive bForceSend) :
    R (ad.touch tid) (baOriSessionTearDown cfg ad w tid bPassive bForceSend) := by
  rw [baOriSessionTearDown,if_neg (not_le.mpr near),oriTearAt]
  split
  · exact parts.quiet (fun _ => rfl) rfl rfl rfl rfl
  · refine parts.trans ?_ (parts.freeOri ..)
    exact parts.ori (fun _ => rfl) rfl rfl (.inr rfl) rfl rfl

theorem Parts.recTearDown {tid} (own : brought tid) (w ad bPassive) :
    R ad (baRecSessionTearDown cfg ad w tid bPassive) := by
  by_cases far : cfg.macTableLen ≤ w
  · rw [baRecSessionTearDown,if_pos far]
    exact parts.refl ad
  · exact parts.trans (parts.touch (.inl own)) (parts.recTorn own (not_le.mp far) ad bPassive)

theorem Parts.oriTearDown {tid} (own : brought tid) (w ad bPassive bForceSend) :
    R ad (baOriSessionTearDown cfg ad w tid bPassive bForceSend) := by
  by_cases far : cfg.macTableLen ≤ w
  · rw [baOriSessionTearDown,if_pos far]
    exact parts.refl ad
  · exact parts.trans (parts.touch (.inl own)) (parts.oriTorn (not_le.mp far) ad bPassive bForceSend)

theorem Parts.tearDownAll (own : ∀ tid ∈ range numOfTid, brought tid) (ad w) :
    R ad (baSessionTearDownAll cfg ad w) := by
  unfold baSessionTearDownAll
  generalize range numOfTid = tids at own
  induction tids generalizing ad with
  | nil => exact parts.refl ad
  | cons tid tids ih =>
    have here := own tid mem_cons_self
    refine parts.trans ?_ (ih _ fun t mem => own t (mem_cons_of_mem _ mem))
    exact parts.trans (parts.oriTearDown here ..) (parts.recTearDown here ..)

theorem Parts.recAdded (req) (own : brought req.tid) (ad w) :
    R (ad.touch req.tid) (baRecSessionAdd cfg ad w req).2 := by
  have entered : Entered cfg (ad.touch req.tid) ((ad.stations w).baRecWcidArray req.tid) := .inr ⟨w,_,rfl⟩
  have last : cfg.recTableLen - 1 < cfg.recTableLen := Nat.sub_lt cfg.recTablePos (by decide)
  rcases recAddCases cfg ad w req with ⟨_,eq⟩ | ⟨_,_,eq⟩ | ⟨_,_,i,found,eq⟩ | ⟨_,_,_,eq⟩ <;> rw [eq]
  · exact parts.trans (parts.refreshed entered) (parts.filled w entered entered own)
  · exact parts.refl _
  · have inside := (memIndices.mp (mem_of_find?_eq_some found)).2
    refine parts.trans ?_ (parts.filled w (.inl inside) (.inl inside) own)
    exact parts.plain (fun w t => .inr ⟨w,t,rfl⟩) (recKept rfl rfl rfl) (fun _ => .inr rfl) rfl rfl
  · exact parts.filled w (.inl last) (.inl cfg.recTablePos) own

theorem Parts.peerAddbaReq {msg} (own : brought (frameAddbaReq msg).parm.tid) (ad w) :
    R ad (peerAddbaReqAction cfg ad w msg) := by
  have added := parts.trans (parts.touch (.inl own)) (parts.recAdded (addbaReqOf msg) own ad w)
  have answer (ad status) : R ad (addbaResponse cfg ad w msg status) := parts.quiet (fun _ => rfl) rfl rfl rfl rfl
  unfold peerAddbaReqAction
  split
  · exact parts.refl ad
  · split
    · split
      · split <;> rename_i eq <;> rw [eq] at added <;> exact parts.trans added (answer ..)
      · exact answer ..
    · exact answer ..

theorem Parts.oriAdded {frame} (own : brought frame.parm.tid) (ad w) :
    R (ad.touch frame.parm.tid) (baOriSessionAdd cfg ad w frame) := by
  rw [baOriSessionAdd,oriAddAt]
  split
  · refine parts.trans (parts.touch (.inl own)) ?_
    exact parts.ori (updateKept Station.baRecWcidArray rfl) rfl rfl (.inr rfl) rfl rfl
  · exact parts.refl _

theorem Parts.peerAddbaRsp {msg} (own : brought (frameAddbaRsp msg).parm.tid) (ad w) :
    R ad (peerAddbaRspAction cfg ad w msg) := by
  unfold peerAddbaRspAction
  split
  · exact parts.refl ad
  · split
    · refine parts.trans (b := addbaAnswer cfg ad w (frameAddbaRsp msg)) ?_
        (parts.quiet (updateKept Station.baRecWcidArray rfl) rfl rfl rfl rfl)
      unfold addbaAnswer
      split
      · exact parts.trans (parts.touch (.inl own)) (parts.oriAdded own ad w)
      · exact parts.oriTearDown own w ad true false
    · exact parts.refl ad

theorem Parts.peerDelba {msg} (own : brought (frameDelbaReq msg).tid) (ad w) : R ad (peerDelbaAction cfg ad w msg) := by
  unfold peerDelbaAction
  split
  · split
    · exact parts.recTearDown own w ad true
    · exact parts.oriTearDown own w ad true false
  · exact parts.refl ad

theorem Parts.setUp {tid} (own : brought tid) (ad w timeOut isForced) :
    R ad (baOriSessionSetUp cfg ad w tid timeOut isForced) := by
  have touched : R ad (ad.touch tid) := parts.touch (.inl own)
  have waits (ad e idx) : R ad (oriSetUpWith cfg ad w tid timeOut e idx) := by
    unfold oriSetUpWith
    split
    · exact parts.refl ad
    · refine parts.trans (parts.touch (.inl own)) (parts.trans (parts.touch (.inl own)) ?_)
      exact parts.ori (updateKept Station.baRecWcidArray rfl) rfl rfl (.inl own) rfl rfl
  unfold baOriSessionSetUp
  split
  · exact parts.quiet (fun _ => rfl) rfl rfl rfl rfl
  · split
    · exact parts.refl ad
    · split
      · exact parts.refl ad
      · rcases oriSetUpCases cfg (ad.touch tid) w tid timeOut ((ad.stations w).baOriWcidArray tid) with
          ⟨_,eq⟩ | ⟨_,_,eq⟩ | ⟨_,_,i,_,eq⟩ | ⟨_,_,_,eq⟩ <;> rw [eq]
        · exact parts.trans touched (waits ..)
        · exact touched
        · refine parts.trans touched (parts.trans ?_ (waits ..))
          exact parts.ori (fun _ => rfl) rfl rfl (.inr rfl) rfl rfl
        · exact parts.trans touched (waits ..)

theorem Parts.setupTimeout (ad i monitorOn scanning) :
    R ad (baOriSessionSetupTimeout cfg ad i monitorOn scanning) := by
  have fired : R ad (oriDisarmed ad i) := parts.ori (fun _ => rfl) rfl rfl (.inr rfl) rfl rfl
  unfold baOriSessionSetupTimeout oriFired
  split
  · exact fired
  · refine parts.trans fired ?_
    split
    · exact parts.ori (fun _ => rfl) rfl rfl (.inr rfl) rfl rfl
    · exact parts.trans (parts.touch (.inr (.inr ⟨i,rfl⟩))) (parts.freeOri ..)

end

end RtmpDriver.BaParts
