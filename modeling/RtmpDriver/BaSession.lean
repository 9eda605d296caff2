import Mathlib.Logic.Function.Basic
import Mathlib.Order.Defs.LinearOrder
import RtmpDriver.BaFrames
import RtmpDriver.ReorderEngine
import RtmpDriver.SlotTable

/-! The Block-Ack part of the adapter: `BATable`, the per-station index arrays and bitmaps, and the handlers of
`ba_action.c`. Index 0 means no session. `touched` logs the TIDs with which the handlers index the arrays, `sent` the
frames handed to the transmit path. -/
namespace RtmpDriver.BaSession
open SlotTable ReorderList ReorderEngine BaFrames

def numOfTid : Nat := 8
def oriSessionMaxRetry : Nat := 8
def modeHtMix : Nat := 2
def modeHtGreenfield : Nat := 3
def modeVht : Nat := 4

structure Config where
  platform : Platform
  macTableLen : Nat
  recTableLen : Nat
  recTablePos : 0 < recTableLen
  oriTableLen : Nat
  autoBA : Bool
  bBADecline : Bool
  rxBaWinLimit : Nat
  txBaWinLimit : Nat
  rt65xx : Bool
  mt76x2 : Bool
  txPath : Nat
  staTgnWifi : Bool

inductive OriStatus where | none | used | waitRes | done
  deriving DecidableEq, Repr

structure OriEntry where
  wcid : Nat
  tid : Nat
  baWinSize : Nat
  sequence : Nat
  token : Nat
  timeOutValue : Nat
  amsduCap : Bool
  status : OriStatus
  armed : Bool
  deriving DecidableEq, Repr

structure Station where
  wcid : Nat
  mode : Nat
  mcsSet2 : Nat
  ralinkChipset : Bool
  maxRAmpduFactor : Nat
  fixedTxModeHt : Bool
  baRecWcidArray : Nat → Nat
  baOriWcidArray : Nat → Nat
  txSeq : Nat → Nat
  rxBaBitmap : BitVec 16
  txBaBitmap : BitVec 16
  baDeclineBitmap : BitVec 16

inductive Sent where
  | addbaReq (wcid tid baBufSize token : Nat)
  | addbaRsp (wcid token status tid bufSize : Nat) (amsdu : Bool)
  | delba (wcid tid : Nat) (initiator : Initiator)
  | bar (wcid tid startSeq : Nat)
  deriving DecidableEq, Repr

structure Adapter where
  stations : Nat → Station
  recs : Nat → RecEntry
  oris : Nat → OriEntry
  numAsRecipient : Int
  numAsOriginator : Int
  numDoneOriginator : Int
  freelist : ReorderingList
  log : List Event
  touched : List Nat
  sent : List Sent

def Adapter.touch (ad : Adapter) (tid : Nat) : Adapter := {ad with touched := ad.touched ++ [tid]}
def Adapter.send (ad : Adapter) (frames : List Sent) : Adapter := {ad with sent := ad.sent ++ frames}
def Adapter.emit (ad : Adapter) (e : Event) : Adapter := {ad with log := ad.log ++ [e]}

def Adapter.assert (ad : Adapter) (holds : Bool) : Adapter :=
  {ad with log := ad.log ++ if holds then [] else [.assertFailed]}

def Adapter.onStation (ad : Adapter) (w : Nat) (f : Station → Station) : Adapter :=
  {ad with stations := Function.update ad.stations w (f (ad.stations w))}

def Adapter.onOri (ad : Adapter) (i : Nat) (f : OriEntry → OriEntry) : Adapter :=
  {ad with oris := Function.update ad.oris i (f (ad.oris i))}

/- The reordering engine on entry `i`: it works on the entry, the shared block pool and the log. -/
def Adapter.ctx (ad : Adapter) (i : Nat) : Ctx := ⟨ad.recs i,ad.freelist,ad.log⟩

def Adapter.onRec (ad : Adapter) (i : Nat) (f : Ctx → Ctx) : Adapter :=
  {ad with
    recs := Function.update ad.recs i (f (ad.ctx i)).entry
    freelist := (f (ad.ctx i)).freelist
    log := (f (ad.ctx i)).log}

def bit (tid : Nat) : BitVec 16 := 1 <<< tid

def Station.setRec (st : Station) (tid idx : Nat) : Station :=
  {st with baRecWcidArray := Function.update st.baRecWcidArray tid idx}

def Station.setOri (st : Station) (tid idx : Nat) : Station :=
  {st with baOriWcidArray := Function.update st.baOriWcidArray tid idx}

/- The allocators scan from entry 1 on. When the scan finds nothing the C pointer is left on the
last entry scanned and `*Idx` unchanged; the result is the entry returned, and the index. -/
def recScan (cfg : Config) (ad : Adapter) : Option Nat :=
  (indices cfg.recTableLen).find? fun i => (ad.recs i).status == .none

def recTaken (ad : Adapter) (i : Nat) : Adapter :=
  {ad with
    numAsRecipient := ad.numAsRecipient + 1
    recs := Function.update ad.recs i {ad.recs i with status := .used}}

def baTableAllocRecEntry (cfg : Config) (ad : Adapter) (idx : Nat) : Option Nat × Nat × Adapter :=
  if (cfg.recTableLen : Int) - 1 ≤ ad.numAsRecipient then (none,idx,ad)
  else match recScan cfg ad with
    | some i => (some i,i,recTaken ad i)
    | none => (some (cfg.recTableLen - 1),idx,ad)

def oriScan (cfg : Config) (ad : Adapter) : Option Nat :=
  (indices cfg.oriTableLen).find? fun i => (ad.oris i).status == .none

def oriTaken (ad : Adapter) (i : Nat) : Adapter :=
  {ad with
    numAsOriginator := ad.numAsOriginator + 1
    oris := Function.update ad.oris i {ad.oris i with status := .used}}

def baTableAllocOriEntry (cfg : Config) (ad : Adapter) (idx : Nat) : Option Nat × Nat × Adapter :=
  if (cfg.oriTableLen : Int) - 1 ≤ ad.numAsOriginator then (none,idx,ad)
  else match oriScan cfg ad with
    | some i => (some i,i,oriTaken ad i)
    | none => (some (cfg.oriTableLen - 1),idx,ad)

def oriFreed (ad : Adapter) (idx : Nat) : Adapter :=
  let e := ad.oris idx
  let ad := ((ad.touch e.tid).assert (ad.numAsOriginator != 0)).onStation e.wcid fun st =>
    {st.setOri e.tid 0 with
      txBaBitmap := if e.status = .done then st.txBaBitmap &&& ~~~ bit e.tid else st.txBaBitmap}
  {ad with
    numDoneOriginator := if e.status = .done then ad.numDoneOriginator - 1 else ad.numDoneOriginator
    numAsOriginator := ad.numAsOriginator - 1
    oris := Function.update ad.oris idx {e with status := .none, token := 0}}

def baTableFreeOriEntry (cfg : Config) (ad : Adapter) (idx : Nat) : Adapter :=
  if idx = 0 ∨ cfg.oriTableLen ≤ idx then ad
  else if (ad.oris idx).status = .none then ad
  else oriFreed ad idx

def recFreed (ad : Adapter) (idx : Nat) : Adapter :=
  let e := ad.recs idx
  let ad := ((ad.touch e.tid).assert (ad.numAsRecipient != 0)).onStation e.wcid fun st => st.setRec e.tid 0
  {ad with
    numAsRecipient := ad.numAsRecipient - 1
    recs := Function.update ad.recs idx {e with status := .none}}

def baTableFreeRecEntry (cfg : Config) (ad : Adapter) (idx : Nat) : Adapter :=
  if idx = 0 ∨ cfg.recTableLen ≤ idx then ad
  else if (ad.recs idx).status = .none then ad
  else recFreed ad idx

def recFilled (cfg : Config) (ad : Adapter) (w e idx : Nat) (req : AddbaReq) : Adapter :=
  let wcid := (ad.stations w).wcid
  let ad := ad.onRec e fun c => fillSession c wcid cfg.rxBaWinLimit req
  (ad.touch req.tid).onStation w fun st => {st.setRec req.tid idx with
    rxBaBitmap := st.rxBaBitmap ||| bit req.tid
    baDeclineBitmap := st.baDeclineBitmap &&& ~~~ bit req.tid}

def recAddAt (cfg : Config) (ad : Adapter) (w : Nat) (req : AddbaReq) (idx : Nat) : Bool × Adapter :=
  if idx = 0 then
    match baTableAllocRecEntry cfg ad idx with
    | (some e,idx,ad) => (true,recFilled cfg ad w e idx req)
    | (none,_,ad) => (false,ad)
  else (true,recFilled cfg (ad.onRec idx baRefreshReorderingMpdus) w idx idx req)

def baRecSessionAdd (cfg : Config) (ad : Adapter) (w : Nat) (req : AddbaReq) : Bool × Adapter :=
  recAddAt cfg (ad.touch req.tid) w req ((ad.stations w).baRecWcidArray req.tid)

theorem recAddCases (cfg ad w req) :
    let idx := (ad.stations w).baRecWcidArray req.tid
    (idx ≠ 0 ∧ baRecSessionAdd cfg ad w req =
      (true,recFilled cfg ((ad.touch req.tid).onRec idx baRefreshReorderingMpdus) w idx idx req)) ∨
    (idx = 0 ∧ (cfg.recTableLen : Int) - 1 ≤ ad.numAsRecipient ∧
      baRecSessionAdd cfg ad w req = (false,ad.touch req.tid)) ∨
    (idx = 0 ∧ ad.numAsRecipient < (cfg.recTableLen : Int) - 1 ∧ ∃ i, recScan cfg ad = some i ∧
      baRecSessionAdd cfg ad w req = (true,recFilled cfg (recTaken (ad.touch req.tid) i) w i i req)) ∨
    (idx = 0 ∧ ad.numAsRecipient < (cfg.recTableLen : Int) - 1 ∧ recScan cfg ad = none ∧
      baRecSessionAdd cfg ad w req =
        (true,recFilled cfg (ad.touch req.tid) w (cfg.recTableLen - 1) 0 req)) := by
  intro idx
  have scan : recScan cfg (ad.touch req.tid) = recScan cfg ad := rfl
  have num : (ad.touch req.tid).numAsRecipient = ad.numAsRecipient := rfl
  unfold baRecSessionAdd recAddAt baTableAllocRecEntry
  rw [scan,num]
  by_cases none : idx = 0
  · have zero : (ad.stations w).baRecWcidArray req.tid = 0 := none
    rw [if_pos zero,zero]
    by_cases full : (cfg.recTableLen : Int) - 1 ≤ ad.numAsRecipient
    · rw [if_pos full]
      exact Or.inr (Or.inl ⟨none,full,rfl⟩)
    · rw [if_neg full]
      cases found : recScan cfg ad with
      | some i => exact Or.inr (Or.inr (Or.inl ⟨none,not_le.mp full,i,rfl,rfl⟩))
      | none => exact Or.inr (Or.inr (Or.inr ⟨none,not_le.mp full,rfl,rfl⟩))
  · rw [if_neg none]
    exact Or.inl ⟨none,rfl⟩

def recQuit (c : Ctx) : Ctx :=
  let c := baRefreshReorderingMpdus c
  {c with entry := {c.entry with lastIndSeq := resetRcvSeq, baWinSize := 0}}

def recReleased (ad : Adapter) (w tid idx : Nat) (bPassive : Bool) : Adapter :=
  let ad := (ad.send (if bPassive then [] else [.delba w tid .recipient])).onRec idx recQuit
  (ad.touch tid).onStation w fun st =>
    {st.setRec tid 0 with rxBaBitmap := st.rxBaBitmap &&& ~~~ bit (ad.recs idx).tid}

def recTearAt (cfg : Config) (ad : Adapter) (w tid : Nat) (bPassive : Bool) (idx : Nat) : Adapter :=
  if idx = 0 then ad
  else if tid = (ad.recs idx).tid ∧ (ad.recs idx).status = .accept then
    baTableFreeRecEntry cfg (recReleased ad w tid idx bPassive) idx
  else baTableFreeRecEntry cfg ad idx

def baRecSessionTearDown (cfg : Config) (ad : Adapter) (w tid : Nat) (bPassive : Bool) : Adapter :=
  if cfg.macTableLen ≤ w then ad
  else recTearAt cfg (ad.touch tid) w tid bPassive ((ad.stations w).baRecWcidArray tid)

def oriWaiting (cfg : Config) (ad : Adapter) (w tid e idx timeOut : Nat) : Adapter :=
  let st := ad.stations w
  (((ad.touch tid).touch tid).onStation w fun st => st.setOri tid idx).onOri e fun ori => {ori with
    status := .waitRes, wcid := st.wcid, baWinSize := cfg.txBaWinLimit, sequence := st.txSeq tid,
    token := 1, tid := tid, timeOutValue := timeOut, armed := true}

def oriSetUpWith (cfg : Config) (ad : Adapter) (w tid timeOut e idx : Nat) : Adapter :=
  if (ad.oris e).status = .waitRes ∨ (ad.oris e).status = .done then ad
  else oriWaiting cfg ad w tid e idx timeOut

def oriSetUpAt (cfg : Config) (ad : Adapter) (w tid timeOut idx : Nat) : Adapter :=
  if idx = 0 then
    match baTableAllocOriEntry cfg ad idx with
    | (some e,idx,ad) => oriSetUpWith cfg ad w tid timeOut e idx
    | (none,_,ad) => ad
  else oriSetUpWith cfg ad w tid timeOut idx idx

def baOriSessionSetUp (cfg : Config) (ad : Adapter) (w tid timeOut : Nat) (isForced : Bool) : Adapter :=
  if numOfTid ≤ tid then ad.assert false
  else if !cfg.autoBA && !isForced then ad
  else if !(ad.stations w).fixedTxModeHt then ad
  else oriSetUpAt cfg (ad.touch tid) w tid timeOut ((ad.stations w).baOriWcidArray tid)

theorem oriSetUpCases (cfg ad w tid timeOut idx) :
    (idx ≠ 0 ∧ oriSetUpAt cfg ad w tid timeOut idx = oriSetUpWith cfg ad w tid timeOut idx idx) ∨
    (idx = 0 ∧ (cfg.oriTableLen : Int) - 1 ≤ ad.numAsOriginator ∧ oriSetUpAt cfg ad w tid timeOut idx = ad) ∨
    (idx = 0 ∧ ad.numAsOriginator < (cfg.oriTableLen : Int) - 1 ∧ ∃ i, oriScan cfg ad = some i ∧
      oriSetUpAt cfg ad w tid timeOut idx = oriSetUpWith cfg (oriTaken ad i) w tid timeOut i i) ∨
    (idx = 0 ∧ ad.numAsOriginator < (cfg.oriTableLen : Int) - 1 ∧ oriScan cfg ad = none ∧
      oriSetUpAt cfg ad w tid timeOut idx = oriSetUpWith cfg ad w tid timeOut (cfg.oriTableLen - 1) 0) := by
  unfold oriSetUpAt baTableAllocOriEntry
  by_cases none : idx = 0
  · rw [if_pos none,none]
    by_cases full : (cfg.oriTableLen : Int) - 1 ≤ ad.numAsOriginator
    · rw [if_pos full]
      exact Or.inr (Or.inl ⟨rfl,full,rfl⟩)
    · rw [if_neg full]
      cases found : oriScan cfg ad with
      | some i => exact Or.inr (Or.inr (Or.inl ⟨rfl,not_le.mp full,i,rfl,rfl⟩))
      | none => exact Or.inr (Or.inr (Or.inr ⟨rfl,not_le.mp full,rfl,rfl⟩))
  · rw [if_neg none]
    exact Or.inl ⟨none,rfl⟩

def baMaxWinSizeReasign (cfg : Config) (st : Station) (winSize : Nat) : Nat :=
  let maxPeerRxSize := if st.ralinkChipset then 2^(st.maxRAmpduFactor + 3) % 256
    else (2^(st.maxRAmpduFactor + 3) * 10 / 16 - 1) % 256
  let maxSize := if cfg.rt65xx then
      if (st.mode = modeHtMix ∨ st.mode = modeHtGreenfield) ∧ st.mcsSet2 ≠ 0xff then 31
      else if cfg.mt76x2 then 47 else 31
    else if cfg.txPath = 3 ∧ st.mcsSet2 ≠ 0 then 31 else 20
  min winSize (min maxPeerRxSize maxSize)

def oriDone (cfg : Config) (ad : Adapter) (w idx : Nat) (frame : FrameAddbaRsp) : Adapter :=
  let st := ad.stations w
  let tid := frame.parm.tid
  let ad := {ad.touch tid with numDoneOriginator := ad.numDoneOriginator + 1}
  let ad := ad.onOri idx fun ori => {ori with
    baWinSize := baMaxWinSizeReasign cfg st (min ori.baWinSize (frame.parm.bufSize % 256 - 1)),
    timeOutValue := frame.timeOutValue, amsduCap := frame.parm.amsduSupported, status := .done,
    sequence := st.txSeq tid, armed := false}
  (ad.onStation w fun st => {st with txBaBitmap := st.txBaBitmap ||| bit tid}).send
    [.bar (ad.oris idx).wcid (ad.oris idx).tid (ad.oris idx).sequence]

def oriAddAt (cfg : Config) (ad : Adapter) (w : Nat) (frame : FrameAddbaRsp) (idx : Nat) : Adapter :=
  if idx ≠ 0 ∧ (ad.oris idx).tid = frame.parm.tid ∧ (ad.oris idx).status = .waitRes then
    oriDone cfg ad w idx frame
  else ad

def baOriSessionAdd (cfg : Config) (ad : Adapter) (w : Nat) (frame : FrameAddbaRsp) : Adapter :=
  oriAddAt cfg (ad.touch frame.parm.tid) w frame ((ad.stations w).baOriWcidArray frame.parm.tid)

def oriDisarmed (ad : Adapter) (i : Nat) : Adapter := ad.onOri i fun ori => {ori with armed := false}

def oriTearAt (cfg : Config) (ad : Adapter) (w tid : Nat) (bPassive bForceSend : Bool) (idx : Nat) : Adapter :=
  if idx = 0 ∨ cfg.oriTableLen ≤ idx then ad.send (if bForceSend then [.delba w tid .originator] else [])
  else baTableFreeOriEntry cfg (oriDisarmed (ad.send (if bPassive = false ∧ tid = (ad.oris idx).tid ∧
    (ad.oris idx).status = .done then [.delba w (ad.oris idx).tid .originator] else [])) idx) idx

def baOriSessionTearDown (cfg : Config) (ad : Adapter) (w tid : Nat) (bPassive bForceSend : Bool) : Adapter :=
  if cfg.macTableLen ≤ w then ad
  else oriTearAt cfg (ad.touch tid) w tid bPassive bForceSend ((ad.stations w).baOriWcidArray tid)

def tearDownTid (cfg : Config) (w : Nat) (ad : Adapter) (tid : Nat) : Adapter :=
  baRecSessionTearDown cfg (baOriSessionTearDown cfg ad w tid false false) w tid false

def baSessionTearDownAll (cfg : Config) (ad : Adapter) (w : Nat) : Adapter :=
  (List.range numOfTid).foldl (tearDownTid cfg w) ad

/- The one-shot timer of originator entry `i` has fired: another ADDBA request, if any is left. In
a scan there is no chance to send, just another time period. -/
def oriRetry (cfg : Config) (ad : Adapter) (i : Nat) (scanning : Bool) : Adapter :=
  let e := ad.oris i
  (ad.send (if scanning then []
    else [.addbaReq (ad.stations e.wcid).wcid e.tid cfg.rxBaWinLimit e.token])).onOri i fun ori =>
      {ori with token := if scanning then ori.token else ori.token + 1, armed := true}

def oriFired (cfg : Config) (ad : Adapter) (i : Nat) (scanning : Bool) : Adapter :=
  if (ad.oris i).status = .waitRes ∧ (ad.oris i).token < oriSessionMaxRetry then oriRetry cfg ad i scanning
  else baTableFreeOriEntry cfg (ad.touch (ad.oris i).tid)
    ((ad.stations (ad.oris i).wcid).baOriWcidArray (ad.oris i).tid)

def baOriSessionSetupTimeout (cfg : Config) (ad : Adapter) (i : Nat) (monitorOn scanning : Bool) : Adapter :=
  if monitorOn then oriDisarmed ad i else oriFired cfg (oriDisarmed ad i) i scanning

def addbaReqOf (msg : Bytes) : AddbaReq :=
  ⟨(frameAddbaReq msg).parm.tid,(frameAddbaReq msg).parm.bufSize,(frameAddbaReq msg).timeOutValue⟩

-- The ADDBA response is always sent back.
def addbaResponse (cfg : Config) (ad : Adapter) (w : Nat) (msg : Bytes) (status : Nat) : Adapter :=
  let frame := frameAddbaReq msg
  ad.send [.addbaRsp w frame.token status frame.parm.tid (recWinSize frame.parm.bufSize cfg.rxBaWinLimit)
    (decide ((ad.stations w).mode = modeVht) && decide (status = 0) && frame.parm.amsduSupported)]

def peerAddbaReqAction (cfg : Config) (ad : Adapter) (w : Nat) (msg : Bytes) : Adapter :=
  if cfg.macTableLen ≤ w then ad
  else if peerAddbaReqActionSanity msg then
    if !cfg.bBADecline && decide (modeHtMix ≤ (ad.stations w).mode) then
      match baRecSessionAdd cfg ad w (addbaReqOf msg) with
      | (true,ad) => addbaResponse cfg ad w msg 0
      | (false,ad) => addbaResponse cfg ad w msg 38
    else addbaResponse cfg ad w msg 37
  else addbaResponse cfg ad w msg 1

def addbaAnswer (cfg : Config) (ad : Adapter) (w : Nat) (frame : FrameAddbaRsp) : Adapter :=
  if frame.statusCode = 0 then baOriSessionAdd cfg ad w frame
  else baOriSessionTearDown cfg ad w frame.parm.tid true false

def peerAddbaRspAction (cfg : Config) (ad : Adapter) (w : Nat) (msg : Bytes) : Adapter :=
  if cfg.macTableLen ≤ w then ad
  else if peerAddbaRspActionSanity msg then
    (addbaAnswer cfg ad w (frameAddbaRsp msg)).onStation w fun st => {st with
      baDeclineBitmap := if (frameAddbaRsp msg).statusCode = 37 ∨
          (cfg.staTgnWifi ∧ (frameAddbaRsp msg).statusCode ≠ 0) then
          st.baDeclineBitmap ||| bit (frameAddbaRsp msg).parm.tid
        else st.baDeclineBitmap}
  else ad

def peerDelbaAction (cfg : Config) (ad : Adapter) (w : Nat) (msg : Bytes) : Adapter :=
  if peerDelbaActionSanity cfg.macTableLen w msg then
    match (frameDelbaReq msg).initiator with
    | .originator => baRecSessionTearDown cfg ad w (frameDelbaReq msg).tid true
    | .recipient => baOriSessionTearDown cfg ad w (frameDelbaReq msg).tid true false
  else ad

def legacyUp (rx : RxBlk) : Event :=
  if maxRxPktLen < (convertTo8023 rx).toNat then .freed rx.packet else .up rx.packet rx.sequence false

def passUp (p : Platform) (rx : RxBlk) : Event :=
  if rx.amsdu then .up rx.packet rx.sequence true
  else if rx.eap && !p.wpaSupplicantUp then .eapol rx.packet
  else legacyUp rx

def indicateAmpduPacket (cfg : Config) (ad : Adapter) (rx : RxBlk) (now now' : Time) : Adapter :=
  if oversize rx then ad.emit (.freed rx.packet)
  else if cfg.macTableLen ≤ rx.wcid then (ad.assert false).emit (.freed rx.packet)
  else
    let idx := (ad.stations rx.wcid).baRecWcidArray rx.tid
    if idx = 0 then ad.emit (passUp cfg.platform rx)
    else ad.onRec idx fun c => receiveAmpdu cfg.platform c rx now now'

def indicateLegacy (cfg : Config) (ad : Adapter) (rx : RxBlk) (now : Time) : Adapter :=
  let idx := (ad.stations rx.wcid).baRecWcidArray rx.tid
  if cfg.macTableLen ≤ rx.wcid ∨ idx = 0 then ad.emit (legacyUp rx)
  else ad.onRec idx fun c => indicateLegacyPacket cfg.platform c rx now

def cntlEnqueueForRecv (cfg : Config) (ad : Adapter) (w tid startSeq : Nat) : Adapter :=
  if w < cfg.macTableLen ∧ tid < 8 then
    ad.onRec ((ad.stations w).baRecWcidArray tid) fun c => blockAckReq c startSeq
  else ad

inductive AdapterOp where
  | ampdu (rx : RxBlk) (now now' : Time)
  | legacy (rx : RxBlk) (now : Time)
  | bar (w tid : Nat) (startSeq : Fin 4096)
  | idle (i : Nat) (now : Time)
  | setUp (w tid timeOut : Nat) (isForced : Bool)
  | setupTimeout (i : Nat) (monitorOn scanning : Bool)
  | addbaReq (w : Nat) (msg : Bytes)
  | addbaRsp (w : Nat) (msg : Bytes)
  | delba (w : Nat) (msg : Bytes)
  | oriTearDown (w tid : Nat) (bPassive bForceSend : Bool)
  | recTearDown (w tid : Nat) (bPassive : Bool)
  | tearDownAll (w : Nat)

def adapterStep (cfg : Config) (ad : Adapter) : AdapterOp → Adapter
  | .ampdu rx now now' => indicateAmpduPacket cfg ad rx now now'
  | .legacy rx now => indicateLegacy cfg ad rx now
  | .bar w tid startSeq => cntlEnqueueForRecv cfg ad w tid startSeq
  | .idle i now =>
    if i < cfg.recTableLen then ad.onRec i fun c => baRecSessionIdleTimeout c now else ad
  | .setUp w tid timeOut isForced => baOriSessionSetUp cfg ad w tid timeOut isForced
  | .setupTimeout i monitorOn scanning =>
    if i < cfg.oriTableLen then baOriSessionSetupTimeout cfg ad i monitorOn scanning else ad
  | .addbaReq w msg => peerAddbaReqAction cfg ad w msg
  | .addbaRsp w msg => peerAddbaRspAction cfg ad w msg
  | .delba w msg => peerDelbaAction cfg ad w msg
  | .oriTearDown w tid bPassive bForceSend => baOriSessionTearDown cfg ad w tid bPassive bForceSend
  | .recTearDown w tid bPassive => baRecSessionTearDown cfg ad w tid bPassive
  | .tearDownAll w => baSessionTearDownAll cfg ad w

def emptyRec : RecEntry := ⟨0,0,0,0,0,0,0,0,.none,.empty⟩
def emptyOri : OriEntry := ⟨0,0,0,0,0,0,false,.none,false⟩

structure Fresh (num : Nat) (ad : Adapter) : Prop where
  stations : ∀ w, (ad.stations w).wcid = w ∧ (∀ t, (ad.stations w).baRecWcidArray t = 0) ∧
    (∀ t, (ad.stations w).baOriWcidArray t = 0) ∧ (ad.stations w).rxBaBitmap = 0 ∧ (ad.stations w).txBaBitmap = 0
  recs : ∀ i, ad.recs i = emptyRec
  oris : ∀ i, ad.oris i = emptyOri
  counters : ad.numAsRecipient = 0 ∧ ad.numAsOriginator = 0 ∧ ad.numDoneOriginator = 0
  freelist : ad.freelist = baReorderingResourceInit num

def sampleConfig : Config := ⟨samplePlatform,4,4,by decide,4,true,false,8,8,true,true,2,false⟩

def sampleStation (w : Nat) : Station :=
  ⟨w,modeVht,255,true,3,true,fun _ => 0,fun _ => 0,fun _ => 0,0,0,0⟩

def sampleAdapter (num : Nat) : Adapter :=
  ⟨sampleStation,fun _ => emptyRec,fun _ => emptyOri,0,0,0,baReorderingResourceInit num,[],[],[]⟩

theorem sampleFresh (num) : Fresh num (sampleAdapter num) :=
  ⟨fun _ => ⟨rfl,fun _ => rfl,fun _ => rfl,rfl,rfl⟩,fun _ => rfl,fun _ => rfl,⟨rfl,rfl,rfl⟩,rfl⟩

def sampleAmpdu (packet : Nat) (sequence : Fin 4096) (eap : Bool) : RxBlk :=
  ⟨packet,1,0,sequence,false,eap,0,100,false⟩

def actionFrame (body : Bytes) : Bytes := List.replicate sizeofHeader80211 0 ++ body

end RtmpDriver.BaSession
