import RtmpDriver.ReorderList

/-! The receive reordering engine of `ba_action.c` for one recipient session: its table entry, the shared block pool,
and a log of what leaves the engine. `Event.up` is a frame handed to the upper layer, `freed` one released by
`dev_kfree_skb_any`. -/
namespace RtmpDriver.ReorderEngine
open ReorderList

abbrev Time := BitVec 64

def timeAfter (a b : Time) : Bool := (b - a).msb

/- What the build fixes: the tick rate of the kernel (its configurations go from 24 to 1024)
and the profile's switch for the flush inside `Indicate_Legacy_Packet`. -/
structure Platform where
  hz : Nat
  hzBound : hz ≤ 1024
  bDisableReordering : Bool
  wpaSupplicantUp : Bool

def samplePlatform : Platform := ⟨250,by decide,false,true⟩

def reorderingPacketTimeout (p : Platform) : Nat := 100 * p.hz / 1000
def maxReorderingPacketTimeout (p : Platform) : Nat := 3000 * p.hz / 1000
def recBaSessionIdleTimeout : Nat := 1000
def maxRxPktLen : Nat := 1520
def length8021H : BitVec 16 := 8

inductive RecStatus where | none | used | handleRes | accept
  deriving DecidableEq, Repr

structure RecEntry where
  wcid : Nat
  tid : Nat
  baWinSize : Nat
  lastIndSeq : Nat
  timeOutValue : Nat
  lastIndSeqAtTimer : Time
  nDropPacket : Nat
  rcvSeq : Nat
  status : RecStatus
  list : ReorderingList
  deriving DecidableEq, Repr

/- `snap` is the test of CONVERT_TO_802_3 on the first bytes of the data: they are an
LLC/SNAP header that the conversion strips. -/
structure RxBlk where
  packet : Nat
  wcid : Nat
  tid : Nat
  sequence : Fin 4096
  amsdu : Bool
  eap : Bool
  opMode : Nat
  dataSize : BitVec 16
  snap : Bool
  deriving DecidableEq, Repr

inductive Event where
  | up (packet sequence : Nat) (amsdu : Bool)
  | eapol (packet : Nat)
  | freed (packet : Nat)
  | allocFailed
  | assertFailed
  | refreshed
  deriving DecidableEq, Repr

structure Ctx where
  entry : RecEntry
  freelist : ReorderingList
  log : List Event
  deriving DecidableEq, Repr

def Ctx.emit (c : Ctx) (e : Event) : Ctx := {c with log := c.log ++ [e]}
def Ctx.assert (c : Ctx) (holds : Bool) : Ctx := if holds then c else c.emit .assertFailed
def Ctx.setList (c : Ctx) (l : ReorderingList) : Ctx := {c with entry.list := l}
def Ctx.setLast (c : Ctx) (seq : Nat) : Ctx := {c with entry.lastIndSeq := seq}
def Ctx.setTimer (c : Ctx) (now : Time) : Ctx := {c with entry.lastIndSeqAtTimer := now}

def baMpduBlkAlloc (c : Ctx) : Option Mpdu × Ctx :=
  match baDequeue c.freelist with
  | (some m,l) => (some (zeroed m.addr),{c with freelist := l})
  | (none,l) => (none,Ctx.emit {c with freelist := l} .allocFailed)

def baMpduBlkFree (c : Ctx) (m : Mpdu) : Ctx := {c with freelist := baEnqueue c.freelist m}

def announceReorderingPacket (c : Ctx) (m : Mpdu) : Ctx :=
  c.emit (.up m.packet m.sequence m.bAmsdu)

def announceHead (c : Ctx) : Option Mpdu × Ctx :=
  match baDequeue c.entry.list with
  | (some m,l) => (some m,baMpduBlkFree (announceReorderingPacket (c.setList l) m) m)
  | (none,l) => (none,c.setList l)

/- The loops run on the list they empty, so its length bounds them: `fuel` is exhausted only
together with the list. -/
def inOrderLoop : Nat → Ctx → Nat → Nat → Ctx × Nat
  | 0,c,_,lastIndSeq => (c,lastIndSeq)
  | fuel + 1,c,startSeq,lastIndSeq =>
    match baReorderingMpduProbe c.entry.list with
    | none => (c,lastIndSeq)
    | some m =>
      if seqStepOne m.sequence startSeq maxSeq then
        match announceHead c with
        | (some m,c) => inOrderLoop fuel c m.sequence m.sequence
        | (none,c) => (c,lastIndSeq)
      else (c,lastIndSeq)

def baIndicateReorderingMpdusInOrder (c : Ctx) (startSeq : Nat) : Ctx × Nat :=
  inOrderLoop c.entry.list.next.length c startSeq resetRcvSeq

def leSeqLoop (sequence : Nat) : Nat → Ctx → Ctx
  | 0,c => c
  | fuel + 1,c =>
    match baReorderingMpduProbe c.entry.list with
    | none => c
    | some m =>
      if m.sequence = sequence ∨ seqSmaller m.sequence sequence maxSeq then
        match announceHead c with
        | (some _,c) => leSeqLoop sequence fuel c
        | (none,c) => c
      else c

def baIndicateReorderingMpdusLeSeq (c : Ctx) (sequence : Nat) : Ctx :=
  leSeqLoop sequence c.entry.list.next.length c

def refreshLoop : Nat → Ctx → Ctx
  | 0,c => c
  | fuel + 1,c =>
    match announceHead c with
    | (some m,c) => refreshLoop fuel (c.setLast m.sequence)
    | (none,c) => c

def baRefreshReorderingMpdus (c : Ctx) : Ctx :=
  let c := refreshLoop c.entry.list.next.length (c.emit .refreshed)
  let c := c.assert (c.entry.list.qlen == 0)
  c.setLast resetRcvSeq

def drainInOrder (c : Ctx) (startSeq : Nat) : Ctx :=
  let (c,seq) := baIndicateReorderingMpdusInOrder c startSeq
  if seq = resetRcvSeq then c else c.setLast seq

def timedOut (c : Ctx) (now : Time) (ticks : Nat) : Bool :=
  timeAfter now (c.entry.lastIndSeqAtTimer + BitVec.ofNat 64 ticks)

def baFlushReorderingTimeoutMpdus (p : Platform) (c : Ctx) (now : Time) : Ctx :=
  if c.entry.list.qlen = 0 then c
  else if timedOut c now (maxReorderingPacketTimeout p / 6) && decide (1 < c.entry.list.qlen) then
    (baRefreshReorderingMpdus c).setTimer now
  else if timedOut c now (reorderingPacketTimeout p) && decide (0 < c.entry.list.qlen) then
    -- force LastIndSeq to shift to LastIndSeq+1
    let sequence := cAnd (c.entry.lastIndSeq + 1) maxSeq
    let c := baIndicateReorderingMpdusLeSeq c sequence
    drainInOrder ((c.setTimer now).setLast sequence) sequence
  else c

def convertTo8023 (rx : RxBlk) : BitVec 16 :=
  if rx.snap then rx.dataSize - length8021H else rx.dataSize

def legacyFlush (p : Platform) (c : Ctx) (now : Time) : Ctx :=
  if !p.bDisableReordering && decide (0 < c.entry.list.qlen) &&
      timedOut c now (reorderingPacketTimeout p) then
    baFlushReorderingTimeoutMpdus p c now
  else c

def indicateLegacyPacket (p : Platform) (c : Ctx) (rx : RxBlk) (now : Time) : Ctx :=
  if maxRxPktLen < (convertTo8023 rx).toNat then c.emit (.freed rx.packet)
  else (legacyFlush p c now).emit (.up rx.packet rx.sequence false)

def indicateEapolPacket (p : Platform) (c : Ctx) (rx : RxBlk) (now : Time) : Ctx :=
  if p.wpaSupplicantUp then indicateLegacyPacket p c rx now else c.emit (.eapol rx.packet)

def indicateLegacyOrAmsdu (p : Platform) (c : Ctx) (rx : RxBlk) (now : Time) : Ctx :=
  if rx.amsdu then c.emit (.up rx.packet rx.sequence true)
  else if rx.eap then indicateEapolPacket p c rx now
  else indicateLegacyPacket p c rx now

def fillMpdu (m : Mpdu) (rx : RxBlk) : Mpdu :=
  {m with sequence := rx.sequence, opMode := rx.opMode, bAmsdu := rx.amsdu, packet := rx.packet}

def baEnqueueReorderingPacket (p : Platform) (c : Ctx) (rx : RxBlk) (now : Time) : Ctx :=
  match baMpduBlkAlloc c,rx.eap with
  | (some blk,c),false =>
    let m := fillMpdu blk rx
    let c := match baReorderingMpduInsertsorted c.entry.list m with
      | some l => c.setList l
      | none => baMpduBlkFree (c.emit (.freed rx.packet)) m
    c.assert (decide (c.entry.list.qlen ≤ c.entry.baWinSize))
  | (_,c),_ =>
    let c := baIndicateReorderingMpdusLeSeq c rx.sequence
    indicateLegacyOrAmsdu p (c.setLast rx.sequence) rx now

def dropPacket (c : Ctx) (rx : RxBlk) : Ctx :=
  Ctx.emit {c with entry.nDropPacket := c.entry.nDropPacket + 1} (.freed rx.packet)

def winStartSeq (sequence baWinSize : Nat) : Nat :=
  let tmpSeq : Int := (sequence : Int) - baWinSize - 1
  let tmpSeq := if tmpSeq < 0 then (maxSeq + 1 : Int) + tmpSeq else tmpSeq
  cAnd (tmpSeq + 1) maxSeq

def inOrderArrival (p : Platform) (c : Ctx) (rx : RxBlk) (now now' : Time) : Ctx :=
  let c := indicateLegacyOrAmsdu p (c.setLast rx.sequence) rx now'
  (drainInOrder c c.entry.lastIndSeq).setTimer now

def surpassingArrival (p : Platform) (c : Ctx) (rx : RxBlk) (now now' : Time) : Ctx :=
  let winStart := winStartSeq rx.sequence c.entry.baWinSize
  let c := baIndicateReorderingMpdusLeSeq c winStart
  let c := baEnqueueReorderingPacket p ((c.setLast winStart).setTimer now) rx now'
  drainInOrder c c.entry.lastIndSeq

/- The five arrival branches of Indicate_AMPDU_Packet, for a session whose LastIndSeq is set. -/
def classify (p : Platform) (c : Ctx) (rx : RxBlk) (now now' : Time) : Ctx :=
  if seqStepOne rx.sequence c.entry.lastIndSeq maxSeq then inOrderArrival p c rx now now'
  else if (rx.sequence : Nat) = c.entry.lastIndSeq then dropPacket c rx
  else if seqSmaller rx.sequence c.entry.lastIndSeq maxSeq then dropPacket c rx
  else if seqSmaller rx.sequence (cAnd (c.entry.lastIndSeq + c.entry.baWinSize + 1) maxSeq) maxSeq then
    baEnqueueReorderingPacket p c rx now'
  else surpassingArrival p c rx now now'

def firstArrival (p : Platform) (c : Ctx) (rx : RxBlk) (now now' : Time) : Ctx :=
  let c := c.assert (c.entry.list.qlen == 0 && c.entry.list.next.isEmpty)
  indicateLegacyOrAmsdu p ((c.setLast rx.sequence).setTimer now) rx now'

def arrived (p : Platform) (c : Ctx) (rx : RxBlk) (now : Time) : Ctx :=
  (baFlushReorderingTimeoutMpdus p {c with entry.rcvSeq := rx.sequence} now).setTimer now

/- Indicate_AMPDU_Packet once the session is found; `now` and `now'` are the clock as it reads
it and as Indicate_Legacy_Packet, further down the same call, reads it. -/
def receiveAmpdu (p : Platform) (c : Ctx) (rx : RxBlk) (now now' : Time) : Ctx :=
  if (arrived p c rx now).entry.lastIndSeq = resetRcvSeq then
    firstArrival p (arrived p c rx now) rx now now'
  else classify p (arrived p c rx now) rx now now'

def oversize (rx : RxBlk) : Bool := !rx.amsdu && decide (maxRxPktLen < rx.dataSize.toNat)

def indicateAmpdu (p : Platform) (c : Ctx) (rx : RxBlk) (now now' : Time) : Ctx :=
  if oversize rx then c.emit (.freed rx.packet) else receiveAmpdu p c rx now now'

/- The BlockAckReq part of CntlEnqueueForRecv, once the entry is found. -/
def blockAckReq (c : Ctx) (startSeq : Nat) : Ctx :=
  if seqSmaller c.entry.lastIndSeq startSeq maxSeq then
    (baIndicateReorderingMpdusLeSeq c startSeq).setLast (if startSeq = 0 then maxSeq else startSeq - 1)
  else c

def baRecSessionIdleTimeout (c : Ctx) (now : Time) : Ctx :=
  if c.entry.status = .accept && timedOut c now recBaSessionIdleTimeout then
    baRefreshReorderingMpdus c
  else c

def recWinSize (bufSize rxBaWinLimit : Nat) : Nat :=
  let baWinSize := min (bufSize % 256) (rxBaWinLimit % 256)
  if baWinSize = 0 then 64 else baWinSize

structure AddbaReq where
  tid : Nat
  bufSize : Nat
  timeOutValue : Nat
  deriving DecidableEq, Repr

/- The `pBAEntry != NULL` part of BARecSessionAdd on the entry. -/
def fillSession (c : Ctx) (wcid rxBaWinLimit : Nat) (req : AddbaReq) : Ctx :=
  let c := c.assert (c.entry.list.qlen == 0)
  {c with entry := {c.entry with
    status := .accept, baWinSize := recWinSize req.bufSize rxBaWinLimit, wcid := wcid, tid := req.tid,
    timeOutValue := req.timeOutValue, lastIndSeq := resetRcvSeq}}

def reAddba (c : Ctx) (wcid rxBaWinLimit : Nat) (req : AddbaReq) : Ctx :=
  fillSession (baRefreshReorderingMpdus c) wcid rxBaWinLimit req

end RtmpDriver.ReorderEngine
