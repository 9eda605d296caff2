import RtmpDriver.Defragment
import RtmpDriver.LlcSnap

/-! STA_Fragment_Frame_Tx against RTMPDeFragmentDataFrame. Both sides meet at `Train`, the fragments of one frame as
they go over the air. -/
namespace RtmpDriver.TxFragment
open EapolFrame WpaSupplicant RxFilter LlcSnap Defragment List

def lengthCrc : Nat := 4
def length8021Q : Nat := 4
def fcTypeData : Nat := 2
def subtypeData : Nat := 0
def subtypeQdata : Nat := 8
def maxSeq : Nat := 0xfff

inductive Cipher where
  | none | wep64 | wep128 | tkip | aes
  deriving DecidableEq, Repr

def encryptionOverhead : Cipher → Nat
  | .wep64 | .wep128 => 8
  | .tkip => 12
  | .aes => 16
  | .none => 0

structure Header80211 where
  subType : Nat
  toDs : Bool
  moreFrag : Bool
  pwrMgmt : Bool
  moreData : Bool
  wep : Bool
  duration : BitVec 16
  addr1 : Addr
  addr2 : Addr
  addr3 : Addr
  frag : Nat
  sequence : Nat

def Header80211.fc1 (h : Header80211) : UInt8 :=
  UInt8.ofNat (h.toDs.toNat + 4 * h.moreFrag.toNat + 16 * h.pwrMgmt.toNat + 32 * h.moreData.toNat + 64 * h.wep.toNat)

def Header80211.front (h : Header80211) : Bytes :=
  [UInt8.ofNat (4 * fcTypeData + 16 * h.subType),h.fc1,UInt8.ofNat (h.duration.toNat % 256),
    UInt8.ofNat (h.duration.toNat / 256)]

def Header80211.control (h : Header80211) : Bytes :=
  [UInt8.ofNat (h.frag % 16 + 16 * (h.sequence % 16)),UInt8.ofNat (h.sequence / 16 % 256)]

def Header80211.bytes (h : Header80211) : Bytes :=
  h.front ++ (h.addr1.val ++ (h.addr2.val ++ (h.addr3.val ++ h.control)))

structure MacEntry where
  nonQosDataSeq : Nat
  txSeq : Nat → Nat

/- The part of the adapter that the sender reads; `calcDuration` is RTMPCalcDuration at the rate of the frame. -/
structure TxSta where
  infra : Bool
  adhoc : Bool
  bssid : Addr
  currentAddress : Addr
  sequence : Nat
  apsdForcePowerSave : Bool
  pktPmBit : Bool
  fragmentThreshold : Nat
  dsifs : BitVec 16
  ackDuration : BitVec 16
  calcDuration : Nat → BitVec 16
  txwiSize : Nat

/- TX_BLK after RTMP_FillTxBlkInfo. `packet` is the frame from the 802.3 header on, `headerBuf` the address of
HeaderBuf, `mic` what RTMPCalculateMICValue gives. -/
structure TxBlk where
  wmm : Bool
  forceNonQos : Bool
  entry : Option MacEntry
  userPriority : Nat
  moreData : Bool
  cipher : Cipher
  vlan : Bool
  packet : Bytes
  headerBuf : Nat
  mic : Bytes

def nextSeq (n : Nat) : Nat := (n + 1) % (maxSeq + 1)

def takeSequence (sta : TxSta) (blk : TxBlk) : Nat × Option MacEntry × Nat :=
  match blk.entry with
  | some e =>
    if blk.forceNonQos then (e.nonQosDataSeq,some {e with nonQosDataSeq := nextSeq e.nonQosDataSeq},sta.sequence)
    else
      let seq := e.txSeq blk.userPriority
      (seq,some {e with txSeq := fun p => if p = blk.userPriority then nextSeq seq else e.txSeq p},sta.sequence)
  | none => (sta.sequence,none,nextSeq sta.sequence)

def zeroAddr : Addr := ⟨replicate 6 0,rfl⟩

def destination (packet : Bytes) : Addr := ⟨bytesAt (fun i => packet.getD i 0) 0 6,by simp [bytesAt]⟩

def staBuildCommon80211Header (sta : TxSta) (blk : TxBlk) : Header80211 where
  subType := if blk.wmm then subtypeQdata else subtypeData
  toDs := sta.infra
  moreFrag := false
  pwrMgmt := sta.apsdForcePowerSave || sta.pktPmBit
  moreData := blk.moreData
  wep := blk.cipher != .none
  duration := 0
  addr1 := if sta.infra then sta.bssid else if sta.adhoc then destination blk.packet else zeroAddr
  addr2 := if sta.infra ∨ sta.adhoc then sta.currentAddress else zeroAddr
  addr3 := if sta.infra then destination blk.packet else if sta.adhoc then sta.bssid else zeroAddr
  frag := 0
  sequence := (takeSequence sta blk).1 % 4096

structure HeaderRest where
  qos : Bytes
  pad : Nat
  llc : Option Bytes
  type : Bytes

def HeaderRest.encap (r : HeaderRest) : Bytes :=
  match r.llc with
  | some llc => llc ++ r.type
  | none => []

def HeaderRest.bytes (r : HeaderRest) : Bytes := r.qos ++ (replicate r.pad 0 ++ r.encap)

def txinfoSize : Nat := 4
def roundUp4 (n : Nat) : Nat := (n + 3) / 4 * 4

def headerRest (sta : TxSta) (blk : TxBlk) : HeaderRest :=
  let qos := if blk.wmm then [UInt8.ofNat (blk.userPriority % 16),0] else []
  let pos := blk.headerBuf + txinfoSize + sta.txwiSize + length80211 + qos.length
  { qos
    pad := roundUp4 pos - pos
    llc := extraLlcSnapEncap ((blk.packet.drop 12).take 2)
    type := (blk.packet.drop (12 + if blk.vlan then length8021Q else 0)).take 2 }

structure Loop where
  header : Header80211
  mpduHeaderLen : Nat
  srcRemainingBytes : Nat
  srcBufData : Bytes
  fragNum : Nat

def freeMpduSize (threshold mpduHeaderLen : Nat) : Nat := (threshold + 2 ^ 32 - (lengthCrc + mpduHeaderLen)) % 2 ^ 32

/- The hardware takes the padding out that keeps the LLC header aligned. -/
def onAir (hdrLen pad : Nat) (written : Bytes) : Bytes := written.take hdrLen ++ written.drop (hdrLen + pad)

def fragmentLen (sta : TxSta) (s : Loop) : Nat :=
  if s.srcRemainingBytes ≤ freeMpduSize sta.fragmentThreshold s.mpduHeaderLen then s.srcRemainingBytes
  else freeMpduSize sta.fragmentThreshold s.mpduHeaderLen

def fragmentHeader (sta : TxSta) (blk : TxBlk) (s : Loop) : Header80211 :=
  if s.srcRemainingBytes ≤ freeMpduSize sta.fragmentThreshold s.mpduHeaderLen then
    {s.header with moreFrag := false, duration := sta.dsifs + sta.ackDuration}
  else
    let nextMpduSize := min (s.srcRemainingBytes - fragmentLen sta s) sta.fragmentThreshold
    {s.header with
      moreFrag := true
      duration := 3 * sta.dsifs + 2 * sta.ackDuration +
        sta.calcDuration (nextMpduSize + encryptionOverhead blk.cipher) }

def fragmentMpdu (sta : TxSta) (blk : TxBlk) (rest : HeaderRest) (s : Loop) : Bytes :=
  onAir (length80211 + rest.qos.length) rest.pad
    (((fragmentHeader sta blk s).bytes ++ rest.bytes).take (s.mpduHeaderLen + rest.pad) ++
      s.srcBufData.take (fragmentLen sta s))

def fragmentNext (sta : TxSta) (blk : TxBlk) (rest : HeaderRest) (s : Loop) : Loop where
  header := {fragmentHeader sta blk s with frag := (s.header.frag + 1) % 16}
  mpduHeaderLen := if s.fragNum = 0 ∧ rest.llc.isSome then s.mpduHeaderLen - length8021H else s.mpduHeaderLen
  srcRemainingBytes := s.srcRemainingBytes - fragmentLen sta s
  srcBufData := s.srcBufData.drop (fragmentLen sta s)
  fragNum := (s.fragNum + 1) % 256

def fragmentLoop (sta : TxSta) (blk : TxBlk) (rest : HeaderRest) : Nat → Loop → Option (List Bytes)
  | 0,_ => none
  | fuel + 1,s =>
    if 0 < (fragmentNext sta blk rest s).srcRemainingBytes then
      (fragmentLoop sta blk rest fuel (fragmentNext sta blk rest s)).map (fragmentMpdu sta blk rest s :: ·)
    else some [fragmentMpdu sta blk rest s]

def srcData (blk : TxBlk) : Bytes :=
  let data := blk.packet.drop (length8023 + if blk.vlan then length8021Q else 0)
  if blk.cipher = .tkip then data ++ blk.mic else data

def fragmentStart (sta : TxSta) (blk : TxBlk) : Loop where
  header := staBuildCommon80211Header sta blk
  mpduHeaderLen := length80211 + (headerRest sta blk).qos.length +
    if (headerRest sta blk).llc.isSome then length8021H else 0
  srcRemainingBytes := (srcData blk).length
  srcBufData := srcData blk
  fragNum := 0

/- The MPDUs of one frame; `none` would be a loop that makes no progress. -/
def staFragmentFrameTx (sta : TxSta) (blk : TxBlk) : Option (List Bytes) :=
  fragmentLoop sta blk (headerRest sta blk) ((srcData blk).length + 1) (fragmentStart sta blk)

def airHeader (w : Bytes) : Header := headerOf fun i => w.getD i 0

section Train
variable (threshold hdrLen sequence : Nat) (addr2 : Bytes)

structure IsFragment (k : Nat) (more : Bool) (w : Bytes) : Prop where
  frag : (airHeader w).frag = k
  more : (airHeader w).moreFrag = more
  sequence : (airHeader w).sequence = sequence
  addr2 : (airHeader w).addr2 = addr2
  header : hdrLen ≤ w.length
  length : w.length + lengthCrc ≤ threshold

inductive Train : Nat → List Bytes → Bytes → Prop where
  | last {k : Nat} {w : Bytes} : IsFragment threshold hdrLen sequence addr2 k false w → Train k [w] (w.drop hdrLen)
  | more {k : Nat} {w : Bytes} {ws : List Bytes} {c : Bytes} : IsFragment threshold hdrLen sequence addr2 k true w →
      Train (k + 1) ws c → Train k (w :: ws) (w.drop hdrLen ++ c)

end Train

theorem bytesAtMiddle (a b c) : bytesAt (fun i => (a ++ (b ++ c)).getD i 0) a.length b.length = b := by
  refine ext_getElem (by simp [bytesAt]) fun i low high => ?_
  simp [bytesAt,getD_eq_getElem?_getD,List.getElem?_append_right,List.getElem?_append_left high,high]

theorem headerLength (h : Header80211) : h.bytes.length = length80211 := by
  simp [Header80211.bytes,Header80211.front,Header80211.control,h.addr1.property,h.addr2.property,h.addr3.property,
    length80211]

theorem fc1MoreFrag (h : Header80211) : h.fc1.toNat.testBit 2 = h.moreFrag := by
  unfold Header80211.fc1
  cases h.toDs <;> cases h.moreFrag <;> cases h.pwrMgmt <;> cases h.moreData <;> cases h.wep <;> decide

theorem airHeaderOf (h : Header80211) (body) (frag : h.frag < 16) (sequence : h.sequence < 4096) :
    (airHeader (h.bytes ++ body)).frag = h.frag ∧ (airHeader (h.bytes ++ body)).moreFrag = h.moreFrag ∧
      (airHeader (h.bytes ++ body)).sequence = h.sequence ∧ (airHeader (h.bytes ++ body)).addr2 = h.addr2.val := by
  have len1 := h.addr1.property
  have len2 := h.addr2.property
  have len3 := h.addr3.property
  have atControl : ∀ i, (h.bytes ++ body)[22 + i]? = (h.control ++ body)[i]? := by
    intro i
    have split : h.bytes ++ body =
        (h.front ++ (h.addr1.val ++ (h.addr2.val ++ h.addr3.val))) ++ (h.control ++ body) := by
      simp [Header80211.bytes]
    rw [split,List.getElem?_append_right (by simp [Header80211.front,len1,len2,len3])]
    simp [Header80211.front,len1,len2,len3]
  refine ⟨?_,fc1MoreFrag h,?_,?_⟩
  · show ((h.bytes ++ body).getD (22 + 0) 0).toNat % 16 = h.frag
    rw [getD_eq_getElem?_getD,atControl]
    simp [Header80211.control]
    omega
  · show ((h.bytes ++ body).getD (22 + 0) 0).toNat / 16 + ((h.bytes ++ body).getD (22 + 1) 0).toNat * 16 = h.sequence
    rw [getD_eq_getElem?_getD,getD_eq_getElem?_getD,atControl,atControl]
    simp [Header80211.control]
    omega
  · have split : h.bytes ++ body =
        (h.front ++ h.addr1.val) ++ (h.addr2.val ++ (h.addr3.val ++ (h.control ++ body))) := by
      simp [Header80211.bytes]
    have middle := bytesAtMiddle (h.front ++ h.addr1.val) h.addr2.val (h.addr3.val ++ (h.control ++ body))
    show bytesAt (fun i => (h.bytes ++ body).getD i 0) 10 6 = h.addr2.val
    rw [split]
    simpa [Header80211.front,len1,len2] using middle

theorem onAirTake (front tail chunk pad n) :
    onAir front.length pad ((front ++ (replicate pad 0 ++ tail)).take (front.length + n + pad) ++ chunk) =
      front ++ (tail.take n ++ chunk) := by
  have taken : (front ++ (replicate pad 0 ++ tail)).take (front.length + n + pad) =
      front ++ (replicate pad 0 ++ tail.take n) := by
    have total : front.length + n + pad = front.length + ((replicate pad (0 : UInt8)).length + n) := by
      rw [length_replicate]
      omega
    rw [total,take_length_add_append,take_length_add_append]
  unfold onAir
  rw [taken,append_assoc,take_left,← drop_drop,drop_left,append_assoc,
    drop_left' (by simp)]

section Sender
variable (sta : TxSta) (blk : TxBlk) {rest : HeaderRest} {s : Loop}

theorem freeMpduSizeIs (threshold hdr) (large : lengthCrc + hdr ≤ threshold) (small : threshold ≤ 2346) :
    freeMpduSize threshold hdr = threshold - (lengthCrc + hdr) := by
  unfold freeMpduSize
  omega

theorem fragmentHeaderKeeps (s) : (fragmentHeader sta blk s).frag = s.header.frag ∧
    (fragmentHeader sta blk s).sequence = s.header.sequence ∧ (fragmentHeader sta blk s).addr2 = s.header.addr2 := by
  unfold fragmentHeader
  split <;> exact ⟨rfl,rfl,rfl⟩

theorem fragmentNextKeeps (rest) (few : s.header.frag < 15) (number : s.fragNum = s.header.frag)
    (all : s.srcBufData.length = s.srcRemainingBytes) :
    (fragmentNext sta blk rest s).header.frag = s.header.frag + 1 ∧
      (fragmentNext sta blk rest s).fragNum = s.header.frag + 1 ∧
      (fragmentNext sta blk rest s).header.sequence = s.header.sequence ∧
      (fragmentNext sta blk rest s).srcBufData.length = (fragmentNext sta blk rest s).srcRemainingBytes := by
  refine ⟨?_,?_,(fragmentHeaderKeeps sta blk s).2.1,?_⟩
  · simp only [fragmentNext]
    omega
  · simp only [fragmentNext,number]
    omega
  · simp only [fragmentNext,length_drop,all]

theorem fragmentMpduIs (n) (hdr : s.mpduHeaderLen = length80211 + rest.qos.length + n) :
    fragmentMpdu sta blk rest s = ((fragmentHeader sta blk s).bytes ++ rest.qos) ++
      (rest.encap.take n ++ s.srcBufData.take (fragmentLen sta s)) := by
  have front : length80211 + rest.qos.length = ((fragmentHeader sta blk s).bytes ++ rest.qos).length := by
    rw [length_append,headerLength]
  unfold fragmentMpdu HeaderRest.bytes
  rw [hdr,front,← append_assoc]
  exact onAirTake _ _ _ _ _

theorem isFragmentOf (n) (hdr : s.mpduHeaderLen = length80211 + rest.qos.length + n)
    (large : lengthCrc + s.mpduHeaderLen ≤ sta.fragmentThreshold) (small : sta.fragmentThreshold ≤ 2346)
    (frag : s.header.frag < 16) (sequence : s.header.sequence < 4096) :
    IsFragment sta.fragmentThreshold (length80211 + rest.qos.length) s.header.sequence s.header.addr2.val s.header.frag
      (fragmentHeader sta blk s).moreFrag (fragmentMpdu sta blk rest s) := by
  obtain ⟨keepFrag,keepSequence,keepAddr⟩ := fragmentHeaderKeeps sta blk s
  have parsed := airHeaderOf (fragmentHeader sta blk s)
    (rest.qos ++ (rest.encap.take n ++ s.srcBufData.take (fragmentLen sta s)))
    (by rw [keepFrag]; exact frag) (by rw [keepSequence]; exact sequence)
  rw [← append_assoc,← fragmentMpduIs sta blk n hdr,keepFrag,keepSequence,keepAddr] at parsed
  have free := freeMpduSizeIs _ _ large small
  have chunk : fragmentLen sta s ≤ freeMpduSize sta.fragmentThreshold s.mpduHeaderLen := by
    unfold fragmentLen
    split <;> omega
  have whole := congrArg List.length (fragmentMpduIs sta blk n hdr)
  simp only [length_append,headerLength,length_take] at whole
  exact ⟨parsed.1,parsed.2.1,parsed.2.2.1,parsed.2.2.2,by omega,by omega⟩

theorem fragmentMpduContent (n) (hdr : s.mpduHeaderLen = length80211 + rest.qos.length + n) :
    (fragmentMpdu sta blk rest s).drop (length80211 + rest.qos.length) =
      rest.encap.take n ++ s.srcBufData.take (fragmentLen sta s) := by
  rw [fragmentMpduIs sta blk n hdr]
  exact drop_left' (by rw [length_append,headerLength])

theorem moreTrain (n) (hdr : s.mpduHeaderLen = length80211 + rest.qos.length + n)
    (large : lengthCrc + s.mpduHeaderLen ≤ sta.fragmentThreshold) (small : sta.fragmentThreshold ≤ 2346)
    (frag : s.header.frag < 15) (sequence : s.header.sequence < 4096)
    (more : freeMpduSize sta.fragmentThreshold s.mpduHeaderLen < s.srcRemainingBytes) {ws}
    (train : Train sta.fragmentThreshold (length80211 + rest.qos.length) (fragmentNext sta blk rest s).header.sequence
      (fragmentNext sta blk rest s).header.addr2.val (fragmentNext sta blk rest s).header.frag ws
      (fragmentNext sta blk rest s).srcBufData) :
    Train sta.fragmentThreshold (length80211 + rest.qos.length) s.header.sequence s.header.addr2.val s.header.frag
      (fragmentMpdu sta blk rest s :: ws) (rest.encap.take n ++ s.srcBufData) := by
  obtain ⟨keepFrag,keepSequence,keepAddr⟩ := fragmentHeaderKeeps sta blk s
  have fragment := isFragmentOf sta blk n hdr large small (by omega) sequence
  have flag : (fragmentHeader sta blk s).moreFrag = true := by
    unfold fragmentHeader
    rw [if_neg (by omega)]
  rw [flag] at fragment
  have next : (fragmentNext sta blk rest s).header.frag = s.header.frag + 1 := by
    simp only [fragmentNext]
    omega
  have nextSequence : (fragmentNext sta blk rest s).header.sequence = s.header.sequence := keepSequence
  have nextAddr : (fragmentNext sta blk rest s).header.addr2 = s.header.addr2 := keepAddr
  rw [next,nextSequence,nextAddr] at train
  have joined := Train.more fragment train
  have left : (fragmentNext sta blk rest s).srcBufData = s.srcBufData.drop (fragmentLen sta s) := rfl
  rw [fragmentMpduContent sta blk n hdr,left,append_assoc,take_append_drop] at joined
  exact joined

theorem loopMore {fuel ws} (left : 0 < (fragmentNext sta blk rest s).srcRemainingBytes)
    (run : fragmentLoop sta blk rest fuel (fragmentNext sta blk rest s) = some ws) :
    fragmentLoop sta blk rest (fuel + 1) s = some (fragmentMpdu sta blk rest s :: ws) := by
  rw [fragmentLoop,if_pos left,run]
  rfl

theorem laterTrain (qos : rest.qos.length ≤ 2)
    (threshold : 256 ≤ sta.fragmentThreshold ∧ sta.fragmentThreshold ≤ 2346) {n}
    (hdr : s.mpduHeaderLen = length80211 + rest.qos.length) (number : s.fragNum = s.header.frag)
    (later : 1 ≤ s.header.frag) (sequence : s.header.sequence < 4096)
    (all : s.srcBufData.length = s.srcRemainingBytes) (some : 0 < s.srcRemainingBytes)
    (enough : s.srcRemainingBytes ≤ n) (progress : 218 * s.header.frag + s.srcRemainingBytes ≤ 1500) :
    ∃ ws, fragmentLoop sta blk rest n s = .some ws ∧
      Train sta.fragmentThreshold (length80211 + rest.qos.length) s.header.sequence s.header.addr2.val s.header.frag ws
        s.srcBufData := by
  have base : length80211 = 24 := rfl
  have crc : lengthCrc = 4 := rfl
  induction n generalizing s with
  | zero => omega
  | succ n ih =>
    have free := freeMpduSizeIs sta.fragmentThreshold s.mpduHeaderLen (by omega) threshold.2
    have left : (fragmentNext sta blk rest s).srcRemainingBytes = s.srcRemainingBytes - fragmentLen sta s := rfl
    by_cases last : s.srcRemainingBytes ≤ freeMpduSize sta.fragmentThreshold s.mpduHeaderLen
    · have len : fragmentLen sta s = s.srcRemainingBytes := if_pos last
      have flag : (fragmentHeader sta blk s).moreFrag = false := by
        unfold fragmentHeader
        rw [if_pos last]
      have fragment := isFragmentOf sta blk 0 hdr (by omega) threshold.2 (by omega) sequence
      have content := fragmentMpduContent sta blk 0 hdr
      rw [take_zero,nil_append,len,take_of_length_le (by omega)] at content
      rw [flag] at fragment
      refine ⟨[fragmentMpdu sta blk rest s],?_,content ▸ Train.last fragment⟩
      rw [fragmentLoop,if_neg (by omega)]
    · have len : fragmentLen sta s = sta.fragmentThreshold - (lengthCrc + s.mpduHeaderLen) := (if_neg last).trans free
      have hdrNext : (fragmentNext sta blk rest s).mpduHeaderLen = s.mpduHeaderLen := if_neg fun first => by omega
      obtain ⟨fragNext,numNext,seqNext,allNext⟩ := fragmentNextKeeps sta blk rest (by omega) number all
      obtain ⟨ws,run,train⟩ := ih (s := fragmentNext sta blk rest s) (hdrNext.trans hdr)
        (numNext.trans fragNext.symm) (by omega) (by omega) allNext (by omega) (by omega) (by omega)
      have longer := moreTrain sta blk 0 hdr (by omega) threshold.2 (by omega) sequence (by omega) train
      exact ⟨_,loopMore sta blk (by omega) run,longer⟩

def hdrLen (blk : TxBlk) : Nat := length80211 + if blk.wmm then 2 else 0

theorem qosLength : (headerRest sta blk).qos.length = if blk.wmm then 2 else 0 := by
  simp only [headerRest]
  split <;> rfl

theorem etherParts (e : EthernetFrame) :
    (e.bytes.drop 12).take 2 = e.type ∧ e.bytes.drop length8023 = e.payload := by
  have addresses : (e.dest.val ++ e.source.val).length = 12 := by
    rw [length_append,e.dest.property,e.source.property]
  have front : e.bytes = (e.dest.val ++ e.source.val) ++ (e.type ++ e.payload) := by
    simp [EthernetFrame.bytes]
  have behind : e.bytes.drop 12 = e.type ++ e.payload := by rw [front,drop_left' addresses]
  refine ⟨by rw [behind,take_left' e.two],?_⟩
  rw [show length8023 = 12 + 2 from rfl,← drop_drop,behind,drop_left' e.two]

theorem plainStart (e : EthernetFrame) (packet : blk.packet = e.bytes) (plain : blk.cipher = .none)
    (untagged : blk.vlan = false) (ether : 1500 < type16 e.type) :
    srcData blk = e.payload ∧ (headerRest sta blk).llc.isSome = true ∧ (headerRest sta blk).encap.length = 8 ∧
      (headerRest sta blk).encap ++ e.payload = e.encapsulated := by
  obtain ⟨llc,encap,six⟩ := encapSome ether
  obtain ⟨type,payload⟩ := etherParts e
  have restLlc : (headerRest sta blk).llc = some llc := by
    simp only [headerRest,packet,type,encap]
  have restEncap : (headerRest sta blk).encap = llc ++ e.type := by
    unfold HeaderRest.encap
    rw [restLlc]
    simp only [headerRest,packet,untagged,Bool.false_eq_true,if_false,Nat.add_zero,type]
  refine ⟨?_,by rw [restLlc]; rfl,by rw [restEncap,length_append,six,e.two],?_⟩
  · simp only [srcData,packet,untagged,plain,Bool.false_eq_true,if_false,Nat.add_zero,payload,reduceCtorEq]
  · rw [restEncap,EthernetFrame.encapsulated,encap,Option.getD_some,append_assoc]

theorem trainNonempty {threshold hdr sequence k addr2 c ws}
    (train : Train threshold hdr sequence addr2 k ws c) : 1 ≤ ws.length := by
  cases train <;> simp

theorem sendsTrain (e : EthernetFrame) (packet : blk.packet = e.bytes) (plain : blk.cipher = .none)
    (untagged : blk.vlan = false) (ether : 1500 < type16 e.type) (size : e.payload.length ≤ 1500)
    (threshold : 256 ≤ sta.fragmentThreshold ∧ sta.fragmentThreshold ≤ 2346)
    (several : sta.fragmentThreshold < hdrLen blk + e.encapsulated.length + lengthCrc) :
    ∃ ws, staFragmentFrameTx sta blk = some ws ∧ 2 ≤ ws.length ∧
      Train sta.fragmentThreshold (hdrLen blk) ((takeSequence sta blk).1 % 4096)
        (staBuildCommon80211Header sta blk).addr2.val 0 ws e.encapsulated := by
  obtain ⟨src,llc,eight,body⟩ := plainStart sta blk e packet plain untagged ether
  have qos := qosLength sta blk
  have short : (headerRest sta blk).qos.length ≤ 2 := by
    rw [qos]
    split <;> omega
  have base : length80211 = 24 := rfl
  have crc : lengthCrc = 4 := rfl
  rw [← body,length_append,eight] at several
  unfold hdrLen at several ⊢
  rw [← qos] at several ⊢
  have hdr : (fragmentStart sta blk).mpduHeaderLen = length80211 + (headerRest sta blk).qos.length + 8 := by
    simp only [fragmentStart,llc,if_true]
    rfl
  have left : (fragmentStart sta blk).srcRemainingBytes = e.payload.length := congrArg List.length src
  have sequence : (fragmentStart sta blk).header.sequence < 4096 := Nat.mod_lt _ (by decide)
  have free := freeMpduSizeIs sta.fragmentThreshold (fragmentStart sta blk).mpduHeaderLen (by omega) threshold.2
  have len : fragmentLen sta (fragmentStart sta blk) =
      sta.fragmentThreshold - (lengthCrc + (fragmentStart sta blk).mpduHeaderLen) := (if_neg (by omega)).trans free
  obtain ⟨s,next⟩ : ∃ s, s = fragmentNext sta blk (headerRest sta blk) (fragmentStart sta blk) := ⟨_,rfl⟩
  have nextLeft : s.srcRemainingBytes = e.payload.length - fragmentLen sta (fragmentStart sta blk) := by
    rw [next,← left]
    rfl
  have nextHdr : s.mpduHeaderLen = (fragmentStart sta blk).mpduHeaderLen - 8 := by
    rw [next]
    exact if_pos ⟨rfl,llc⟩
  have zero : (fragmentStart sta blk).header.frag = 0 := rfl
  obtain ⟨nextFrag,nextNum,nextSeq,nextAll⟩ :=
    fragmentNextKeeps sta blk (headerRest sta blk) (s := fragmentStart sta blk) (by omega) rfl rfl
  rw [← next] at nextFrag nextNum nextSeq nextAll
  obtain ⟨ws,run,train⟩ := laterTrain sta blk short threshold (s := s) (n := e.payload.length) (by omega)
    (by omega) (by omega) (by omega) nextAll (by omega) (by omega) (by omega)
  rw [next] at run train nextLeft
  have whole := moreTrain sta blk 8 hdr (by omega) threshold.2 (by decide : 0 < 15) sequence (by omega) train
  rw [take_of_length_le (by omega)] at whole
  have content : (fragmentStart sta blk).srcBufData = e.payload := src
  rw [content,body] at whole
  rw [← src] at run
  refine ⟨_,loopMore sta blk (by omega) run,?_,whole⟩
  have nonempty := trainNonempty train
  rw [length_cons]
  omega

end Sender

def packets (sta : RxSta) : State → List Arrival → List RxBlk
  | _,[] => []
  | s,a :: rest => (call sta s a).2.toList ++ packets sta (step sta s a) rest

structure Received (hdr pad : Nat) (w : Bytes) (a : Arrival) : Prop where
  frame : ∀ i, i < length80211 → a.rx.frame i = w.getD i 0
  room : a.rx.room = hdr + pad
  data : body a.rx = w.drop hdr

def BeginsWithSnap (a : Arrival) : Prop := bytesAt a.rx.data 0 6 = snap8021H

theorem headerOfCongr {f g} (same : ∀ i, i < length80211 → f i = g i) : headerOf f = headerOf g := by
  have range : ∀ offset len, offset + len ≤ 24 → bytesAt f offset len = bytesAt g offset len := by
    intro offset len inside
    refine map_congr_left fun i mem => same _ ?_
    have := mem_range.mp mem
    show offset + i < 24
    omega
  unfold headerOf
  rw [same 0 (by decide),same 1 (by decide),same 22 (by decide),same 23 (by decide),range 10 6 (by decide),
    range 16 6 (by decide)]

theorem Received.header {hdr pad w a} (received : Received hdr pad w a) :
    a.rx.header = airHeader w := headerOfCongr received.frame

section Receiver
variable {sta : RxSta} {threshold hdr sequence pad k : Nat} {addr2 c w : Bytes} {ws : List Bytes} {s : State}
  {parts : List RxBlk} {as : List Arrival} {a : Arrival} {more : Bool}

theorem trainSilent (train : Train threshold hdr sequence addr2 k ws c)
    (received : Forall₂ (Received hdr pad) ws as) (missed : s.frame.lastFrag + 1 < k) : packets sta s as = [] := by
  have broken : ∀ {k more w a s}, IsFragment threshold hdr sequence addr2 k more w → Received hdr pad w a →
      s.frame.lastFrag + 1 < k → (call sta s a).2 = none ∧ (call sta s a).1.lastFrag = 0 := by
    intro k more w a s fragment received missed
    have kind : kindOf sta.rxwiSize s.frame a.rx = .broken := by
      unfold kindOf
      rw [received.header,fragment.frag,if_neg (by omega),if_pos (.inr (by omega))]
    obtain ⟨packet,result⟩ := callKind sta s a
    rw [result,kind]
    exact ⟨rfl,rfl⟩
  induction train generalizing s as with
  | last fragment =>
    cases received with
    | cons head tail =>
      cases tail
      rw [packets,(broken fragment head missed).1]
      rfl
  | more fragment train ih =>
    cases received with
    | cons head tail =>
      obtain ⟨nothing,reset⟩ := broken fragment head missed
      rw [packets,nothing,ih tail (show (call sta s _).1.lastFrag + 1 < _ by omega)]
      rfl

structure Waiting (sta : RxSta) (sequence pad hdr k : Nat) (s : State) (parts : List RxBlk) : Prop where
  held : Collected sta.rxwiSize s.frame s.arrived parts
  sequence : s.frame.sequence = sequence
  next : k = s.frame.lastFrag + 1
  room : ∀ x ∈ parts.head?, x.room = hdr + pad

section
variable (waiting : Waiting sta sequence pad hdr k s parts)
include waiting

theorem Waiting.begun : parts ≠ [] := by
  rintro rfl
  cases waiting.held.last

theorem Waiting.size :
    s.frame.rxSize = sta.rxwiSize + (hdr + pad) + (parts.flatMap body).length := by
  have head := head?_eq_some_head waiting.begun
  rw [waiting.held.size _ head,waiting.room _ head]

theorem Waiting.kind (fragment : IsFragment threshold hdr sequence addr2 k more w) (received : Received hdr pad w a)
    (fits : hdr + pad + (parts.flatMap body).length + (w.drop hdr).length ≤ maxFrameSize) :
    (BeginsWithSnap a → kindOf sta.rxwiSize s.frame a.rx = .encapsulated) ∧
      (¬ BeginsWithSnap a → kindOf sta.rxwiSize s.frame a.rx = .taken) := by
  have size := waiting.size
  have next := waiting.next
  have len := bodyLength a.rx
  rw [received.data] at len
  have inSequence := fragment.sequence.trans waiting.sequence.symm
  unfold kindOf BeginsWithSnap
  rw [received.header,fragment.frag,if_neg (by omega),if_neg (by omega),if_neg (by omega)]
  exact ⟨fun snap => if_pos snap,fun plain => if_neg plain⟩

theorem Waiting.taken (fragment : IsFragment threshold hdr sequence addr2 k more w) (received : Received hdr pad w a) :
    Collected sta.rxwiSize (nextFragment s.frame a.rx) (s.arrived ++ [a.rx]) (parts ++ [a.rx]) := by
  refine waiting.held.taken ?_
  rw [received.header,fragment.sequence,fragment.frag]
  exact ⟨waiting.sequence.symm,waiting.next⟩

theorem Waiting.after (fragment : IsFragment threshold hdr sequence addr2 k true w) (received : Received hdr pad w a)
    (kind : kindOf sta.rxwiSize s.frame a.rx = .taken) :
    (call sta s a).2 = none ∧ Waiting sta sequence pad hdr (k + 1) (step sta s a) (parts ++ [a.rx]) := by
  have moreFrag : a.rx.header.moreFrag = true := by rw [received.header,fragment.more]
  obtain ⟨packet,result⟩ := callKind sta s a
  rw [kind] at result
  simp only [moreFrag,if_true] at result
  have frame : (step sta s a).frame = nextFragment s.frame a.rx := congrArg Prod.fst result
  refine ⟨congrArg Prod.snd result,?_,?_,?_,?_⟩
  · rw [frame]
    exact waiting.taken fragment received
  · rw [frame]
    exact waiting.sequence
  · rw [frame]
    simp only [nextFragment,received.header,fragment.frag]
  · rw [head?_append_of_ne_nil _ waiting.begun]
    exact waiting.room

theorem Waiting.ends (chip : sta.rxwiSize < 256)
    (fragment : IsFragment threshold hdr sequence addr2 k false w) (received : Received hdr pad w a)
    (kind : kindOf sta.rxwiSize s.frame a.rx = .taken) :
    ∃ msdu, (call sta s a).2 = some msdu ∧ body msdu = parts.flatMap body ++ w.drop hdr := by
  have noMore : a.rx.header.moreFrag = false := by rw [received.header,fragment.more]
  obtain ⟨packet,result⟩ := callKind sta s a
  rw [kind] at result
  simp only [noMore] at result
  have fits := (kindTaken.mp kind).2.2.2.1
  have small : maxFrameSize = 2346 := rfl
  have head := head?_eq_some_head waiting.begun
  have room := (waiting.room _ head).trans received.room.symm
  rw [← head?_append_of_ne_nil parts waiting.begun] at head
  have content := reassembledContent (waiting.taken fragment received) head room
    (by simp only [nextFragment]; omega)
  refine ⟨_,congrArg Prod.snd result,?_⟩
  rw [content.1,flatMap_append,flatMap_singleton,received.data]

end

theorem trainOut (chip : sta.rxwiSize < 256) (train : Train threshold hdr sequence addr2 k ws c)
    (received : Forall₂ (Received hdr pad) ws as) (waiting : Waiting sta sequence pad hdr k s parts)
    (fits : hdr + pad + (parts.flatMap body).length + c.length ≤ maxFrameSize) :
    ((∀ a ∈ as, ¬ BeginsWithSnap a) → ∃ msdu, packets sta s as = [msdu] ∧ body msdu = parts.flatMap body ++ c) ∧
      ((∃ a ∈ as, BeginsWithSnap a) → packets sta s as = []) := by
  induction train generalizing s as parts with
  | last fragment =>
    cases received with
    | @cons _ a _ _ head tail =>
      cases tail
      obtain ⟨ignored,kind⟩ := waiting.kind fragment head fits
      constructor
      · intro plain
        obtain ⟨msdu,out,content⟩ := waiting.ends chip fragment head (kind (plain a mem_cons_self))
        exact ⟨msdu,by simp [packets,out],content⟩
      · rintro ⟨b,mem,snap⟩
        rw [mem_singleton.mp mem] at snap
        obtain ⟨packet,result⟩ := callKind sta s a
        rw [packets,result,ignored snap]
        rfl
  | @more k w ws c fragment train ih =>
    cases received with
    | @cons _ a _ as head tail =>
      rw [length_append] at fits
      obtain ⟨ignored,kind⟩ := waiting.kind fragment head (by omega)
      by_cases snap : BeginsWithSnap a
      · refine ⟨fun plain => absurd snap (plain a mem_cons_self),fun _ => ?_⟩
        obtain ⟨packet,result⟩ := callKind sta s a
        rw [ignored snap] at result
        have frame : (step sta s a).frame = s.frame := congrArg Prod.fst result
        have next := waiting.next
        rw [packets,trainSilent train tail (by rw [frame]; omega),result]
        rfl
      · obtain ⟨nothing,after⟩ := waiting.after fragment head (kind snap)
        have joined : (parts ++ [a.rx]).flatMap body = parts.flatMap body ++ w.drop hdr := by
          rw [flatMap_append,flatMap_singleton,head.data]
        have rest := ih tail after (by rw [joined,length_append]; omega)
        rw [joined,append_assoc] at rest
        rw [packets,nothing]
        refine ⟨fun plain => rest.1 fun b mem => plain b (mem_cons_of_mem a mem),?_⟩
        rintro ⟨b,mem,begins⟩
        rcases mem_cons.mp mem with rfl | later
        · exact absurd begins snap
        · exact rest.2 ⟨b,later,begins⟩

end Receiver

theorem trainShape {threshold hdr sequence k addr2 c ws} (train : Train threshold hdr sequence addr2 k ws c) :
    (∀ w ∈ ws, w.length + lengthCrc ≤ threshold ∧ (airHeader w).sequence = sequence) ∧
      ws.map (fun w => (airHeader w).frag) = List.range' k ws.length ∧
      ws.map (fun w => (airHeader w).moreFrag) = replicate (ws.length - 1) true ++ [false] := by
  induction train with
  | last fragment => exact ⟨by simp [fragment.length,fragment.sequence],by simp [fragment.frag],by simp [fragment.more]⟩
  | @more k w ws c fragment train ih =>
    obtain ⟨each,numbers,flags⟩ := ih
    have nonempty := trainNonempty train
    refine ⟨?_,?_,?_⟩
    · intro v mem
      rcases mem_cons.mp mem with rfl | later
      · exact ⟨fragment.length,fragment.sequence⟩
      · exact each v later
    · rw [map_cons,fragment.frag,numbers,length_cons,range'_succ]
    · have count : (w :: ws).length - 1 = (ws.length - 1) + 1 := by
        rw [length_cons]
        omega
      rw [map_cons,fragment.more,flags,count,replicate_succ,cons_append]

theorem waitingFirst (sta s) {threshold hdr sequence pad addr2 w a}
    (fragment : IsFragment threshold hdr sequence addr2 0 true w) (received : Received hdr pad w a) :
    (call sta s a).2 = none ∧ Waiting sta sequence pad hdr 1 (step sta s a) [a.rx] := by
  have zero : a.rx.header.frag = 0 := by rw [received.header,fragment.frag]
  have more : a.rx.header.moreFrag = true := by rw [received.header,fragment.more]
  obtain ⟨packet,result⟩ := callKind sta s a
  rw [kindFirst.mpr ⟨zero,more⟩] at result
  have frame : (step sta s a).frame = firstFragment sta.rxwiSize s.frame a.rx := congrArg Prod.fst result
  refine ⟨congrArg Prod.snd result,?_,?_,?_,?_⟩
  · rw [frame]
    exact collectedFirst zero
  · rw [frame]
    simp only [firstFragment,received.header,fragment.sequence]
  · rw [frame]
    simp only [firstFragment,zero]
  · intro x mem
    cases Option.some.inj mem
    exact received.room

structure Inverse (threshold : Nat) (rsta : RxSta) (f : FragFrame) (ws : List Bytes) (as : List Arrival)
    (content : Bytes) : Prop where
  lengths : ∀ w ∈ ws, w.length + lengthCrc ≤ threshold
  numbered : ws.map (fun w => (airHeader w).frag) = range ws.length
  oneSequence : ∀ w ∈ ws, ∀ v ∈ ws, (airHeader w).sequence = (airHeader v).sequence
  moreFrag : ws.map (fun w => (airHeader w).moreFrag) = replicate (ws.length - 1) true ++ [false]
  packet : ∃ msdu, packets rsta ⟨f,[],none⟩ as = [msdu] ∧ body msdu = content

theorem packetsOfTrain {rsta} (chip : rsta.rxwiSize < 256) {threshold hdr sequence pad addr2 c ws as}
    (train : Train threshold hdr sequence addr2 0 ws c)
    (several : 2 ≤ ws.length) (received : Forall₂ (Received hdr pad) ws as) (short : c.length ≤ 1508)
    (s : State) : (∃ msdu, packets rsta s as = [msdu] ∧ body msdu = c) ↔ ∀ a ∈ as.tail, ¬ BeginsWithSnap a := by
  cases train with
  | last fragment => exact absurd several (by simp)
  | @more _ w ws c fragment train =>
    cases received with
    | @cons _ a _ as head tail =>
      obtain ⟨nothing,waiting⟩ := waitingFirst rsta s fragment head
      have room := a.room
      rw [head.room] at room
      have small : maxFrameSize = 2346 := rfl
      have front : [a.rx].flatMap body = w.drop hdr := by rw [flatMap_singleton,head.data]
      rw [length_append] at short
      obtain ⟨out,silent⟩ := trainOut chip train tail waiting (by rw [front]; omega)
      rw [front] at out
      rw [packets,nothing,tail_cons]
      constructor
      · rintro ⟨msdu,one,-⟩ b mem snap
        have none : packets rsta (step rsta s a) as = [] := silent ⟨b,mem,snap⟩
        rw [none] at one
        cases one
      · intro plain
        exact out plain

theorem fragmentsInverse (sta : TxSta) (blk : TxBlk) (e : EthernetFrame) (packet : blk.packet = e.bytes)
    (plain : blk.cipher = .none) (untagged : blk.vlan = false) (ether : 1500 < type16 e.type)
    (size : 1 ≤ e.payload.length ∧ e.payload.length ≤ 1500)
    (threshold : 256 ≤ sta.fragmentThreshold ∧ sta.fragmentThreshold ≤ 2346)
    (several : sta.fragmentThreshold < hdrLen blk + e.encapsulated.length + lengthCrc) :
    ∃ ws, staFragmentFrameTx sta blk = some ws ∧ 2 ≤ ws.length ∧
      ∀ (rsta : RxSta) (f : FragFrame) (pad : Nat) (as : List Arrival), rsta.rxwiSize < 256 →
        List.Forall₂ (Received (hdrLen blk) pad) ws as →
          (Inverse sta.fragmentThreshold rsta f ws as e.encapsulated ↔ ∀ a ∈ as.tail, ¬ BeginsWithSnap a) := by
  obtain ⟨ws,sent,two,train⟩ := sendsTrain sta blk e packet plain untagged ether size.2 threshold several
  obtain ⟨each,numbers,flags⟩ := trainShape train
  obtain ⟨llc,encap,six⟩ := encapSome ether
  have short : e.encapsulated.length ≤ 1508 := by
    rw [EthernetFrame.encapsulated,encap,Option.getD_some,length_append,length_append,six,e.two]
    omega
  refine ⟨ws,sent,two,?_⟩
  intro rsta f pad as chip received
  rw [← packetsOfTrain chip train two received short ⟨f,[],none⟩]
  constructor
  · exact Inverse.packet
  · intro out
    refine ⟨fun w mem => (each w mem).1,?_,?_,flags,out⟩
    · rw [numbers,range_eq_range']
    · intro w memW v memV
      rw [(each w memW).2,(each v memV).2]

def sampleTxSta : TxSta where
  infra := true
  adhoc := false
  bssid := ⟨replicate 6 9,rfl⟩
  currentAddress := ⟨replicate 6 7,rfl⟩
  sequence := 0
  apsdForcePowerSave := false
  pktPmBit := false
  fragmentThreshold := 256
  dsifs := 10
  ackDuration := 40
  calcDuration := fun _ => 100
  txwiSize := 20

def sampleEthernet (ending : Bytes) : EthernetFrame :=
  ⟨⟨replicate 6 3,rfl⟩,⟨replicate 6 7,rfl⟩,[0x08,0x00],replicate 220 0 ++ ending,rfl⟩

def sampleBlk (ending : Bytes) : TxBlk where
  wmm := false
  forceNonQos := false
  entry := some ⟨0,fun _ => 5⟩
  userPriority := 0
  moreData := false
  cipher := .none
  vlan := false
  packet := (sampleEthernet ending).bytes
  headerBuf := 0
  mic := []

def sampleReceived (w : Bytes) : Arrival :=
  arrivalOf {sampleRx 0 false with
      frame := fun i => w.getD i 0
      room := 24
      dataSize := BitVec.ofNat 16 ((w.length - 24) % 16384)} rfl (by
    show (BitVec.ofNat 16 ((w.length - 24) % 16384)).toNat < 16384
    rw [BitVec.toNat_ofNat]
    omega)

theorem sampleReceivedIs {w} (short : w.length < 16384) : Received 24 0 w (sampleReceived w) where
  frame := fun _ _ => rfl
  room := rfl
  data := by
    have size : (BitVec.ofNat 16 ((w.length - 24) % 16384)).toNat = w.length - 24 := by
      rw [BitVec.toNat_ofNat]
      omega
    show bytesAt (fun i => w.getD (24 + i) 0) 0 (BitVec.ofNat 16 ((w.length - 24) % 16384)).toNat = w.drop 24
    rw [size]
    refine ext_getElem (by simp [bytesAt]) fun i low high => ?_
    have inside : 24 + i < w.length := by
      rw [length_drop] at high
      omega
    simp [bytesAt,getD_eq_getElem?_getD,inside]

def sampleMpdus (ending : Bytes) : List Bytes :=
  let addresses := replicate 6 9 ++ (replicate 6 7 ++ replicate 6 3)
  [[0x08,0x05,0xd2,0] ++ (addresses ++ ([0x50,0] ++ (snap8021H ++ ([0x08,0x00] ++ replicate 220 0)))),
    [0x08,0x01,50,0] ++ (addresses ++ ([0x51,0] ++ ending))]

theorem sampleSent : staFragmentFrameTx sampleTxSta (sampleBlk [1,2,3,4,5]) = some (sampleMpdus [1,2,3,4,5]) ∧
      staFragmentFrameTx sampleTxSta (sampleBlk [0xaa,0xaa,0x03,0,0]) = some (sampleMpdus [0xaa,0xaa,0x03,0,0]) ∧
      (sampleEthernet [1,2,3,4,5]).payload.length = 225 ∧ (sampleEthernet [1,2,3,4,5]).encapsulated.length = 233 ∧
      (packets (sampleRxSta 1) ⟨⟨fun _ => 0,0,0,0⟩,[],none⟩
        ((sampleMpdus [0xaa,0xaa,0x03,0,0]).map sampleReceived)).length = 0 := by
  decide +kernel

theorem sampleMpdusReceived (ending) (short : ending.length ≤ 5) :
    Forall₂ (Received 24 0) (sampleMpdus ending) ((sampleMpdus ending).map sampleReceived) := by
  unfold sampleMpdus
  refine .cons (sampleReceivedIs ?_) (.cons (sampleReceivedIs ?_) .nil)
  · simp only [snap8021H,length_append,length_cons,length_replicate,length_nil]
    omega
  · simp only [length_append,length_cons,length_replicate,length_nil]
    omega

theorem fragmentsInverseTwo :
    staFragmentFrameTx sampleTxSta (sampleBlk [1,2,3,4,5]) = some (sampleMpdus [1,2,3,4,5]) ∧
      Inverse 256 (sampleRxSta 1) ⟨fun _ => 0,0,0,0⟩ (sampleMpdus [1,2,3,4,5])
        ((sampleMpdus [1,2,3,4,5]).map sampleReceived) (sampleEthernet [1,2,3,4,5]).encapsulated := by
  obtain ⟨evaluated,-,size,content,-⟩ := sampleSent
  obtain ⟨ws,sent,-,inverse⟩ := fragmentsInverse sampleTxSta (sampleBlk [1,2,3,4,5]) (sampleEthernet [1,2,3,4,5])
    rfl rfl rfl (by decide) ⟨by omega,by omega⟩ (by decide) (by rw [content]; decide)
  cases Option.some.inj (evaluated.symm.trans sent)
  refine ⟨evaluated,(inverse _ _ 0 _ (by decide) (sampleMpdusReceived _ (by decide))).mpr fun a mem snap => ?_⟩
  rw [mem_singleton.mp mem] at snap
  exact absurd (congrArg List.head? snap) (by decide)

theorem shortFragmentDropped :
    staFragmentFrameTx sampleTxSta (sampleBlk [0xaa,0xaa,0x03,0,0]) = some (sampleMpdus [0xaa,0xaa,0x03,0,0]) ∧
      List.Forall₂ (Received 24 0) (sampleMpdus [0xaa,0xaa,0x03,0,0])
        ((sampleMpdus [0xaa,0xaa,0x03,0,0]).map sampleReceived) ∧
      (∀ w ∈ (sampleMpdus [0xaa,0xaa,0x03,0,0]).tail, ¬ snap8021H <+: w.drop 24) ∧
      packets (sampleRxSta 1) ⟨⟨fun _ => 0,0,0,0⟩,[],none⟩
        ((sampleMpdus [0xaa,0xaa,0x03,0,0]).map sampleReceived) = [] ∧
      ¬ Inverse 256 (sampleRxSta 1) ⟨fun _ => 0,0,0,0⟩ (sampleMpdus [0xaa,0xaa,0x03,0,0])
        ((sampleMpdus [0xaa,0xaa,0x03,0,0]).map sampleReceived) (sampleEthernet [0xaa,0xaa,0x03,0,0]).encapsulated := by
  have silent : packets (sampleRxSta 1) ⟨⟨fun _ => 0,0,0,0⟩,[],none⟩
      ((sampleMpdus [0xaa,0xaa,0x03,0,0]).map sampleReceived) = [] := length_eq_zero_iff.mp sampleSent.2.2.2.2
  refine ⟨sampleSent.2.1,sampleMpdusReceived _ (by decide),by decide,silent,fun inverse => ?_⟩
  obtain ⟨msdu,one,-⟩ := inverse.packet
  rw [silent] at one
  cases one

end RtmpDriver.TxFragment
