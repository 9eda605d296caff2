import RtmpDriver.Amsdu
import RtmpDriver.TxFragment

/-! STA_AMSDU_Frame_Tx against deaggregate_AMSDU_announce. The sender pads each subframe when it comes to the next one;
the receiver stops at a subframe whose rounded size is below 32. -/
namespace RtmpDriver.AmsduTx
open EapolFrame LlcSnap ByteMemory Amsdu List
open TxFragment (TxSta TxBlk length8021Q roundUp4 staBuildCommon80211Header)

def amsduSubheadLen : Nat := 14
def mcastWcid : UInt8 := 0
def rxBufferAggresize : Nat := 3840

structure Packet where
  bytes : Bytes
  wcid : UInt8
  dhcp : Bool
  eapol : Bool
  wai : Bool
  vlan : Bool
  llcSnap : Bool
  deriving DecidableEq, Repr

inductive TxFrameType where
  | legacy | amsdu | ralink
  deriving DecidableEq, Repr

structure Batch where
  frameType : TxFrameType
  totalFrameLen : Nat
  packets : List Packet
  deriving DecidableEq, Repr

structure TxPort where
  infra : Bool
  opModeSta : Bool

def canDoAggregateTransmit (port : TxPort) (p : Packet) (blk : Batch) : Bool :=
  let minLen := length8023 + if p.vlan then length8021Q else if p.llcSnap then 8 else 0
  if p.wcid = mcastWcid then false
  else if p.dhcp ∨ p.eapol ∨ p.wai then false
  else if p.bytes.length ≤ minLen then false
  else if blk.frameType = .amsdu ∧ rxBufferAggresize - 100 < blk.totalFrameLen + p.bytes.length then false
  else if blk.frameType = .ralink ∧ blk.packets.length = 2 then false
  else port.infra && port.opModeSta

def aggregate (port : TxPort) (hasTxDesc : Packet → Bool) : Batch → List Packet → Batch
  | blk,[] => blk
  | blk,p :: queue =>
    if hasTxDesc p && canDoAggregateTransmit port p blk then
      aggregate port hasTxDesc
        {blk with totalFrameLen := blk.totalFrameLen + p.bytes.length, packets := blk.packets ++ [p]} queue
    else blk

def srcData (p : Packet) : Bytes := p.bytes.drop (length8023 + if p.vlan then length8021Q else 0)
def typeField (p : Packet) : Bytes := (p.bytes.drop (12 + if p.vlan then length8021Q else 0)).take 2

def subFramePayloadLen (p : Packet) : Nat :=
  ((srcData p).length + if (extraLlcSnapEncap (typeField p)).isSome then length8021H else 0) % 65536

def padding (payloadLen : Nat) : Nat := roundUp4 (amsduSubheadLen + payloadLen) - (amsduSubheadLen + payloadLen)

def encap (p : Packet) : Bytes :=
  match extraLlcSnapEncap (typeField p) with
  | some llc => llc ++ typeField p
  | none => []

def subframe (p : Packet) : Bytes :=
  p.bytes.take 12 ++ ([UInt8.ofNat (subFramePayloadLen p / 256),UInt8.ofNat (subFramePayloadLen p % 256)] ++
    (encap p ++ srcData p))

def amsduBody : Option Nat → List Packet → Bytes
  | _,[] => []
  | none,p :: rest => subframe p ++ amsduBody (some (subFramePayloadLen p)) rest
  | some before,p :: rest =>
    replicate (padding before) 0 ++ (subframe p ++ amsduBody (some (subFramePayloadLen p)) rest)

/- The 802.11 header with the QoS control, where 0x80 marks an A-MSDU; `ackPolicy` is that of the queue. -/
def staBuildAmsduFrameHeader (sta : TxSta) (blk : TxBlk) (ackPolicy : Nat) : Bytes :=
  (staBuildCommon80211Header sta blk).bytes ++
    [UInt8.ofNat ((blk.userPriority % 16 ||| ackPolicy * 32) % 256 ||| 0x80),0]

def staAmsduFrameTx (sta : TxSta) (blk : TxBlk) (ackPolicy : Nat) (packets : List Packet) : Bytes :=
  let first := match packets with
    | p :: _ => p.bytes
    | [] => []
  staBuildAmsduFrameHeader sta {blk with packet := first} ackPolicy ++ amsduBody none packets

def IsEthernet (p : Packet) (e : EthernetFrame) : Prop := p.bytes = e.bytes ∧ p.vlan = false

def announced (visits : List Visit) : List Bytes := visits.filterMap fun v => v.handled.bind Handled.packet

structure Sendable (e : EthernetFrame) : Prop where
  ether : 1500 < type16 e.type
  some : 1 ≤ e.payload.length
  most : e.payload.length ≤ 1500

def subframeOf (e : EthernetFrame) (llc : Bytes) : Bytes :=
  (e.dest.val ++ e.source.val) ++
    ([UInt8.ofNat ((8 + e.payload.length) / 256),UInt8.ofNat ((8 + e.payload.length) % 256)] ++
      ((llc ++ e.type) ++ e.payload))

variable {p : Packet} {e : EthernetFrame} {env : Env} {m : Nat → UInt8} {pos remaining fuel : Nat} {llc : Bytes}

theorem subframeIs (is : IsEthernet p e) (encapsulation : extraLlcSnapEncap e.type = some llc)
    (most : e.payload.length ≤ 1500) :
    subframe p = subframeOf e llc ∧ subFramePayloadLen p = 8 + e.payload.length := by
  obtain ⟨bytes,untagged⟩ := is
  obtain ⟨type,payload⟩ := TxFragment.etherParts e
  have data : srcData p = e.payload := by
    simp only [srcData,bytes,untagged,Bool.false_eq_true,if_false,Nat.add_zero,payload]
  have field : typeField p = e.type := by
    simp only [typeField,bytes,untagged,Bool.false_eq_true,if_false,Nat.add_zero,type]
  have addresses : p.bytes.take 12 = e.dest.val ++ e.source.val := by
    have front : e.bytes = (e.dest.val ++ e.source.val) ++ (e.type ++ e.payload) := by simp [EthernetFrame.bytes]
    rw [bytes,front,take_left' (by rw [length_append,e.dest.property,e.source.property])]
  have len : subFramePayloadLen p = 8 + e.payload.length := by
    simp only [subFramePayloadLen,field,encapsulation,data,Option.isSome_some,if_true]
    have eight : length8021H = 8 := rfl
    omega
  refine ⟨?_,len⟩
  unfold subframe encap subframeOf
  rw [len,field,encapsulation,data,addresses]

theorem subframeLength (six : llc.length = 6) : (subframeOf e llc).length = 22 + e.payload.length := by
  simp only [subframeOf,length_append,length_cons,length_nil,e.dest.property,e.source.property,e.two,six]
  omega

theorem holdsBytes {b n} (held : Holds m pos b) (len : b.length = n) : bytesAt m pos n = b := by
  subst len
  exact held

theorem subframeParts (six : llc.length = 6) (held : Holds m pos (subframeOf e llc)) :
    bytesAt m pos 6 = e.dest.val ∧ bytesAt m (pos + 6) 6 = e.source.val ∧
      be16 m (pos + 12) = (8 + e.payload.length) / 256 % 256 * 256 + (8 + e.payload.length) % 256 ∧
      bytesAt m (pos + 14) 6 = llc ∧ bytesAt m (pos + 20) 2 = e.type ∧ Holds m (pos + 22) e.payload := by
  unfold subframeOf at held
  obtain ⟨addresses,held⟩ := holdsAppend.mp held
  obtain ⟨dest,source⟩ := holdsAppend.mp addresses
  obtain ⟨size,held⟩ := holdsAppend.mp held
  obtain ⟨header,payload⟩ := holdsAppend.mp held
  obtain ⟨snap,type⟩ := holdsAppend.mp header
  simp only [length_append,length_cons,length_nil,e.dest.property,e.source.property,e.two,six,
    Nat.add_assoc,Nat.reduceAdd] at source size snap type payload
  have high : UInt8.ofNat ((8 + e.payload.length) / 256) = m (pos + 12) := Option.some.inj (size.get (k := 0) (by simp))
  have low : UInt8.ofNat ((8 + e.payload.length) % 256) = m (pos + 12 + 1) :=
    Option.some.inj (size.get (k := 1) (by simp))
  refine ⟨holdsBytes dest e.dest.property,holdsBytes source e.source.property,?_,holdsBytes snap six,
    holdsBytes type e.two,payload⟩
  unfold be16
  rw [← high,← low,UInt8.toNat_ofNat',UInt8.toNat_ofNat']
  omega

section
variable (sendable : Sendable e) (encapsulation : extraLlcSnapEncap e.type = some llc) (six : llc.length = 6)
  (held : Holds m pos (subframeOf e llc))
include sendable encapsulation six held

theorem acceptSubframe :
    payloadSize m pos = BitVec.ofNat 16 (8 + e.payload.length) ∧
      convertedAt m pos = ⟨e.dest.val ++ e.source.val ++ e.type,true,BitVec.ofNat 16 e.payload.length⟩ := by
  obtain ⟨dest,source,size,snap,type,-⟩ := subframeParts six held
  have most := sendable.most
  have value : be16 m (pos + 12) = 8 + e.payload.length := by omega
  have field : payloadSize m pos = BitVec.ofNat 16 (8 + e.payload.length) := by
    unfold payloadSize
    rw [value]
  refine ⟨field,?_⟩
  have front : bytesAt (fun i => m (pos + length8023 + i)) 0 6 = llc := by rw [snapBytes]; exact snap
  have behind : bytesAt (fun i => m (pos + length8023 + i)) 6 2 = e.type := by
    rw [← type]
    simp only [bytesAt,length8023,Nat.add_assoc]
    rfl
  unfold convertedAt
  rw [convertEncap encapsulation front behind,dest,source,field]
  congr 1
  apply BitVec.eq_of_toNat_eq
  have eight : length8021H = 8 := rfl
  simp only [BitVec.toNat_sub,BitVec.toNat_ofNat]
  omega

theorem announcedSubframe (cloned : env.clone pos = true) :
    (handledAt env m pos).packet = some e.bytes := by
  obtain ⟨-,converted⟩ := acceptSubframe sendable encapsulation six held
  obtain ⟨-,-,-,-,-,payload⟩ := subframeParts six held
  have most := sendable.most
  have header : (e.dest.val ++ e.source.val ++ e.type).length = 14 := by
    simp only [length_append,e.dest.property,e.source.property,e.two]
  have place : payloadAt m pos - length8023 = pos + 8 := by
    simp only [payloadAt,converted,if_true,length8023,length8021H]
    omega
  have size : (BitVec.ofNat 16 e.payload.length + BitVec.ofNat 16 length8023).toNat = 14 + e.payload.length := by
    simp only [BitVec.toNat_add,BitVec.toNat_ofNat,length8023]
    omega
  have clone : cloneAt m pos = (pos + 8,14 + e.payload.length) := by
    simp only [cloneAt,converted,if_true,place,size]
  have memory : rewritten m pos = store m (pos + 8) (e.dest.val ++ e.source.val ++ e.type) := by
    simp only [rewritten,converted,if_true,place]
  have whole : Holds (rewritten m pos) (pos + 8) ((e.dest.val ++ e.source.val ++ e.type) ++ e.payload) := by
    rw [memory]
    refine holdsAppend.mpr ⟨holdsStore,?_⟩
    rw [header,Nat.add_assoc]
    exact payload.apart (.inl (by rw [header]))
  have bytes : bytesAt (rewritten m pos) (pos + 8) (14 + e.payload.length) = e.bytes := by
    rw [holdsBytes whole (by rw [length_append,header])]
    simp [EthernetFrame.bytes]
  simp only [handledAt,cloned,if_true,clone,bytes]

theorem paddedIs (room : 22 + e.payload.length ≤ remaining) :
    sizeRefused m pos remaining = false ∧
      paddedSize m pos = 22 + e.payload.length + padding (8 + e.payload.length) := by
  obtain ⟨field,-⟩ := acceptSubframe sendable encapsulation six held
  have most := sendable.most
  have size : (subFrameSize m pos).toNat = 22 + e.payload.length := by
    simp only [subFrameSize,field,BitVec.toNat_add,BitVec.toNat_ofNat,length8023]
    omega
  constructor
  · simp only [sizeRefused,size,field,BitVec.toNat_ofNat,decide_eq_false_iff_not]
    omega
  · simp only [paddedSize,size,padding,roundUp4,amsduSubheadLen]
    omega

end

theorem paddedBody (before q rest) :
    amsduBody (some before) (q :: rest) = replicate (padding before) 0 ++ amsduBody none (q :: rest) := rfl

theorem bodyPositive (q rest) : 0 < (amsduBody none (q :: rest)).length := by
  simp [amsduBody,subframe]

theorem announcedAll {ps es} (are : Forall₂ IsEthernet ps es)
    (sendable : ∀ e ∈ es, Sendable e) (long : ∀ e ∈ es.dropLast, 7 ≤ e.payload.length) (some : es ≠ [])
    (cloned : ∀ i, env.clone i = true) (held : Holds m pos (amsduBody none ps))
    (enough : (amsduBody none ps).length < fuel) :
    ∃ visits, deaggregateAmsduAnnounce env fuel m pos (amsduBody none ps).length = .some visits ∧
      announced visits = es.map EthernetFrame.bytes := by
  induction are generalizing m pos fuel with
  | nil => exact absurd rfl some
  | @cons p e ps es is tail ih =>
    have send := sendable e mem_cons_self
    have most := send.most
    obtain ⟨llc,encapsulation,six⟩ := encapSome send.ether
    obtain ⟨sub,len⟩ := subframeIs is encapsulation most
    have body : amsduBody none (p :: ps) = subframeOf e llc ++ amsduBody (.some (8 + e.payload.length)) ps := by
      rw [← sub,← len]
      rfl
    have subLength := subframeLength (e := e) six
    rw [body] at held enough ⊢
    rw [length_append,subLength] at enough ⊢
    obtain ⟨here,rest⟩ := holdsAppend.mp held
    have packet := announcedSubframe send encapsulation six here (cloned pos)
    have visit : (visitAt env m pos
        (22 + e.payload.length + (amsduBody (.some (8 + e.payload.length)) ps).length)).handled.bind Handled.packet =
          .some e.bytes := packet
    obtain ⟨accepted,padded⟩ := paddedIs send encapsulation six here
      (Nat.le_add_right _ (amsduBody (.some (8 + e.payload.length)) ps).length)
    have fourteen : length8023 = 14 := rfl
    obtain ⟨fuel,rfl⟩ : ∃ n, fuel = n + 1 := ⟨fuel - 1,by omega⟩
    cases tail with
    | nil =>
      have nothing : (amsduBody (.some (8 + e.payload.length)) []).length = 0 := rfl
      exact ⟨_,announceLast env fuel (by omega) accepted (by omega),by simp [announced,visit]⟩
    | @cons q e' ps es is' tail =>
      have seven := long e (by simp)
      have large : 29 ≤ 22 + e.payload.length := by omega
      rw [paddedBody] at rest visit enough accepted ⊢
      obtain ⟨-,next⟩ := holdsAppend.mp rest
      rw [length_replicate,subLength] at next
      have rounds : 32 ≤ paddedSize m pos ∧ paddedSize m pos ≤ 1528 := by
        rw [padded]
        unfold padding roundUp4 amsduSubheadLen
        omega
      have positive := bodyPositive q ps
      rw [length_append,length_replicate] at enough accepted ⊢
      have left : 22 + e.payload.length + (padding (8 + e.payload.length) + (amsduBody none (q :: ps)).length) -
          paddedSize m pos = (amsduBody none (q :: ps)).length := by omega
      have place : pos + (22 + e.payload.length) + padding (8 + e.payload.length) = pos + paddedSize m pos := by omega
      rw [place] at next
      have kept : Holds (rewritten m pos) (pos + paddedSize m pos) (amsduBody none (q :: ps)) :=
        next.congr fun i low _ => rewrittenBehind (by omega)
      have short : (amsduBody none (q :: ps)).length < fuel := by omega
      obtain ⟨visits,run,packets⟩ := ih (fun e mem => sendable e (mem_cons_of_mem _ mem))
        (fun e mem => long e (by rw [dropLast_cons_cons]; exact mem_cons_of_mem _ mem)) (by simp) kept short
      rw [← left] at run
      refine ⟨_,announceMore (by omega) accepted (by omega) run,?_⟩
      rw [map_cons,← packets]
      exact filterMap_cons_some visit

theorem staAmsduBody (sta blk ackPolicy packets) :
    (staAmsduFrameTx sta blk ackPolicy packets).drop (length80211 + 2) = amsduBody none packets := by
  unfold staAmsduFrameTx staBuildAmsduFrameHeader
  exact drop_left' (by rw [length_append,TxFragment.headerLength]; rfl)

def amsduBatch (port : TxPort) (hasTxDesc : Packet → Bool) (first : Packet) (queue : List Packet) : List Packet :=
  (aggregate port hasTxDesc ⟨.amsdu,first.bytes.length,[first]⟩ queue).packets

theorem amsduInverse (port : TxPort) (hasTxDesc : Packet → Bool) (first : Packet) (queue : List Packet)
    (es : List EthernetFrame) (frames : List.Forall₂ IsEthernet (amsduBatch port hasTxDesc first queue) es)
    (several : 2 ≤ es.length) (sendable : ∀ e ∈ es, Sendable e) (long : ∀ e ∈ es.dropLast, 7 ≤ e.payload.length)
    (sta : TxSta) (blk : TxBlk) (ackPolicy : Nat) (body : Bytes)
    (sent : (staAmsduFrameTx sta blk ackPolicy (amsduBatch port hasTxDesc first queue)).drop (length80211 + 2) = body)
    (env : Env) (cloned : ∀ i, env.clone i = true) (m : Nat → UInt8) (held : Holds m 0 body) :
    ∃ visits, deaggregateAmsduAnnounce env (body.length + 1) m 0 body.length = some visits ∧
      announced visits = es.map EthernetFrame.bytes := by
  rw [staAmsduBody] at sent
  subst sent
  have nonempty : es ≠ [] := by
    intro empty
    rw [empty] at several
    cases several
  exact announcedAll frames sendable long nonempty cloned held (Nat.lt_succ_self _)

def sampleFrame (payload : Bytes) : EthernetFrame := {TxFragment.sampleEthernet [] with payload := payload}

def samplePacket (payload : Bytes) : Packet := ⟨(sampleFrame payload).bytes,1,false,false,false,false,false⟩

def sampleBatch (one two : Bytes) : List Packet :=
  amsduBatch ⟨true,true⟩ (fun _ => true) (samplePacket one) [samplePacket two]

def sampleBody (one two : Bytes) : Bytes :=
  (staAmsduFrameTx TxFragment.sampleTxSta (TxFragment.sampleBlk []) 0 (sampleBatch one two)).drop (length80211 + 2)

theorem sampleFrames : sampleBatch [1,2,3,4,5,6,7] [9] = [samplePacket [1,2,3,4,5,6,7],samplePacket [9]] ∧
      sampleBatch [1] [9] = [samplePacket [1],samplePacket [9]] := by
  decide

theorem amsduInverseTwo : ∃ visits,
    deaggregateAmsduAnnounce ⟨fun _ => true,fun _ => true⟩ ((sampleBody [1,2,3,4,5,6,7] [9]).length + 1)
        (fun i => (sampleBody [1,2,3,4,5,6,7] [9]).getD i 0) 0 (sampleBody [1,2,3,4,5,6,7] [9]).length = some visits ∧
      announced visits = [(sampleFrame [1,2,3,4,5,6,7]).bytes,(sampleFrame [9]).bytes] := by
  refine amsduInverse ⟨true,true⟩ (fun _ => true) (samplePacket [1,2,3,4,5,6,7]) [samplePacket [9]]
    [sampleFrame [1,2,3,4,5,6,7],sampleFrame [9]] ?_ (by decide) ?_ ?_ TxFragment.sampleTxSta
    (TxFragment.sampleBlk []) 0 _ rfl _ (fun _ => rfl) _ (holdsGetD _ 0)
  · rw [show amsduBatch _ _ _ _ = _ from sampleFrames.1]
    exact .cons ⟨rfl,rfl⟩ (.cons ⟨rfl,rfl⟩ .nil)
  · intro e mem
    simp only [mem_cons,not_mem_nil,or_false] at mem
    rcases mem with rfl | rfl
    · exact ⟨by decide,by decide,by decide⟩
    · exact ⟨by decide,by decide,by decide⟩
  · intro e mem
    rw [mem_singleton.mp mem]
    decide

theorem shortFrameEndsAmsdu :
    sampleBatch [1] [9] = [samplePacket [1],samplePacket [9]] ∧
      (deaggregateAmsduAnnounce ⟨fun _ => true,fun _ => true⟩ ((sampleBody [1] [9]).length + 1)
        (fun i => (sampleBody [1] [9]).getD i 0) 0 (sampleBody [1] [9]).length).map announced =
        some [(sampleFrame [1]).bytes] := by
  refine ⟨sampleFrames.2,?_⟩
  decide

end RtmpDriver.AmsduTx
