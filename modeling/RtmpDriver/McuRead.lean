import RtmpDriver.McuCommand

/-! andes_burst_read and andes_random_read. The words are asked for in chunks of InbandPacketMaxLen bytes. The two
functions differ in the bytes that a chunk spends on its address and in the bytes a word takes. -/
namespace RtmpDriver.McuRead
open McuCommand List

structure InbandPacketMaxLen where
  bytes : BitVec 32
  multiple : bytes.toNat % 48 = 0
  positive : 0 < bytes.toNat

structure Format where
  overhead : Nat
  unit : Nat
  -- a failed chunk is noted in the first word
  marks : Bool

def burstFormat (cnt : BitVec 32) : Format := ⟨4,4,cnt = 1⟩
def randomFormat : Format := ⟨0,8,false⟩

def uint32 (n : Nat) : Nat := n % 4294967296

/- rsp_len of andes_burst_read and var_len of andes_random_read. -/
def burstLen (maxLen : InbandPacketMaxLen) (cnt : BitVec 32) : Nat :=
  let words := (maxLen.bytes.toNat - 4) / 4
  let offsetNum := cnt.toNat / words
  if cnt.toNat % words ≠ 0 then uint32 (4 * (offsetNum + 1) + 4 * cnt.toNat)
  else uint32 (4 * offsetNum + 4 * cnt.toNat)

def randomLen (num : BitVec 32) : Nat := uint32 (num.toNat * 8)

structure Behaviour where
  allocated : Bool
  entry : Entry
  outcome : Nat → Outcome

inductive Write where
  | payload (index : Nat) (value : BitVec 32) (pktLen receiveLen : Nat)
  | failed

def wordAt (payload : Nat → UInt8) (p : Nat) : BitVec 32 :=
  BitVec.ofNat 32 ((payload p).toNat + 256 * (payload (p + 1)).toNat + 65536 * (payload (p + 2)).toNat +
    16777216 * (payload (p + 3)).toNat)

/- andes_burst_read_callback and andes_random_read_callback. -/
def readCallback (format : Format) (curIndex receiveLen : Nat) (rsp : Response) : List Write :=
  (range ((rsp.pktLen.toNat - format.overhead) / format.unit)).map fun i =>
    .payload (curIndex + i) (wordAt rsp.payload (4 + format.unit * i)) rsp.pktLen.toNat receiveLen

def receiveLen (maxLen total curLen : Nat) : Nat := if maxLen < total - curLen then maxLen else total - curLen

def words (format : Format) (len : Nat) : Nat := (len - format.overhead) / format.unit

structure Chunk where
  index : Nat
  len : Nat
  behaviour : Behaviour

def Chunk.sent (c : Chunk) : Sent :=
  andesSendCmdMsg c.behaviour.entry c.behaviour.outcome (andesInitCmdMsg (BitVec.ofNat 16 c.len))

def Chunk.writes (format : Format) (c : Chunk) : List Write :=
  (match c.sent.msg.handled with
    | none => []
    | some rsp => readCallback format c.index c.len rsp) ++
  (if c.sent.ret ≠ 0 ∧ format.marks then [.failed] else [])

structure Loop where
  curLen : Nat
  curIndex : Nat
  ret : Int
  written : List Write

structure Done where
  ret : Int
  written : List Write

/- The loop, for the chunks it meets one after the other; `none` where it still runs after the last of them. -/
def readLoop (format : Format) (maxLen total : Nat) : List Behaviour → Loop → Option Done
  | [],s => if s.curLen < total then none else some ⟨s.ret,s.written⟩
  | b :: rest,s =>
    if s.curLen < total then
      let chunk : Chunk := ⟨s.curIndex,receiveLen maxLen total s.curLen,b⟩
      if b.allocated then
        readLoop format maxLen total rest
          { curLen := uint32 (s.curLen + maxLen)
            curIndex := uint32 (s.curIndex + words format chunk.len)
            ret := chunk.sent.ret
            written := s.written ++ chunk.writes format }
      else some ⟨ndisStatusResources,s.written⟩
    else some ⟨s.ret,s.written⟩

def andesBurstRead (maxLen : InbandPacketMaxLen) (cnt : BitVec 32) (data : Bool) (behaviours : List Behaviour) :
    Option Done :=
  if !data then some ⟨-1,[]⟩
  else readLoop (burstFormat cnt) maxLen.bytes.toNat (burstLen maxLen cnt) behaviours ⟨0,0,0,[]⟩

def andesRandomRead (maxLen : InbandPacketMaxLen) (num : BitVec 32) (regPair : Bool) (behaviours : List Behaviour) :
    Option Done :=
  if !regPair then some ⟨-1,[]⟩
  else readLoop randomFormat maxLen.bytes.toNat (randomLen num) behaviours ⟨0,0,0,[]⟩

def Filled (done : Done) (i : Nat) : Prop := ∃ value len, .payload i value len len ∈ done.written

def FilledAll (cnt : Nat) (result : Option Done) : Prop :=
  ∀ done, result = some done → done.ret = 0 → ∀ i < cnt, Filled done i

def chunks (format : Format) (maxLen total : Nat) : List Behaviour → Nat → Nat → Option (List Chunk)
  | [],curLen,_ => if curLen < total then none else some []
  | b :: rest,curLen,curIndex =>
    if curLen < total then
      let chunk : Chunk := ⟨curIndex,receiveLen maxLen total curLen,b⟩
      if b.allocated then
        (chunks format maxLen total rest (uint32 (curLen + maxLen)) (uint32 (curIndex + words format chunk.len))).map
          (chunk :: ·)
      else none
    else some []

def Chunk.Answered (c : Chunk) : Prop :=
  c.behaviour.entry.refused = false ∧ ∃ k < cmdMsgRetransmitTimes,
    (∀ j < k, (c.behaviour.outcome j).acked = false) ∧
    ∃ rsp, c.behaviour.outcome k = .acknowledged rsp ∧ rsp.pktLen.toNat = c.len

def Chunk.Quiet (c : Chunk) : Prop :=
  c.behaviour.entry.refused = false ∧ c.behaviour.entry.interrupted = false ∧ ∀ k < cmdMsgRetransmitTimes,
    (∀ j < k, (c.behaviour.outcome j).acked = false) → (c.behaviour.outcome k).timedOut = false

def Answers (format : Format) (cnt : Nat) (asked : Option (List Chunk)) : Prop :=
  ∀ list, asked = some list → (∀ c ∈ list.getLast?, c.Quiet) →
    ∀ i < cnt, ∃ c ∈ list, c.Answered ∧ c.index ≤ i ∧ i < c.index + words format c.len

theorem attemptedQuiet {outcome ret sent n} (attempted : Attempted outcome cmdMsgRetransmitTimes 0 ret sent n) :
    (∀ j < n, (outcome j).timedOut = false) ↔ ∀ k < cmdMsgRetransmitTimes,
      (∀ j < k, (outcome j).acked = false) → (outcome k).timedOut = false := by
  have three : cmdMsgRetransmitTimes = 3 := rfl
  have some := attempted.some
  have most := attempted.most
  have last := attempted.last
  have earlier := attempted.earlier
  simp only [Nat.zero_add] at last earlier
  constructor
  · intro quiet k less unacked
    rcases Nat.lt_or_ge k n with made | notMade
    · exact quiet k made
    · rcases last with acked | all
      · rw [unacked (n - 1) (by omega)] at acked
        cases acked
      · omega
  · intro quiet j less
    exact quiet j (by omega) fun i small => earlier i (by omega)

theorem sentCode (c : Chunk) : c.sent.ret = 0 ↔ c.Quiet := by
  unfold Chunk.sent Chunk.Quiet
  cases entry : c.behaviour.entry.refused with
  | true =>
    unfold andesSendCmdMsg
    rw [entry]
    simp [ndisStatusFailure]
  | false =>
    obtain ⟨n,attempted⟩ := sentAttempted c.behaviour.entry c.behaviour.outcome
      (andesInitCmdMsg (BitVec.ofNat 16 c.len)) entry
    have code := attempted.code
    simp only [Nat.zero_add,interruptedCode] at code
    rw [code,attemptedQuiet attempted]
    exact ⟨fun both => ⟨rfl,both⟩,fun all => all.2⟩

theorem acceptedIs {len o rsp} :
    accepted len o = some rsp ↔ o = .acknowledged rsp ∧ len.toNat = rsp.pktLen.toNat ∧ len ≠ 0 := by
  cases o with
  | acknowledged other =>
    simp only [accepted,Outcome.acknowledged.injEq]
    constructor
    · intro taken
      split at taken
      next fits =>
        cases taken
        exact ⟨rfl,fits⟩
      next => cases taken
    · rintro ⟨rfl,fits⟩
      exact if_pos fits
  | submitFail => simp [accepted]
  | completeFail => simp [accepted]
  | timeout kickedOut => simp [accepted]

theorem handledAnswered (c : Chunk) (asked : c.len ≠ 0) :
    (∃ rsp, c.sent.msg.handled = some rsp ∧ rsp.pktLen.toNat = c.len) ↔ c.Answered := by
  unfold Chunk.sent Chunk.Answered
  cases entry : c.behaviour.entry.refused with
  | true =>
    unfold andesSendCmdMsg
    rw [entry]
    simp [andesInitCmdMsg]
  | false =>
    obtain ⟨n,attempted⟩ := sentAttempted c.behaviour.entry c.behaviour.outcome
      (andesInitCmdMsg (BitVec.ofNat 16 c.len)) entry
    rw [sentHandled c.behaviour.entry c.behaviour.outcome _ entry,attempted.count,Nat.zero_add]
    constructor
    · rintro ⟨rsp,handled,length⟩
      obtain ⟨response,_,_⟩ := acceptedIs.mp handled
      have some := attempted.some
      have most := attempted.most
      have three : cmdMsgRetransmitTimes = 3 := rfl
      refine ⟨rfl,n - 1,by omega,fun j less => ?_,rsp,response,length⟩
      have unacked := attempted.earlier j (by omega)
      rwa [Nat.zero_add] at unacked
    · rintro ⟨_,k,less,first,rsp,response,length⟩
      have whole := lastIsFirst attempted less (by rw [response]; rfl) first
      have short := rsp.pktLen.isLt
      have same : (BitVec.ofNat 16 c.len).toNat = c.len := by
        rw [BitVec.toNat_ofNat,Nat.mod_eq_of_lt (by omega)]
      refine ⟨rsp,acceptedIs.mpr ⟨?_,?_,fun zero => ?_⟩,length⟩
      · rw [whole,Nat.add_sub_cancel,response]
      · rw [same,length]
      · rw [zero] at same
        exact asked same.symm

theorem callbackWrites {format curIndex len rsp i} :
    (∃ value length, .payload i value length length ∈ readCallback format curIndex len rsp) ↔
      rsp.pktLen.toNat = len ∧ curIndex ≤ i ∧ i < curIndex + words format len := by
  simp only [readCallback,mem_map,mem_range,Write.payload.injEq]
  constructor
  · rintro ⟨value,length,j,less,place,_,fits,asked⟩
    rw [← asked] at fits
    refine ⟨fits,by omega,?_⟩
    rw [fits] at less
    unfold words
    omega
  · rintro ⟨fits,from_,less⟩
    refine ⟨_,len,i - curIndex,?_,by omega,rfl,fits,rfl⟩
    unfold words at less
    rw [fits]
    omega

theorem chunkWrites {format} (c : Chunk) {i} : (∃ value length, .payload i value length length ∈ c.writes format) ↔
      c.Answered ∧ c.index ≤ i ∧ i < c.index + words format c.len := by
  have noMark : ∀ value length, .payload i value length length ∉
      (if c.sent.ret ≠ 0 ∧ format.marks then [Write.failed] else []) := by
    intro value length
    split <;> simp
  simp only [Chunk.writes,mem_append,noMark,or_false]
  rcases Nat.eq_zero_or_pos c.len with none | asked
  · have empty : words format c.len = 0 := by
      rw [none,words,Nat.zero_sub,Nat.zero_div]
    constructor
    · cases handled : c.sent.msg.handled with
      | none => simp
      | some rsp =>
        intro written
        have inside := (callbackWrites.mp written).2
        omega
    · rintro ⟨_,inside⟩
      omega
  · rw [← handledAnswered c (Nat.pos_iff_ne_zero.mp asked)]
    cases handled : c.sent.msg.handled with
    | none => simp
    | some rsp =>
      simp only [callbackWrites,Option.some.injEq,exists_eq_left']

theorem loopFinishes {format maxLen total bs list} (s)
    (asked : chunks format maxLen total bs s.curLen s.curIndex = some list) : readLoop format maxLen total bs s =
      some ⟨(list.getLast?.map (·.sent.ret)).getD s.ret,s.written ++ list.flatMap (·.writes format)⟩ := by
  induction bs generalizing s list with
  | nil =>
    simp only [chunks] at asked
    split at asked
    next => cases asked
    next done =>
      cases asked
      simp [readLoop,done]
  | cons b rest ih =>
    simp only [chunks] at asked
    unfold readLoop
    split at asked
    next more =>
      rw [if_pos more]
      split at asked
      next allocated =>
        obtain ⟨later,next,rfl⟩ := Option.map_eq_some_iff.mp asked
        simp only [allocated,if_true]
        rw [ih _ next,List.getLast?_cons]
        cases later.getLast? <;> simp
      next => cases asked
    next done =>
      cases asked
      simp [done]

theorem loopFails {format maxLen total bs s} {done}
    (asked : chunks format maxLen total bs s.curLen s.curIndex = none)
    (finished : readLoop format maxLen total bs s = some done) : done.ret ≠ 0 := by
  induction bs generalizing s with
  | nil =>
    simp only [chunks] at asked
    split at asked
    next more => simp [readLoop,more] at finished
    next => cases asked
  | cons b rest ih =>
    simp only [chunks] at asked
    unfold readLoop at finished
    split at asked
    next more =>
      rw [if_pos more] at finished
      split at asked
      next allocated =>
        simp only [allocated,if_true] at finished
        exact ih (Option.map_eq_none_iff.mp asked) finished
      next failed =>
        simp only [failed,Bool.false_eq_true,if_false,Option.some.injEq] at finished
        rw [← finished]
        exact (by decide : ndisStatusResources ≠ 0)
    next => cases asked

theorem loopFilled (format maxLen total cnt bs) : FilledAll cnt (readLoop format maxLen total bs ⟨0,0,0,[]⟩) ↔
      Answers format cnt (chunks format maxLen total bs 0 0) := by
  cases asked : chunks format maxLen total bs 0 0 with
  | none =>
    refine ⟨fun _ list some => (by cases some),fun _ done finished success => ?_⟩
    exact absurd success (loopFails (s := ⟨0,0,0,[]⟩) asked finished)
  | some list =>
    have finished := loopFinishes (s := ⟨0,0,0,[]⟩) asked
    have code : (list.getLast?.map (·.sent.ret)).getD 0 = 0 ↔ ∀ c ∈ list.getLast?, c.Quiet := by
      cases last : list.getLast? with
      | none => simp
      | some c => simp [sentCode]
    have filled : ∀ i, Filled ⟨(list.getLast?.map (·.sent.ret)).getD 0,[] ++ list.flatMap (·.writes format)⟩ i ↔
        ∃ c ∈ list, c.Answered ∧ c.index ≤ i ∧ i < c.index + words format c.len := by
      intro i
      simp only [Filled,nil_append,mem_flatMap,← chunkWrites]
      constructor
      · rintro ⟨value,length,c,member,written⟩
        exact ⟨c,member,value,length,written⟩
      · rintro ⟨c,member,value,length,written⟩
        exact ⟨value,length,c,member,written⟩
    rw [finished]
    constructor
    · intro all _ same quiet i less
      cases same
      exact (filled i).mp (all _ rfl (code.mpr quiet) i less)
    · intro answers done same success i less
      cases same
      exact (filled i).mpr (answers list rfl (code.mp success) i less)

def chunkCount (w c : Nat) : Nat := if c % w ≠ 0 then c / w + 1 else c / w

theorem chunkCountMore {w c} (full : 0 < w) (more : w < c) : chunkCount w c = chunkCount w (c - w) + 1 := by
  have quotient := Nat.div_eq_sub_div full (Nat.le_of_lt more)
  have remainder := Nat.mod_eq_sub_mod (Nat.le_of_lt more)
  unfold chunkCount
  rw [quotient,remainder]
  split
  · rfl
  · rfl

theorem chunkCountLast {w c} (some : 0 < c) (last : c ≤ w) : chunkCount w c = 1 := by
  unfold chunkCount
  rcases Nat.lt_or_eq_of_le last with less | rfl
  · rw [Nat.mod_eq_of_lt less,if_pos (by omega),Nat.div_eq_of_lt less]
  · rw [Nat.mod_self,if_neg (by omega),Nat.div_self some]

section Narrow
variable {format : Format} {w total : Nat}

def need (format : Format) (w c : Nat) : Nat := format.overhead * chunkCount w c + format.unit * c

theorem needMore {c} (full : 0 < w) (more : w < c) :
    need format w c = format.overhead + format.unit * w + need format w (c - w) := by
  obtain ⟨rest,rfl⟩ := Nat.exists_eq_add_of_le (Nat.le_of_lt more)
  unfold need
  rw [chunkCountMore full more,Nat.add_sub_cancel_left,Nat.mul_add,Nat.mul_add]
  omega

theorem needPositive {c} (unit : 0 < format.unit) (some : 0 < c) : 0 < need format w c :=
  Nat.add_pos_right _ (Nat.mul_pos unit some)

theorem wordsOf (unit : 0 < format.unit) (c) : words format (format.overhead + format.unit * c) = c := by
  rw [words,Nat.add_sub_cancel_left,Nat.mul_div_cancel_left c unit]

theorem nextChunk {c curLen} (full : 0 < w) (unit : 0 < format.unit) (some : 0 < c)
    (left : total = curLen + need format w c) :
    receiveLen (format.overhead + format.unit * w) total curLen = format.overhead + format.unit * min w c ∧
      (c ≤ w → total ≤ curLen + (format.overhead + format.unit * w)) := by
  have rest : total - curLen = need format w c := by omega
  unfold receiveLen
  rw [rest]
  rcases Nat.lt_or_ge w c with more | last
  · have positive := needPositive (w := w) unit (Nat.sub_pos_of_lt more)
    rw [needMore full more,if_pos (by omega),Nat.min_eq_left (Nat.le_of_lt more)]
    exact ⟨rfl,fun last => by omega⟩
  · have once : need format w c = format.overhead + format.unit * c := by
      rw [need,chunkCountLast some last,Nat.mul_one]
    have fits := Nat.mul_le_mul_left format.unit last
    rw [once,if_neg (by omega),Nat.min_eq_right last]
    exact ⟨rfl,fun _ => by omega⟩

end Narrow

theorem burstFull (maxLen : InbandPacketMaxLen) :
    0 < (maxLen.bytes.toNat - 4) / 4 ∧ maxLen.bytes.toNat = 4 + 4 * ((maxLen.bytes.toNat - 4) / 4) := by
  have multiple := maxLen.multiple
  have positive := maxLen.positive
  omega

theorem burstNeed (maxLen) {cnt}
    (narrow : need (burstFormat cnt) ((maxLen.bytes.toNat - 4) / 4) cnt.toNat < 4294967296) :
    burstLen maxLen cnt = need (burstFormat cnt) ((maxLen.bytes.toNat - 4) / 4) cnt.toNat := by
  unfold burstLen need chunkCount burstFormat uint32 at *
  simp only at *
  split at narrow
  next rest => rw [if_pos rest,if_pos rest,Nat.mod_eq_of_lt narrow]
  next whole => rw [if_neg whole,if_neg whole,Nat.mod_eq_of_lt narrow]

theorem readsFill (maxLen : InbandPacketMaxLen) (cnt : BitVec 32) (behaviours : List Behaviour) (buffer : Bool) :
    (FilledAll cnt.toNat (andesBurstRead maxLen cnt buffer behaviours) ↔ (buffer = true →
        Answers (burstFormat cnt) cnt.toNat
          (chunks (burstFormat cnt) maxLen.bytes.toNat (burstLen maxLen cnt) behaviours 0 0))) ∧
      (FilledAll cnt.toNat (andesRandomRead maxLen cnt buffer behaviours) ↔ (buffer = true →
        Answers randomFormat cnt.toNat
          (chunks randomFormat maxLen.bytes.toNat (randomLen cnt) behaviours 0 0))) := by
  cases buffer with
  | false => simp [andesBurstRead,andesRandomRead,FilledAll]
  | true =>
    simp only [andesBurstRead,andesRandomRead,Bool.not_true,Bool.false_eq_true,if_false,true_imp_iff]
    exact ⟨loopFilled _ _ _ _ _,loopFilled _ _ _ _ _⟩

def inband48 : InbandPacketMaxLen := ⟨48,by decide,by decide⟩

def answering (pktLen : BitVec 14) : Behaviour := ⟨true,.ready false,fun _ => .acknowledged ⟨pktLen,fun _ => 0⟩⟩
def silent : Behaviour := ⟨true,.ready false,fun _ => .timeout true⟩
def refusing : Behaviour := ⟨true,.ready false,fun _ => .submitFail⟩

theorem readsUnfilled :
    ¬ FilledAll 12 (andesBurstRead inband48 12 true [silent,answering 8]) ∧
      ¬ FilledAll 1 (andesBurstRead inband48 1 true [answering 12]) ∧
      ¬ FilledAll 7 (andesRandomRead inband48 7 true [silent,answering 8]) ∧
      ¬ FilledAll 1 (andesRandomRead inband48 1 true [refusing]) := by
  refine ⟨fun all => ?_,fun all => ?_,fun all => ?_,fun all => ?_⟩
  · obtain ⟨value,len,written⟩ := all ⟨0,[.payload 11 0 8 8]⟩ rfl rfl 0 (by decide)
    simp at written
  · obtain ⟨value,len,written⟩ := all ⟨0,[]⟩ rfl rfl 0 (by decide)
    cases written
  · obtain ⟨value,len,written⟩ := all ⟨0,[.payload 6 0 8 8]⟩ rfl rfl 0 (by decide)
    simp at written
  · obtain ⟨value,len,written⟩ := all ⟨0,[]⟩ rfl rfl 0 (by decide)
    cases written

end RtmpDriver.McuRead
