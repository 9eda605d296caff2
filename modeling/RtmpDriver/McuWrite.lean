import RtmpDriver.McuRead

/-! andes_burst_write, andes_random_write, andes_read_modify_write and the two RF variants. A payload is the words
appended to it, four bytes each in little-endian order. `none` in the list of results is an allocation that fails,
`some ret` what andes_send_cmd_msg returns for the message. -/
namespace RtmpDriver.McuWrite
open McuCommand McuRead List

abbrev Word := BitVec 32

inductive CmdType where
  | burstWrite | readModifyWrite | randomWrite
  deriving DecidableEq, Repr

structure Command where
  type : CmdType
  kind : Kind
  payload : List Word
  deriving DecidableEq, Repr

def Command.bytes (msg : Command) : Nat := 4 * msg.payload.length

def kindOf (lastPacket : Bool) : Kind := if lastPacket then .answered else .posted

structure Loop where
  curLen : Nat
  curIndex : Nat
  lastPacket : Bool
  ret : Int
  sent : List Command

structure Done where
  ret : Int
  sent : List Command
  deriving DecidableEq, Repr

/- `payload` is what a message of a length carries from an index on; `none` where the loop still runs after the last
of the results. -/
def writeLoop (type : CmdType) (format : Format) (maxLen varLen : Nat) (payload : Nat → Nat → List Word) :
    List (Option Int) → Loop → Option Done
  | [],s => if s.curLen < varLen then none else some ⟨s.ret,s.sent⟩
  | result :: rest,s =>
    if s.curLen < varLen then
      let sentLen := receiveLen maxLen varLen s.curLen
      let lastPacket := s.lastPacket || sentLen < maxLen || uint32 (s.curLen + maxLen) == varLen
      match result with
      | none => some ⟨ndisStatusResources,s.sent⟩
      | some ret =>
        writeLoop type format maxLen varLen payload rest
          { curLen := uint32 (s.curLen + maxLen)
            curIndex := uint32 (s.curIndex + words format sentLen)
            lastPacket := lastPacket
            ret := ret
            sent := s.sent ++ [⟨type,kindOf lastPacket,payload s.curIndex sentLen⟩] }
    else some ⟨s.ret,s.sent⟩

def burstPayload (address : Word) (data : Nat → Word) (curIndex sentLen : Nat) : List Word :=
  (address + BitVec.ofNat 32 (curIndex * 4)) ::
    (range ((sentLen - 4) / 4)).map fun i => data (uint32 (i + curIndex))

def tablePayload {ε : Type} (unit : Nat) (encode : ε → List Word) (regPair : Nat → ε) (curIndex sentLen : Nat) :
    List Word :=
  (range (sentLen / unit)).flatMap fun i => encode (regPair (uint32 (i + curIndex)))

structure RegPair where
  register : Word
  value : Word

structure RMWReg where
  register : Word
  clearBitMask : Word
  value : Word

structure BankRfRegPair where
  bank : UInt8
  register : UInt8
  value : UInt8

structure RfRMWReg where
  bank : UInt8
  register : UInt8
  clearBitMask : UInt8
  value : UInt8

def RegPair.words (wlanMemmapOffset : Word) (r : RegPair) : List Word := [r.register + wlanMemmapOffset,r.value]

def RMWReg.words (wlanMemmapOffset : Word) (r : RMWReg) : List Word :=
  [r.register + wlanMemmapOffset,r.clearBitMask,r.value]

def rfByte (word : Word) (byte : UInt8) : Word := (word &&& ~~~0x000000ff) ||| byte.toBitVec.setWidth 32

def rfAddress (bank register : UInt8) : Word :=
  let value : Word := (0 &&& ~~~(0x80000000 : Word)) ||| 0x80000000
  rfByte ((value &&& ~~~(0x00ff0000 : Word)) ||| (bank.toBitVec.setWidth 32 <<< 16)) register

def BankRfRegPair.words (r : BankRfRegPair) : List Word := [rfAddress r.bank r.register,rfByte 0 r.value]

def RfRMWReg.words (r : RfRMWReg) : List Word :=
  [rfAddress r.bank r.register,rfByte 0 r.clearBitMask,rfByte 0 r.value]

def tableFormat (unit : Nat) : Format := ⟨0,unit,false⟩

section Calls
variable (maxLen : InbandPacketMaxLen) (wlanMemmapOffset : Word)

def andesBurstWrite (offset : Word) (data : Option (Nat → Word)) (cnt : Word) (results : List (Option Int)) :
    Option Done :=
  match data with
  | none => some ⟨-1,[]⟩
  | some data => writeLoop .burstWrite (burstFormat cnt) maxLen.bytes.toNat (burstLen maxLen cnt)
      (burstPayload (offset + wlanMemmapOffset) data) results ⟨0,0,false,0,[]⟩

def writeTable {ε : Type} (type : CmdType) (unit : Nat) (encode : ε → List Word) (regPair : Option (Nat → ε))
    (num : Word) (results : List (Option Int)) : Option Done :=
  match regPair with
  | none => some ⟨-1,[]⟩
  | some regPair => writeLoop type (tableFormat unit) maxLen.bytes.toNat (uint32 (num.toNat * unit))
      (tablePayload unit encode regPair) results ⟨0,0,false,0,[]⟩

def andesReadModifyWrite := writeTable maxLen .readModifyWrite 12 (RMWReg.words wlanMemmapOffset)
def andesRfReadModifyWrite := writeTable maxLen .readModifyWrite 12 RfRMWReg.words
def andesRandomWrite := writeTable maxLen .randomWrite 8 (RegPair.words wlanMemmapOffset)
def andesRfRandomWrite := writeTable maxLen .randomWrite 8 BankRfRegPair.words
end Calls

/- The words a burst writes, each with its address: the words follow one another from the first one on. -/
def Command.burst (msg : Command) : List (Word × Word) :=
  match msg.payload with
  | [] => []
  | address :: values => values.zipIdx.map fun (value,i) => (address + BitVec.ofNat 32 (4 * i),value)

inductive LastWaits : List Command → Prop where
  | last {msg} (waits : msg.kind.needWait = true ∧ msg.kind.needRsp = true) : LastWaits [msg]
  | more {msg rest} (quiet : msg.kind.needWait = false ∧ msg.kind.needRsp = false) (later : LastWaits rest) :
      LastWaits (msg :: rest)

structure Chunked (maxLen : Nat) (msgs : List Command) : Prop where
  sized : ∀ msg ∈ msgs, 0 < msg.bytes ∧ msg.bytes ≤ maxLen
  waits : LastWaits msgs

def Carries {β : Type} (maxLen : InbandPacketMaxLen) (result : Option Done) (view : Command → List β)
    (whole : List β) : Prop :=
  ∃ done, result = some done ∧ Chunked maxLen.bytes.toNat done.sent ∧ done.sent.flatMap view = whole

section Loop
variable {type : CmdType} {format : Format} {w varLen : Nat} {payload : Nat → Nat → List Word} {β : Type}
  {view : Command → List β} {item : Nat → List β}

theorem writeDone {maxLen} (results) {s} (done : varLen ≤ s.curLen) :
    writeLoop type format maxLen varLen payload results s = some ⟨s.ret,s.sent⟩ := by
  cases results with
  | nil => exact if_neg (Nat.not_lt.mpr done)
  | cons b rest => exact if_neg (Nat.not_lt.mpr done)

theorem writeChunks (full : 0 < w) (unit : 0 < format.unit)
    (length : ∀ i n, 4 * (payload i (format.overhead + format.unit * n)).length = format.overhead + format.unit * n)
    (views : ∀ waits i n, i + n < 4294967296 →
      view ⟨type,kindOf waits,payload i (format.overhead + format.unit * n)⟩ = (range' i n).flatMap item)
    {results} (allocated : ∀ r ∈ results, r ≠ none) {c s} (some : 0 < c)
    (left : varLen = s.curLen + need format w c) (enough : c ≤ results.length) (small : s.curIndex + c < 4294967296)
    (narrow : varLen + (format.overhead + format.unit * w) < 4294967296) (first : s.lastPacket = false) :
    ∃ done msgs, writeLoop type format (format.overhead + format.unit * w) varLen payload results s = .some done ∧
      done.sent = s.sent ++ msgs ∧ Chunked (format.overhead + format.unit * w) msgs ∧
      msgs.flatMap view = (range' s.curIndex c).flatMap item := by
  induction results generalizing c s with
  | nil => exact absurd enough (Nat.not_le.mpr some)
  | cons result rest ih =>
    cases result with
    | none => exact absurd rfl (allocated none mem_cons_self)
    | some ret =>
      have positive := needPositive (w := w) unit some
      obtain ⟨sentLen,ends⟩ := nextChunk full unit some left
      have next : uint32 (s.curLen + (format.overhead + format.unit * w)) =
          s.curLen + (format.overhead + format.unit * w) := Nat.mod_eq_of_lt (by omega)
      have index : uint32 (s.curIndex + min w c) = s.curIndex + min w c := Nat.mod_eq_of_lt (by omega)
      have bounded := Nat.mul_le_mul_left format.unit (Nat.min_le_left w c)
      have filled : 0 < format.unit * min w c := Nat.mul_pos unit (by omega)
      simp only [writeLoop]
      rw [if_pos (by omega),sentLen,wordsOf unit,next,index,first,Bool.false_or]
      rcases Nat.lt_or_ge w c with more | last
      · have rests := needPositive (w := w) unit (Nat.sub_pos_of_lt more)
        rw [needMore full more] at left
        rw [Nat.min_eq_left (Nat.le_of_lt more)] at *
        have quiet : (decide (format.overhead + format.unit * w < format.overhead + format.unit * w) ||
            s.curLen + (format.overhead + format.unit * w) == varLen) = false := by
          simp only [Nat.lt_irrefl,decide_false,Bool.false_or,beq_eq_false_iff_ne]
          omega
        rw [quiet]
        have rest_ : varLen = s.curLen + (format.overhead + format.unit * w) + need format w (c - w) := by omega
        have high : s.curIndex + w + (c - w) < 4294967296 := by omega
        let msg : Command := ⟨type,kindOf false,payload s.curIndex (format.overhead + format.unit * w)⟩
        obtain ⟨done,msgs,result,sent,chunked,carried⟩ := ih
          (s := ⟨s.curLen + (format.overhead + format.unit * w),s.curIndex + w,false,ret,s.sent ++ [msg]⟩)
          (fun r member => allocated r (mem_cons_of_mem _ member)) (Nat.sub_pos_of_lt more) rest_
          (by rw [length_cons] at enough; omega) high rfl
        refine ⟨done,msg :: msgs,result,by rw [sent,append_assoc,singleton_append],⟨?_,?_⟩,?_⟩
        · intro other member
          rcases mem_cons.mp member with rfl | later
          · simp only [Command.bytes,msg,length]
            omega
          · exact chunked.sized other later
        · exact .more ⟨rfl,rfl⟩ chunked.waits
        · rw [flatMap_cons,carried,views _ _ _ (by omega),← flatMap_append,range'_append_1,
            Nat.add_sub_of_le (Nat.le_of_lt more)]
      · rw [Nat.min_eq_right last] at *
        have once : need format w c = format.overhead + format.unit * c := by
          rw [need,chunkCountLast some last,Nat.mul_one]
        have waits : (decide (format.overhead + format.unit * c < format.overhead + format.unit * w) ||
            s.curLen + (format.overhead + format.unit * w) == varLen) = true := by
          simp only [Bool.or_eq_true,decide_eq_true_eq,beq_iff_eq]
          omega
        rw [waits,writeDone rest (ends last)]
        refine ⟨_,_,rfl,rfl,⟨?_,.last ⟨rfl,rfl⟩⟩,?_⟩
        · intro msg member
          rw [mem_singleton.mp member]
          simp only [Command.bytes,length]
          omega
        · rw [flatMap_singleton,views _ _ _ (by omega)]

end Loop

theorem rfByteSplit (word byte) : (rfByte word byte).setWidth 8 = byte.toBitVec := by
  apply BitVec.eq_of_getLsbD_eq
  intro i less
  have low : ∀ k < 8, (~~~(0x000000ff : Word)).getLsbD k = false := by decide
  simp only [rfByte,BitVec.getLsbD_setWidth,BitVec.getLsbD_or,BitVec.getLsbD_and,low i less]
  simp [less,show i < 32 by omega]

theorem rfBank (bank register) : (rfAddress bank register).extractLsb' 16 8 = bank.toBitVec := by
  apply BitVec.eq_of_getLsbD_eq
  intro i less
  have high : ∀ k < 24, 8 ≤ k → (~~~(0x000000ff : Word)).getLsbD k = true := by decide
  have clear : ∀ k < 24, 16 ≤ k → (~~~(0x00ff0000 : Word)).getLsbD k = false := by decide
  simp only [rfAddress,rfByte,BitVec.getLsbD_extractLsb',BitVec.getLsbD_or,BitVec.getLsbD_and,
    BitVec.getLsbD_shiftLeft,BitVec.getLsbD_setWidth,high (16 + i) (by omega) (by omega),
    clear (16 + i) (by omega) (by omega),Nat.add_sub_cancel_left]
  simp [less,show 16 + i < 32 by omega,show i < 32 by omega,show ¬ 16 + i < 16 by omega,
    BitVec.getLsbD_of_ge register.toBitVec (16 + i) (by omega)]

theorem rfInjective {bank register bank' register'}
    (same : rfAddress bank register = rfAddress bank' register') : bank = bank' ∧ register = register' := by
  constructor
  · apply UInt8.toBitVec_inj.mp
    rw [← rfBank bank register,same,rfBank]
  · apply UInt8.toBitVec_inj.mp
    rw [← rfByteSplit,← rfAddress,same,rfAddress,rfByteSplit]

theorem byteInjective {byte byte'} (same : rfByte 0 byte = rfByte 0 byte') : byte = byte' := by
  apply UInt8.toBitVec_inj.mp
  rw [← rfByteSplit 0 byte,same,rfByteSplit]

theorem encodesInjective (wlanMemmapOffset) :
    (RegPair.words wlanMemmapOffset).Injective ∧ (RMWReg.words wlanMemmapOffset).Injective ∧
      BankRfRegPair.words.Injective ∧ RfRMWReg.words.Injective := by
  refine ⟨?_,?_,?_,?_⟩
  · rintro ⟨r,v⟩ ⟨r',v'⟩ same
    simpa [RegPair.words] using same
  · rintro ⟨r,c,v⟩ ⟨r',c',v'⟩ same
    simpa [RMWReg.words] using same
  · rintro ⟨b,r,v⟩ ⟨b',r',v'⟩ same
    simp only [BankRfRegPair.words,cons.injEq,and_true] at same
    rw [(rfInjective same.1).1,(rfInjective same.1).2,byteInjective same.2]
  · rintro ⟨b,r,c,v⟩ ⟨b',r',c',v'⟩ same
    simp only [RfRMWReg.words,cons.injEq,and_true] at same
    rw [(rfInjective same.1).1,(rfInjective same.1).2,byteInjective same.2.1,byteInjective same.2.2]

section Calls
variable (maxLen : InbandPacketMaxLen) {num : Word} {results : List (Option Int)} (some : 0 < num.toNat)
  (allocated : ∀ r ∈ results, r ≠ none) (enough : num.toNat ≤ results.length)
include some allocated enough

theorem tableCarries {ε : Type} (type) {unit encode}
    (length : ∀ e, 4 * (encode e).length = unit) (positive : 0 < unit) (whole : maxLen.bytes.toNat % unit = 0)
    (narrow : num.toNat * unit + maxLen.bytes.toNat < 4294967296) (regPair : Nat → ε) :
    Carries maxLen (writeTable maxLen type unit encode (.some regPair) num results) Command.payload
      ((range num.toNat).flatMap fun i => encode (regPair i)) := by
  have bytes : maxLen.bytes.toNat = 0 + unit * (maxLen.bytes.toNat / unit) := by
    rw [Nat.zero_add,Nat.mul_div_cancel' (Nat.dvd_of_mod_eq_zero whole)]
  have full : 0 < maxLen.bytes.toNat / unit :=
    Nat.div_pos (Nat.le_of_dvd maxLen.positive (Nat.dvd_of_mod_eq_zero whole)) positive
  have fits : uint32 (num.toNat * unit) = num.toNat * unit := Nat.mod_eq_of_lt (by omega)
  have total : num.toNat * unit = 0 + need (tableFormat unit) (maxLen.bytes.toNat / unit) num.toNat := by
    rw [need,tableFormat,Nat.zero_mul,Nat.zero_add,Nat.zero_add,Nat.mul_comm]
  have divided (n : Nat) : (0 + unit * n) / unit = n := by rw [Nat.zero_add,Nat.mul_div_cancel_left n positive]
  have sized (i n : Nat) : 4 * (tablePayload unit encode regPair i (0 + unit * n)).length = 0 + unit * n := by
    simp only [tablePayload,divided]
    induction n with
    | zero => rfl
    | succ n ih =>
      rw [range_succ,flatMap_append,length_append,Nat.mul_add,ih,flatMap_singleton,length,
        Nat.mul_succ,Nat.add_assoc]
  have views (waits : Bool) (i n : Nat) (small : i + n < 4294967296) :
      Command.payload ⟨type,kindOf waits,tablePayload unit encode regPair i (0 + unit * n)⟩ =
      (range' i n).flatMap fun i => encode (regPair i) := by
    simp only [tablePayload,divided]
    rw [range'_eq_map_range,flatMap_map]
    refine flatMap_congr fun j member => ?_
    rw [uint32,Nat.mod_eq_of_lt (by have := mem_range.mp member; omega),Nat.add_comm]
  obtain ⟨done,msgs,result,sent,chunked,carried⟩ := writeChunks (s := ⟨0,0,false,0,[]⟩) full
    (show 0 < (tableFormat unit).unit from positive) sized views allocated some total enough
    (by rw [Nat.zero_add]; exact num.isLt) (by rw [tableFormat,← bytes]; exact narrow) rfl
  rw [tableFormat,← bytes] at result chunked
  rw [nil_append] at sent
  refine ⟨done,?_,sent ▸ chunked,by rw [sent,carried,range_eq_range']⟩
  simp only [writeTable,fits]
  exact result

theorem burstCarries (wlanMemmapOffset offset data)
    (narrow : need (burstFormat num) ((maxLen.bytes.toNat - 4) / 4) num.toNat + maxLen.bytes.toNat < 4294967296) :
    Carries maxLen (andesBurstWrite maxLen wlanMemmapOffset offset (.some data) num results) Command.burst
      ((range num.toNat).map fun i => (offset + wlanMemmapOffset + BitVec.ofNat 32 (4 * i),data i)) := by
  obtain ⟨full,bytes⟩ := burstFull maxLen
  have total : burstLen maxLen num = 0 + need (burstFormat num) ((maxLen.bytes.toNat - 4) / 4) num.toNat := by
    rw [burstNeed maxLen (Nat.lt_of_le_of_lt (Nat.le_add_right _ _) narrow),Nat.zero_add]
  have divided (n : Nat) : (4 + 4 * n - 4) / 4 = n := by omega
  have sized (i n : Nat) : 4 * (burstPayload (offset + wlanMemmapOffset) data i (4 + 4 * n)).length = 4 + 4 * n := by
    simp only [burstPayload,divided,length_cons,length_map,length_range]
    omega
  have views (waits : Bool) (i n : Nat) (small : i + n < 4294967296) :
      Command.burst ⟨.burstWrite,kindOf waits,burstPayload (offset + wlanMemmapOffset) data i (4 + 4 * n)⟩ =
      (range' i n).flatMap fun i => [(offset + wlanMemmapOffset + BitVec.ofNat 32 (4 * i),data i)] := by
    simp only [burstPayload,divided,Command.burst]
    rw [← map_eq_flatMap,range'_eq_map_range,map_map]
    refine ext_getElem (by simp) fun j left right => ?_
    rw [length_map,length_range] at right
    have index : uint32 (j + i) = i + j := by
      rw [uint32,Nat.mod_eq_of_lt (by omega),Nat.add_comm]
    simp only [getElem_map,getElem_zipIdx,getElem_range,Function.comp_apply,index,BitVec.add_assoc,
      ← BitVec.ofNat_add,Nat.zero_add]
    rw [Nat.mul_comm i 4,← Nat.mul_add]
  obtain ⟨done,msgs,result,sent,chunked,carried⟩ := writeChunks (s := ⟨0,0,false,0,[]⟩) full
    (show 0 < (burstFormat num).unit from Nat.succ_pos 3) sized views allocated some total enough
    (by rw [Nat.zero_add]; exact num.isLt) (by rw [total,Nat.zero_add,burstFormat,← bytes]; exact narrow) rfl
  rw [burstFormat,← bytes] at result chunked
  rw [nil_append] at sent
  refine ⟨done,result,sent ▸ chunked,?_⟩
  rw [sent,carried,range_eq_range',map_eq_flatMap]

end Calls

theorem transfersChunked (maxLen : InbandPacketMaxLen) (wlanMemmapOffset num : Word) (results : List (Option Int))
    (some : 0 < num.toNat) (allocated : ∀ r ∈ results, r ≠ none) (enough : num.toNat ≤ results.length) :
    (need (burstFormat num) ((maxLen.bytes.toNat - 4) / 4) num.toNat + maxLen.bytes.toNat < 4294967296 →
      ∀ offset data, Carries maxLen (andesBurstWrite maxLen wlanMemmapOffset offset (.some data) num results)
        Command.burst
        ((range num.toNat).map fun i => (offset + wlanMemmapOffset + BitVec.ofNat 32 (4 * i),data i))) ∧
    (num.toNat * 8 + maxLen.bytes.toNat < 4294967296 →
      (∀ regPair, Carries maxLen (andesRandomWrite maxLen wlanMemmapOffset (.some regPair) num results)
        Command.payload ((range num.toNat).flatMap fun i => (regPair i).words wlanMemmapOffset)) ∧
      ∀ regPair, Carries maxLen (andesRfRandomWrite maxLen (.some regPair) num results)
        Command.payload ((range num.toNat).flatMap fun i => (regPair i).words)) ∧
    (num.toNat * 12 + maxLen.bytes.toNat < 4294967296 →
      (∀ regPair, Carries maxLen (andesReadModifyWrite maxLen wlanMemmapOffset (.some regPair) num results)
        Command.payload ((range num.toNat).flatMap fun i => (regPair i).words wlanMemmapOffset)) ∧
      ∀ regPair, Carries maxLen (andesRfReadModifyWrite maxLen (.some regPair) num results)
        Command.payload ((range num.toNat).flatMap fun i => (regPair i).words)) ∧
    (RegPair.words wlanMemmapOffset).Injective ∧ (RMWReg.words wlanMemmapOffset).Injective ∧
      BankRfRegPair.words.Injective ∧ RfRMWReg.words.Injective := by
  have multiple := maxLen.multiple
  have eight : maxLen.bytes.toNat % 8 = 0 := by omega
  have twelve : maxLen.bytes.toNat % 12 = 0 := by omega
  refine ⟨fun narrow offset data => ?_,fun narrow => ⟨?_,?_⟩,fun narrow => ⟨?_,?_⟩,encodesInjective wlanMemmapOffset⟩
  · exact burstCarries maxLen some allocated enough wlanMemmapOffset offset data narrow
  · exact tableCarries maxLen some allocated enough .randomWrite (fun _ => rfl) (by decide) eight narrow
  · exact tableCarries maxLen some allocated enough .randomWrite (fun _ => rfl) (by decide) eight narrow
  · exact tableCarries maxLen some allocated enough .readModifyWrite (fun _ => rfl) (by decide) twelve narrow
  · exact tableCarries maxLen some allocated enough .readModifyWrite (fun _ => rfl) (by decide) twelve narrow

def twelve : InbandPacketMaxLen := ⟨48,rfl,Nat.succ_pos 47⟩

theorem transfersChunkedTwelve :
    Carries twelve (andesBurstWrite twelve 0x410000 0x1000 (.some (BitVec.ofNat 32)) 12 (replicate 12 (.some 0)))
      Command.burst ((range 12).map fun i => (0x1000 + 0x410000 + BitVec.ofNat 32 (4 * i),BitVec.ofNat 32 i)) ∧
    Carries twelve (andesRfRandomWrite twelve (.some fun i => ⟨0,.ofNat i,1⟩) 12 (replicate 12 (.some 0)))
      Command.payload ((range 12).flatMap fun i => BankRfRegPair.words ⟨0,.ofNat i,1⟩) ∧
    Carries twelve (andesRfReadModifyWrite twelve (.some fun i => ⟨0,.ofNat i,3,1⟩) 12 (replicate 12 (.some 0)))
      Command.payload ((range 12).flatMap fun i => RfRMWReg.words ⟨0,.ofNat i,3,1⟩) := by
  obtain ⟨burst,random,modify,_⟩ := transfersChunked twelve 0x410000 12 (replicate 12 (.some 0)) (by decide)
    (by decide) (by decide)
  exact ⟨burst (by decide) 0x1000 _,(random (by decide)).2 _,(modify (by decide)).2 _⟩

end RtmpDriver.McuWrite
