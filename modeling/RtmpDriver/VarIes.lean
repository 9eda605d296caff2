import RtmpDriver.BeaconWalk
import RtmpDriver.ElementList

/-! What becomes of VarIEs: BssEntrySet copies pVIE into the entry of the scan table, and BssCipherParse and
AssocPostProc go over it there, the second with what is left in a USHORT. -/
namespace RtmpDriver.VarIes
open AccessLog ByteMemory ElementList BeaconParse BeaconWalk List
open RsnSuites (AuthMode)
open CipherParse (wpaOui rsnOui elementSize)
open RsnSuites (ieWpa ieRsn)

def maxLenOfRsnIe : Nat := 255

/- The part of BssEntrySet: `old` is what the entry held before. -/
def varIesSet (old : Nat → UInt8) (pVIE : Bytes) : Nat → UInt8 := store old 0 pVIE

inductive RsnAccess where
  | move (count : Nat) (rsnIeLen : UInt8)
  | advance (len : BitVec 16) (size : Nat)
  deriving DecidableEq, Repr

structure MacEntry where
  rsnIe : Bytes
  rsnIeLen : UInt8
  deriving DecidableEq, Repr

def MacEntry.initial : MacEntry := ⟨replicate maxLenOfRsnIe 0,0⟩

def storeRsn (mem : Nat → UInt8) (pVIE : Nat) (entry : MacEntry) : Logged RsnAccess MacEntry := do
  let count := elementSize mem pVIE
  note (.move count (UInt8.ofNat count))
  pure ⟨load mem pVIE count ++ entry.rsnIe.drop count,UInt8.ofNat count⟩

def storeElement (auth : AuthMode) (mem : Nat → UInt8) (pVIE : Nat) (entry : MacEntry) : Logged RsnAccess MacEntry :=
  if mem pVIE = ieWpa ∧ load mem (pVIE + 2) 4 = wpaOui ∧ (auth = .wpa ∨ auth = .wpaPsk) then storeRsn mem pVIE entry
  else if mem pVIE = ieRsn ∧ load mem (pVIE + 4) 3 = rsnOui ∧ (auth = .wpa2 ∨ auth = .wpa2Psk) then
    storeRsn mem pVIE entry
  else pure entry

def storeLoop (auth : AuthMode) (mem : Nat → UInt8) : Nat → Nat → BitVec 16 → MacEntry →
    Logged RsnAccess (Option MacEntry)
  | 0,_,len,entry => pure (if len = 0 then some entry else none)
  | fuel + 1,pVIE,len,entry =>
    if len = 0 then pure (some entry)
    else do
      let entry ← storeElement auth mem pVIE entry
      let size := elementSize mem pVIE
      note (.advance len size)
      storeLoop auth mem fuel (pVIE + size) (len - BitVec.ofNat 16 size) entry

def wpaOrMore (auth : AuthMode) : Prop := auth ≠ .openMode ∧ auth ≠ .shared ∧ auth ≠ .autoSwitch

instance (auth : AuthMode) : Decidable (wpaOrMore auth) := inferInstanceAs (Decidable (_ ∧ _ ∧ _))

/- The part of AssocPostProc that sets the WPA information. -/
def assocPostProc (auth : AuthMode) (mem : Nat → UInt8) (varIELen : BitVec 16) : Logged RsnAccess (Option MacEntry) :=
  if wpaOrMore auth ∧ varIELen ≠ 0 then storeLoop auth mem varIELen.toNat 0 varIELen .initial
  else pure (some .initial)

def cipherRest (mem : Nat → UInt8) (varIELen : Nat) : Nat → Int → Int
  | 0,length => length
  | fuel + 1,length =>
    if 0 < length then
      cipherRest mem varIELen fuel (length - ((mem ((varIELen - length).toNat + 1)).toNat + 2))
    else length

theorem cipherRestEnds {pmf mem varIELen fuel length bss} :
    (CipherParse.parseLoop pmf mem varIELen fuel length bss).value.isSome = true ↔
      cipherRest mem varIELen fuel length ≤ 0 := by
  induction fuel generalizing length bss with
  | zero =>
    simp only [CipherParse.parseLoop,cipherRest,pureValue]
    split
    next more => simpa using more
    next done => simpa using done
  | succ fuel ih =>
    unfold CipherParse.parseLoop cipherRest
    split
    next more => exact ih
    next done => simpa using done

def RsnAccess.Good : RsnAccess → Prop
  | .move count rsnIeLen => count ≤ maxLenOfRsnIe ∧ rsnIeLen.toNat = count
  | .advance len size => size ≤ len.toNat

def Stored (auth : AuthMode) (id : UInt8) (body : Bytes) : Prop :=
  id = ieWpa ∧ body.take 4 = wpaOui ∧ (auth = .wpa ∨ auth = .wpaPsk) ∨
    id = ieRsn ∧ (body.drop 2).take 3 = rsnOui ∧ (auth = .wpa2 ∨ auth = .wpa2Psk)

def RsnShort (auth : AuthMode) (id : UInt8) (body : Bytes) : Prop :=
  Stored auth id body → body.length + 2 ≤ maxLenOfRsnIe

section Loops
variable {auth : AuthMode} {mem : Nat → UInt8} {p : Nat} {id : UInt8} {body bytes : Bytes} {entry : MacEntry}

theorem storeGood {pVIE} : All RsnAccess.Good (storeRsn mem pVIE entry) ↔ elementSize mem pVIE ≤ maxLenOfRsnIe := by
  simp only [storeRsn,allBind,allNote,allPure,and_true,RsnAccess.Good,UInt8.toNat_ofNat']
  unfold maxLenOfRsnIe
  omega

theorem storedIff (head : mem p = id) (size : (mem (p + 1)).toNat = body.length) (holds : Holds mem (p + 2) body) :
    All RsnAccess.Good (storeElement auth mem p entry) ↔ RsnShort auth id body := by
  have whole : elementSize mem p = body.length + 2 := by rw [elementSize,size]
  by_cases long : maxLenOfRsnIe < body.length + 2
  · unfold maxLenOfRsnIe at long
    have wpa : load mem (p + 2) 4 = body.take 4 := holds.take (by omega)
    have behind : Holds mem (p + 2 + 2) (body.drop 2) := holds.drop (by omega)
    have rsn : load mem (p + 4) 3 = (body.drop 2).take 3 := behind.take (by rw [length_drop]; omega)
    simp only [storeElement,allIte,storeGood,whole,allPure,implies_true,and_true,head,wpa,rsn,RsnShort,Stored]
    grind
  · simp only [storeElement,allIte,storeGood,whole,allPure,implies_true,and_true,RsnShort]
    grind

theorem storeLoopRuns {whole} (elements : Elements whole bytes) (holds : Holds mem p bytes)
    (fuel) (entry : MacEntry) (enough : bytes.length ≤ fuel) (fits : bytes.length < 65536) :
    (∃ last, (storeLoop auth mem fuel p (BitVec.ofNat 16 bytes.length) entry).value = some last) ∧
      (All RsnAccess.Good (storeLoop auth mem fuel p (BitVec.ofNat 16 bytes.length) entry) ↔
        Elements (RsnShort auth) bytes) := by
  induction elements generalizing p fuel entry with
  | nil =>
    have done : storeLoop auth mem fuel p 0 entry = pure (some entry) := by cases fuel <;> simp [storeLoop]
    rw [length_nil,show BitVec.ofNat 16 0 = 0 from rfl,done]
    exact ⟨⟨entry,rfl⟩,iff_of_true (allPure _) .nil⟩
  | @cons id body rest short ok tail ih =>
    obtain ⟨head,size,inner,after⟩ := holdsElement short holds
    rw [length_append,elementLength] at enough fits ⊢
    obtain ⟨turns,rfl⟩ : ∃ turns, fuel = turns + 1 := ⟨fuel - 1,by omega⟩
    have step : elementSize mem p = body.length + 2 := by rw [elementSize,size]
    have len : (BitVec.ofNat 16 (body.length + 2 + rest.length)).toNat = body.length + 2 + rest.length := by
      rw [BitVec.toNat_ofNat]
      omega
    have more : BitVec.ofNat 16 (body.length + 2 + rest.length) ≠ 0 := by bv_omega
    have left : BitVec.ofNat 16 (body.length + 2 + rest.length) - BitVec.ofNat 16 (body.length + 2) =
        BitVec.ofNat 16 rest.length := by
      bv_omega
    have next := ih after turns (storeElement auth mem p entry).value (by omega) (by omega)
    unfold storeLoop
    rw [if_neg more]
    simp only [bindValue,allBind,allNote,step,left,storedIff head size inner,elementsCons short]
    refine ⟨next.1,and_congr_right fun _ => ?_⟩
    rw [next.2,and_iff_right]
    simp only [RsnAccess.Good,len]
    omega

theorem assocRuns {whole} (elements : Elements whole bytes) (holds : Holds mem 0 bytes)
    (fits : bytes.length < 65536) :
    (∃ last, (assocPostProc auth mem (BitVec.ofNat 16 bytes.length)).value = some last) ∧
      (All RsnAccess.Good (assocPostProc auth mem (BitVec.ofNat 16 bytes.length)) ↔
        Elements (RsnShort auth) bytes) := by
  have len : (BitVec.ofNat 16 bytes.length).toNat = bytes.length := by
    rw [BitVec.toNat_ofNat]
    omega
  unfold assocPostProc
  split
  next => exact storeLoopRuns elements holds _ _ (Nat.le_of_eq len.symm) fits
  next idle =>
    refine ⟨⟨.initial,rfl⟩,iff_of_true (allPure _) ?_⟩
    by_cases wpa : wpaOrMore auth
    · have empty : bytes = [] := by
        have zero := Decidable.not_not.mp fun more => idle ⟨wpa,more⟩
        refine eq_nil_of_length_eq_zero ?_
        bv_omega
      rw [empty]
      exact .nil
    · refine elements.mono fun id body _ stored => absurd ?_ wpa
      rcases stored with ⟨_,_,mode | mode⟩ | ⟨_,_,mode | mode⟩ <;> simp [wpaOrMore,mode]

theorem cipherRestZero {whole} (elements : Elements whole bytes) (holds : Holds mem p bytes)
    (fuel : Nat) (enough : bytes.length ≤ fuel) : cipherRest mem (p + bytes.length) fuel bytes.length = 0 := by
  induction elements generalizing p fuel with
  | nil => cases fuel <;> simp [cipherRest]
  | @cons id body rest short ok tail ih =>
    obtain ⟨head,size,inner,after⟩ := holdsElement short holds
    rw [length_append,elementLength] at enough ⊢
    obtain ⟨turns,rfl⟩ : ∃ turns, fuel = turns + 1 := ⟨fuel - 1,by omega⟩
    have next := ih after turns (by omega)
    generalize total : body.length + 2 + rest.length = n at *
    have place : (((p + n : Nat) : Int) - n).toNat = p := by omega
    have left : (n : Int) - ((body.length : Int) + 2) = rest.length := by omega
    unfold cipherRest
    rwa [if_pos (by omega),place,size,left,← total,← Nat.add_assoc]

end Loops

def tail (w : Walk) : Bytes := if w.gaveUp = true ∨ w.last.wsc = [] then [] else wscElement w.last.wsc

def start (ie : BcnIeList) : Seen := ⟨false,decide (ie.htCapabilityLen ≠ 0),[],[]⟩

def beaconWalk (ad : Adapter) (m : Nat → UInt8) (msgLen : Nat) (ie : BcnIeList) : Walk :=
  walk ad m msgLen (msgLen + 1) fixedPart (start ie)

section Parser
variable {ad : Adapter} {m : Nat → UInt8} {msgLen : Nat} {msgChannel : UInt8} {ie : BcnIeList} {s : Parse}

theorem startAgrees (ad m ie) : Agrees ad m (initParse m ie) (start ie) :=
  ⟨rfl,by simp [initParse,start],rfl,by simp [initParse],fun _ => ⟨rfl,rfl,.inr rfl⟩⟩

theorem loopWalks (ad m msgLen ie) :
    (All (Access.Good msgLen) (elementLoop ad m msgLen (msgLen + 1) fixedPart (initParse m ie)) ↔
      ∀ cursor ∈ (beaconWalk ad m msgLen ie).cursors, CursorFits ad m msgLen cursor) ∧
    (All (Access.Good msgLen) (elementLoop ad m msgLen (msgLen + 1) fixedPart (initParse m ie)) →
      EndsAs ad m (elementLoop ad m msgLen (msgLen + 1) fixedPart (initParse m ie)).value
        (beaconWalk ad m msgLen ie)) :=
  loopFollows (by omega) (Nat.succ_pos msgLen) (startAgrees ad m ie)

theorem parserReads (fixed : fixedPart ≤ msgLen) :
    All (Access.Good msgLen) (peerBeaconAndProbeRspSanity ad m msgLen msgChannel ie) ↔
      All (Access.Good msgLen) (elementLoop ad m msgLen (msgLen + 1) fixedPart (initParse m ie)) := by
  unfold fixedPart at fixed
  simp only [peerBeaconAndProbeRspSanity,allBind,allNote,allPure,goodRead,and_true]
  refine ⟨fun all => all.2.2.2.2.2.2,fun loop => ?_⟩
  refine ⟨?_,?_,?_,?_,?_,?_,loop⟩ <;> omega

theorem parserEnds : ∃ outcome, (peerBeaconAndProbeRspSanity ad m msgLen msgChannel ie).value = some outcome := by
  obtain ⟨t,exit,ended⟩ : ∃ t exit, (elementLoop ad m msgLen (msgLen + 1) fixedPart (initParse m ie)).value =
    some (t,exit) := loopEnds (by omega) (Nat.succ_pos msgLen)
  simp [peerBeaconAndProbeRspSanity,ended]

theorem appendedVie {seen} (agrees : Agrees ad m s seen) (check : (wscAppended ad s).wscCheck = true) :
    (wscAppended ad s).vie = collected m seen.kept ++ (if seen.wsc = [] then [] else wscElement seen.wsc) := by
  have same : (wscAppended ad s).wscCheck = s.wscCheck := by
    unfold wscAppended
    split <;> rfl
  obtain ⟨bytes,length,allocated⟩ := agrees.wsc (same ▸ check)
  by_cases none : seen.wsc = []
  · have nothing : ¬ 0 < s.wscIeLen := by simp [length,none]
    rw [wscAppended,if_neg fun all => nothing all.2.1,if_pos none,append_nil,agrees.vie]
  · have some : 0 < s.wscIeLen := by
      rw [length]
      exact_mod_cast length_pos_of_ne_nil none
    have whole : ((range s.wscIeLen.toNat).map fun i => s.wscIe.getD i 0) = seen.wsc := by
      rw [length,Int.toNat_natCast,bytes]
      simpa only [Holds,load,Nat.zero_add] using holdsGetD seen.wsc 0
    rw [wscAppended,if_pos ⟨allocated.resolve_right none,some,agrees.room,same ▸ check⟩,if_neg none]
    simp only [whole,agrees.vie]

theorem decidedAgrees {seen} (agrees : Agrees ad m s seen) : Agrees ad m (channelDecided ad msgChannel s) seen := by
  unfold channelDecided
  split
  · exact agrees.unchanged ⟨rfl,rfl,rfl,rfl,rfl,rfl⟩
  · exact agrees

theorem collectedVie
    (reads : All (Access.Good msgLen) (elementLoop ad m msgLen (msgLen + 1) fixedPart (initParse m ie)))
    {outcome} (value : (peerBeaconAndProbeRspSanity ad m msgLen msgChannel ie).value = some outcome)
    (accepted : outcome.accepted = true) : outcome.parse.vie =
      collected m (beaconWalk ad m msgLen ie).last.kept ++ tail (beaconWalk ad m msgLen ie) := by
  obtain ⟨t,exit,ended,agrees,gaveUp⟩ := (loopWalks ad m msgLen ie).2 reads
  simp only [peerBeaconAndProbeRspSanity,bindValue,ended,pureValue,Option.map_some,Option.some.injEq] at value
  subst value
  cases exit with
  | goOn =>
    have on : (beaconWalk ad m msgLen ie).gaveUp = false := gaveUp.mp rfl
    simp only [sanityCheck,Bool.and_eq_true] at accepted ⊢
    rw [appendedVie (decidedAgrees agrees) accepted.2,tail,on]
    simp
  | sanityCheck =>
    have up : (beaconWalk ad m msgLen ie).gaveUp = true := by simpa using gaveUp
    simp [sanityCheck,agrees.vie,tail,up]
  | refuse => exact absurd accepted (by simp)

end Parser

structure KeptExactly (auth : AuthMode) (old : Nat → UInt8) (pVIE : Bytes) : Prop where
  room : pVIE.length ≤ maxVieLen
  whole : Elements (fun _ _ => True) pVIE
  cipher : cipherRest (varIesSet old pVIE) pVIE.length pVIE.length pVIE.length = 0
  parsed : ∀ pmf bss,
    (CipherParse.bssCipherParse pmf (varIesSet old pVIE) (BitVec.ofNat 16 pVIE.length) bss).value.isSome
  ends : ∃ entry, (assocPostProc auth (varIesSet old pVIE) (BitVec.ofNat 16 pVIE.length)).value = some entry
  stored : All RsnAccess.Good (assocPostProc auth (varIesSet old pVIE) (BitVec.ofNat 16 pVIE.length))

def CollectedSafely (ad : Adapter) (m : Nat → UInt8) (msgLen : Nat) (msgChannel : UInt8) (ie : BcnIeList)
    (auth : AuthMode) (old : Nat → UInt8) : Prop :=
  All (Access.Good msgLen) (peerBeaconAndProbeRspSanity ad m msgLen msgChannel ie) ∧
    ∀ outcome, (peerBeaconAndProbeRspSanity ad m msgLen msgChannel ie).value = some outcome →
      KeptExactly auth old outcome.parse.vie

def wscPayloadMax : Nat := 251

structure BeaconFits (ad : Adapter) (m : Nat → UInt8) (msgLen : Nat) (ie : BcnIeList) (auth : AuthMode) : Prop where
  inside : ∀ cursor ∈ (beaconWalk ad m msgLen ie).cursors, CursorFits ad m msgLen cursor
  room : (beaconWalk ad m msgLen ie).last.length m + (tail (beaconWalk ad m msgLen ie)).length ≤ maxVieLen
  short : ∀ pEid ∈ (beaconWalk ad m msgLen ie).last.kept, RsnShort auth (m pEid) (load m (pEid + 2) (eidLen m pEid))
  -- the length byte of a longer one is cut off, and elements are then looked for inside of it
  wps : wscPayloadMax < (beaconWalk ad m msgLen ie).last.wsc.length →
    Elements (RsnShort auth) (tail (beaconWalk ad m msgLen ie))

theorem keptIff {auth old pVIE} :
    KeptExactly auth old pVIE ↔ pVIE.length ≤ maxVieLen ∧ Elements (RsnShort auth) pVIE := by
  have holds : Holds (varIesSet old pVIE) 0 pVIE := holdsStore
  constructor
  · rintro ⟨room,whole,_,_,_,stored⟩
    refine ⟨room,(assocRuns whole holds ?_).2.mp stored⟩
    unfold maxVieLen at room
    omega
  · rintro ⟨room,short⟩
    have fits : pVIE.length < 65536 := by
      unfold maxVieLen at room
      omega
    obtain ⟨ends,stored⟩ := assocRuns short holds fits
    have cipher := cipherRestZero short holds pVIE.length (Nat.le_refl _)
    rw [Nat.zero_add] at cipher
    have len : (BitVec.ofNat 16 pVIE.length).toNat = pVIE.length := by
      rw [BitVec.toNat_ofNat]
      omega
    refine ⟨room,short.mono fun _ _ _ => trivial,cipher,fun pmf bss => ?_,ends,stored.mpr short⟩
    rw [CipherParse.bssCipherParse,len]
    exact cipherRestEnds.mpr (Int.le_of_eq cipher)

theorem elementLoad (m pEid) :
    load m pEid (extent m pEid) = element (m pEid) (load m (pEid + 2) (eidLen m pEid)) := by
  have split : load m pEid (2 + eidLen m pEid) = load m pEid 2 ++ load m (pEid + 2) (eidLen m pEid) := loadAppend
  rw [extent,Nat.add_comm,split]
  simp [element,load,eidLen,range_succ]

theorem collectedElements {auth m kept rest} : Elements (RsnShort auth) (collected m kept ++ rest) ↔
      (∀ pEid ∈ kept, RsnShort auth (m pEid) (load m (pEid + 2) (eidLen m pEid))) ∧ Elements (RsnShort auth) rest := by
  have whole : collected m kept = kept.flatMap fun pEid => element (m pEid) (load m (pEid + 2) (eidLen m pEid)) := by
    simp only [collected,elementLoad]
  rw [whole]
  refine elementsFlatMap (fun pEid => ?_) kept
  rw [loadLength]
  exact (m (pEid + 1)).toNat_lt

theorem shortTail {auth w} (short : w.last.wsc.length ≤ wscPayloadMax) : Elements (RsnShort auth) (tail w) := by
  unfold tail
  split
  · exact .nil
  have size : (wpsOui ++ w.last.wsc).length = w.last.wsc.length + 4 := by simp [wpsOui]
  have one : wscElement w.last.wsc = element ieWpa (wpsOui ++ w.last.wsc) ++ [] := by
    rw [element,size,append_nil]
    rfl
  rw [one]
  unfold wscPayloadMax at short
  refine .cons (by omega) ?_ .nil
  rintro (⟨_,oui,_⟩ | ⟨id,_⟩)
  · exact absurd oui (by simp [wpsOui,wpaOui])
  · exact absurd id (by decide)

theorem varIesCollected (ad : Adapter) (m : Nat → UInt8) (msgLen : Nat) (msgChannel : UInt8) (ie : BcnIeList)
    (auth : AuthMode) (old : Nat → UInt8) (fixed : fixedPart ≤ msgLen) :
    (∃ outcome, (peerBeaconAndProbeRspSanity ad m msgLen msgChannel ie).value = some outcome) ∧
      ∀ outcome, (peerBeaconAndProbeRspSanity ad m msgLen msgChannel ie).value = some outcome →
        outcome.accepted = true →
          (CollectedSafely ad m msgLen msgChannel ie auth old ↔ BeaconFits ad m msgLen ie auth) := by
  refine ⟨parserEnds,fun outcome value accepted => ?_⟩
  have vie (reads : All (Access.Good msgLen) (elementLoop ad m msgLen (msgLen + 1) fixedPart (initParse m ie))) :=
    collectedVie reads value accepted
  have walks := (loopWalks ad m msgLen ie).1
  have length := collectedLength (m := m) (beaconWalk ad m msgLen ie).last.kept
  constructor
  · rintro ⟨reads,kept⟩
    have loop := (parserReads fixed).mp reads
    obtain ⟨room,elements⟩ := keptIff.mp (kept outcome value)
    rw [vie loop] at room elements
    rw [length_append,length] at room
    obtain ⟨short,wps⟩ := collectedElements.mp elements
    exact ⟨walks.mp loop,room,short,fun _ => wps⟩
  · rintro ⟨inside,room,short,wps⟩
    have loop := walks.mpr inside
    refine ⟨(parserReads fixed).mpr loop,fun other same => ?_⟩
    obtain rfl := Option.some.inj (value.symm.trans same)
    rw [keptIff,vie loop,length_append,length]
    refine ⟨room,collectedElements.mpr ⟨short,?_⟩⟩
    by_cases long : wscPayloadMax < (beaconWalk ad m msgLen ie).last.wsc.length
    · exact wps long
    · exact shortTail (Nat.le_of_not_lt long)

def station : Adapter := ⟨[1],false,[],0,4,10,1,false,1,1,true⟩

def beacon (elements : Bytes) : Bytes :=
  0x80 :: replicate 35 0 ++ [0,1,0x61,1,1,0x82,3,1,1] ++ elements

def received (frame : Bytes) (i : Nat) : UInt8 := frame.getD i 0

def checked (frame : Bytes) : Logged Access (Option Outcome) :=
  peerBeaconAndProbeRspSanity station (received frame) frame.length 1 default

def rsnOf (rest : Bytes) : Bytes := element ieRsn ([1,0] ++ rsnOui ++ rest)

def rsnPsk : Bytes := rsnOf [4,1,0,0,0x0f,0xac,4,1,0,0,0x0f,0xac,2,0,0]

def cutShort : Bytes := [0xdd,0xff]

theorem varIesCollectedPsk : (checked (beacon (rsnPsk ++ cutShort))).value.map Outcome.accepted = some true ∧
    CollectedSafely station (received (beacon (rsnPsk ++ cutShort))) (beacon (rsnPsk ++ cutShort)).length 1 default
      .wpa2Psk (fun _ => 0) := by
  have accepted : (checked (beacon (rsnPsk ++ cutShort))).value.map Outcome.accepted = some true := by decide +kernel
  obtain ⟨outcome,value,yes⟩ := Option.map_eq_some_iff.mp accepted
  have meets := (varIesCollected station (received (beacon (rsnPsk ++ cutShort)))
    (beacon (rsnPsk ++ cutShort)).length 1 default .wpa2Psk (fun _ => 0) (by decide)).2 outcome value yes
  refine ⟨accepted,meets.mpr ⟨by decide +kernel,by decide +kernel,?_,fun long => absurd long (by decide +kernel)⟩⟩
  have kept : (beaconWalk station (received (beacon (rsnPsk ++ cutShort))) (beacon (rsnPsk ++ cutShort)).length
    default).last.kept = [45] := by decide +kernel
  rw [kept]
  intro pEid at45 _
  obtain rfl := mem_singleton.mp at45
  decide +kernel

def wpsTorn : Bytes := element ieWpa (wpsOui.take 3) ++ element 4 [6,0,0,0,0,0]

def wpsLong : Bytes :=
  element ieWpa (wpsOui ++ 0x10 :: replicate 250 0) ++ element ieWpa (wpsOui ++ [0x11])

def rsnLong : Bytes := rsnOf (replicate 249 0)

theorem varIesOverrun :
    ((checked (beacon rsnPsk)).value.map Outcome.accepted = some true ∧
      ¬ CollectedSafely station (received (beacon rsnPsk)) (beacon rsnPsk).length 1 default .wpa2Psk (fun _ => 0)) ∧
    ((checked (beacon (wpsTorn ++ cutShort))).value.map Outcome.accepted = some true ∧
      .wscCopy (-1) ∈ (checked (beacon (wpsTorn ++ cutShort))).log) ∧
    (checked (beacon (wpsLong ++ cutShort))).value.map (fun outcome => (outcome.accepted,
      outcome.parse.vie.take 2,outcome.parse.vie.length)) = some (true,[0xdd,0],258) ∧
    (checked (beacon (rsnLong ++ cutShort))).value.map (fun outcome => (outcome.accepted,
      (assocPostProc .wpa2Psk (varIesSet (fun _ => 0) outcome.parse.vie)
        (BitVec.ofNat 16 outcome.parse.vie.length)).log)) = some (true,[.move 256 0,.advance 256 256]) := by
  refine ⟨⟨by decide +kernel,fun safe => absurd safe.1 (by decide +kernel)⟩,⟨by decide +kernel,by decide +kernel⟩,?_,?_⟩
  · decide +kernel
  · decide +kernel

end RtmpDriver.VarIes
