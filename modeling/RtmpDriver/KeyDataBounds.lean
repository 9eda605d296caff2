import RtmpDriver.AccessLog
import RtmpDriver.WpaGroupKey

/-! The memory that PeerWpaMessageSanity and RTMPParseEapolKeyData touch: the received message, from Elem->Msg on, the
KEYDATA buffer and the GTK arrays. A comparison counts as a read of the fields it compares. -/
namespace RtmpDriver.KeyDataBounds
open AccessLog EapolFrame WpaSupplicant List
open EapolBuild (sampleCrypto)
open WpaGroupKey (wrappedFrame wrappedRead gtkKde groupMsg1)

def maxLenOfRsnie : Nat := 255
def maxLenGtk : Nat := 32

inductive Access where
  | readMsg (span : Span)
  | writeMsg (span : Span)
  | readKeyData (span : Span)
  | writeKeyData (span : Span)
  | writeGtk (span : Span)
  -- the length of the key data, passed as a UCHAR
  | passed (len : Nat)
  | cursor (skipOffset keyDataLength : Nat)
  | unfinished
  deriving DecidableEq

def Access.Bounded (msgLen : Nat) : Access → Prop
  | .readMsg span => span.Within 0 msgLen
  | .writeMsg span => span.Within 0 msgLen
  | .readKeyData span => span.Within 0 maxLenOfRsnie
  | .writeKeyData span => span.Within 0 maxLenOfRsnie
  | .writeGtk span => span.Within 0 maxLenGtk
  | .passed len => len % 256 = len
  | .cursor skipOffset keyDataLength => skipOffset ≤ keyDataLength
  | .unfinished => False

instance (msgLen : Nat) (access : Access) : Decidable (access.Bounded msgLen) := by
  cases access <;> unfold Access.Bounded <;> infer_instance

def gtkLenOf (data : Nat → UInt8) (pEid : Nat) : Nat := ((data (pEid + 1)).toNat + 250) % 256

def kdeAccess (data : Nat → UInt8) (pEid : Nat) (found : Bytes × Nat) : Logged Access (Option (Bytes × Nat)) := do
  note (.readKeyData ⟨pEid,1⟩)
  if data pEid = 0xdd then do
    note (.readKeyData ⟨pEid + 2,3⟩)
    if bytesAt data (pEid + 2) 3 = [0x00,0x0f,0xac] then do
      note (.readKeyData ⟨pEid + 5,1⟩)
      if data (pEid + 5) = 1 then do
        note (.readKeyData ⟨pEid + 6,1⟩)
        if gtkLenOf data pEid < 5 then pure none
        else do
          note (.readKeyData ⟨pEid + 8,gtkLenOf data pEid⟩)
          note (.writeGtk ⟨0,gtkLenOf data pEid⟩)
          pure (some (bytesAt data (pEid + 8) (gtkLenOf data pEid),(data (pEid + 6)).toNat % 4))
      else pure (some found)
    else pure (some found)
  else pure (some found)

def kdeAccesses (data : Nat → UInt8) (keyDataLength : Nat) :
    Nat → Nat → Bytes × Nat → Logged Access (Option (Bytes × Nat))
  | 0,_,found => do
    note .unfinished
    pure (some found)
  | fuel + 1,pEid,found => do
    note (.readKeyData ⟨pEid + 1,1⟩)
    if pEid + 2 + (data (pEid + 1)).toNat ≤ keyDataLength then do
      match ← kdeAccess data pEid found with
      | some found => kdeAccesses data keyDataLength fuel (pEid + 2 + (data (pEid + 1)).toNat) found
      | none => pure none
    else do
      note (.cursor pEid keyDataLength)
      pure (some found)

def parseAccesses (sta : Sta) (keyData : Bytes) (len groupKeyIndex : Nat) (type : MsgType) :
    Logged Access (Option Sta) := do
  note (.passed len)
  let keyDataLength := len % 256
  let wpa2 := sta.entry.authMode.isWpa2
  if type = .pair2 ∨ (type = .pair3 ∧ !wpa2) then pure (some sta)
  else do
    let found ← if wpa2 ∧ (type = .pair3 ∨ type = .group1) then
        kdeAccesses (fun i => keyData.getD i 0) keyDataLength (keyDataLength + 1) 0 ([],0)
      else if !wpa2 ∧ type = .group1 then do
        note (.readKeyData ⟨0,keyDataLength⟩)
        note (.writeGtk ⟨0,keyDataLength⟩)
        pure (some ((range keyDataLength).map fun i => keyData.getD i 0,groupKeyIndex))
      else pure (some ([],0))
    match found with
    | none => pure none
    | some (gtk,index) =>
      if 3 < index then pure none
      else do
        note (.writeGtk ⟨0,gtk.length⟩)
        pure (some (groupKeySet sta gtk index))

def keyInfoAt : Nat := 37
def replayCounterAt : Nat := 41
def keyIvAt : Nat := 81
def keyMicAt : Nat := 113
def keyDataLenAt : Nat := 129
def keyDataAt : Nat := 131

def isAes (key : EapolKey) : Bool := key.info.keyDescVer = keyDescExt ∨ key.info.keyDescVer = keyDescAes

/- The key data of a message: unwrapped or copied into KEYDATA, then parsed. AES_Key_Unwrap gives up when the
allocation fails, which it does for fewer than 8 bytes since PlainLength wraps; KeyDataLen is then set to 0.
TKIP_GTK_KEY_UNWRAP gives up without a word. -/
def keyDataAccesses (crypto : Crypto) (sta : Sta) (mem : Memory) (key : EapolKey) (type : MsgType) :
    Logged Access (Option Sta) :=
  let wpa2 := sta.entry.authMode.isWpa2
  let kek := slice sta.entry.ptk lenPtkKck lenPtkKek
  let index := if !wpa2 then key.info.keyIndex else 0
  if key.keyDataLen = 0 then pure (some sta)
  else if (type = .pair3 ∧ wpa2) ∨ type = .group1 then
    if isAes key then
      if mem.unwrap ∧ 8 ≤ key.keyDataLen then do
        note (.readMsg ⟨keyDataAt,key.keyDataLen⟩)
        note (.writeKeyData ⟨0,key.keyDataLen - 8⟩)
        note (.writeMsg ⟨keyDataLenAt,2⟩)
        parseAccesses sta (crypto.aesKeyUnwrap kek key.keyData) (key.keyDataLen - 8) index type
      else do
        note (.writeMsg ⟨keyDataLenAt,2⟩)
        parseAccesses sta [] 0 index type
    else if mem.unwrap then do
      note (.readMsg ⟨keyIvAt,16⟩)
      note (.readMsg ⟨keyDataAt,key.keyDataLen⟩)
      note (.writeKeyData ⟨0,key.keyDataLen⟩)
      parseAccesses sta (crypto.tkipGtkKeyUnwrap kek key.keyIv key.keyData) key.keyDataLen index type
    else parseAccesses sta [] key.keyDataLen index type
  else if type = .pair2 ∨ (type = .pair3 ∧ !wpa2) then do
    note (.readMsg ⟨keyDataAt,key.keyDataLen⟩)
    note (.writeKeyData ⟨0,key.keyDataLen⟩)
    parseAccesses sta key.keyData key.keyDataLen 0 type
  else pure (some sta)

def micAccesses (key : EapolKey) : Logged Access PUnit := do
  note (.readMsg ⟨length80211 + length8021H + 2,2⟩)
  note (.readMsg ⟨keyMicAt,lenKeyDescMic⟩)
  note (.writeMsg ⟨keyMicAt,lenKeyDescMic⟩)
  if key.info.keyDescVer = keyDescTkip ∨ isAes key then note (.readMsg ⟨length80211 + length8021H,key.eapolLen⟩)
  else pure ⟨⟩

def sanityAccesses (crypto : Crypto) (sta : Sta) (mem : Memory) (key : EapolKey) (type : MsgType) :
    Logged Access (Option Sta) :=
  if !mem.keyData then pure none
  else do
    note (.writeKeyData ⟨0,maxLenOfRsnie⟩)
    note (.readMsg ⟨keyInfoAt,2⟩)
    note (.readMsg ⟨replayCounterAt,lenKeyDescReplay⟩)
    if replayDiffers sta.entry.rCounter type key.replayCounter then pure none
    else do
      if type = .pair1 then pure ⟨⟩ else micAccesses key
      if type ≠ .pair1 ∧ key.keyMic ≠ expectedMic crypto sta.entry.ptk key then pure none
      else do
        note (.readMsg ⟨keyDataLenAt,2⟩)
        keyDataAccesses crypto sta mem key type

/- What the handlers check before they call PeerWpaMessageSanity; in station mode that of message 2 never does. -/
def calls (sta : Sta) (elem : Elem) : MsgType → Bool
  | .pair1 => sta.entry.entryType.isPeer && !shortMsg elem
  | .pair2 => false
  | .pair3 => sta.entry.entryType.isPeer && !shortMsg elem
  | .pair4 => decide (sta.entry.entryType = .client) && !shortMsg elem &&
      decide (ApWpaState.ptkInitNegotiating.level ≤ sta.entry.wpaState.level)
  | .group1 => sta.entry.entryType.isPeer
  | .group2 => decide (sta.entry.entryType = .client) &&
      decide (length8021H + lengthEapolH + minLenOfEapolKeyMsg ≤
        (elem.msgLen - BitVec.ofNat 64 length80211).toNat % 2 ^ 32) &&
      decide (sta.entry.wpaState = .ptkInitDone)

def wpaKeyAccesses (crypto : Crypto) (sta : Sta) (elem : Elem) (mem : Memory) : Logged Access (Option Sta) :=
  match dispatch noPmf sta.entry elem with
  | none => pure none
  | some type => if calls sta elem type then sanityAccesses crypto sta mem (eapolKey elem) type else pure none

section Walk
variable {data : Nat → UInt8} {msgLen keyDataLength fuel pEid : Nat} {found : Bytes × Nat}

def tooShort (data : Nat → UInt8) (pEid : Nat) : Bool :=
  data pEid = 0xdd ∧ bytesAt data (pEid + 2) 3 = [0x00,0x0f,0xac] ∧ data (pEid + 5) = 1 ∧ gtkLenOf data pEid < 5

def KdeFits (data : Nat → UInt8) (pEid : Nat) : Prop :=
  data pEid = 0xdd → pEid + 5 ≤ maxLenOfRsnie ∧ (bytesAt data (pEid + 2) 3 = [0x00,0x0f,0xac] →
    pEid + 6 ≤ maxLenOfRsnie ∧ (data (pEid + 5) = 1 → pEid + 7 ≤ maxLenOfRsnie ∧ (5 ≤ gtkLenOf data pEid →
      pEid + 8 + gtkLenOf data pEid ≤ maxLenOfRsnie ∧ gtkLenOf data pEid ≤ maxLenGtk)))

def kdeCursors (data : Nat → UInt8) (keyDataLength : Nat) : Nat → Nat → List Nat
  | 0,_ => []
  | fuel + 1,pEid => pEid ::
    (if pEid + 2 + (data (pEid + 1)).toNat ≤ keyDataLength ∧ tooShort data pEid = false then
      kdeCursors data keyDataLength fuel (pEid + 2 + (data (pEid + 1)).toNat) else [])

def CursorFits (data : Nat → UInt8) (keyDataLength pEid : Nat) : Prop :=
  pEid + 2 ≤ maxLenOfRsnie ∧ (pEid + 2 + (data (pEid + 1)).toNat ≤ keyDataLength → KdeFits data pEid)

def WalkFits (data : Nat → UInt8) (keyDataLength : Nat) : Prop :=
  ∀ pEid ∈ kdeCursors data keyDataLength (keyDataLength + 1) 0, CursorFits data keyDataLength pEid

theorem kdeValue (entry data pEid found) :
    (kdeAccess data pEid found).value = kdeAt noPmf entry data pEid found := by
  have length : ((data (pEid + 1)).toNat + 250) % 256 = gtkLenOf data pEid := rfl
  simp only [kdeAt,length,noPmf,kdeAccess,bindValue,apply_ite Logged.value]
  split_ifs <;> simp_all

theorem kdeNone : (kdeAccess data pEid found).value = none ↔ tooShort data pEid = true := by
  simp only [kdeAccess,tooShort,bindValue,apply_ite Logged.value,decide_eq_true_eq]
  split_ifs <;> simp_all

theorem kdeReads : All (Access.Bounded msgLen) (kdeAccess data pEid found) ↔
    pEid + 1 ≤ maxLenOfRsnie ∧ KdeFits data pEid := by
  simp only [kdeAccess,KdeFits,allBind,allNote,allIte,Access.Bounded,Span.Within,Nat.zero_le,true_and]
  grind [allPure]

theorem kdeGtk (bounded : All (Access.Bounded msgLen) (kdeAccess data pEid found)) (small : found.1.length ≤ maxLenGtk)
    {next} (some : (kdeAccess data pEid found).value = some next) : next.1.length ≤ maxLenGtk := by
  obtain ⟨_,fits⟩ := kdeReads.mp bounded
  simp only [kdeAccess,bindValue,apply_ite Logged.value] at some
  split_ifs at some with kde oui gtk short
  · cases some
    have room := ((((fits kde).2 oui).2 gtk).2 (Nat.not_lt.mp short)).2
    simpa [bytesAt] using room
  all_goals cases some; exact small

theorem walkValue (entry data keyDataLength fuel pEid found) :
    (kdeAccesses data keyDataLength fuel pEid found).value =
      kdeLoop noPmf entry data keyDataLength fuel pEid found := by
  induction fuel generalizing pEid found with
  | zero => rfl
  | succ fuel ih =>
    unfold kdeAccesses kdeLoop
    simp only [bindValue]
    split
    · simp only [bindValue,kdeValue entry]
      cases kdeAt noPmf entry data pEid found with
      | none => rfl
      | some next => exact ih _ next
    · rfl

theorem walkReads (inside : pEid ≤ keyDataLength) (enough : keyDataLength - pEid < fuel) (found) :
    All (Access.Bounded msgLen) (kdeAccesses data keyDataLength fuel pEid found) ↔
      ∀ q ∈ kdeCursors data keyDataLength fuel pEid, CursorFits data keyDataLength q := by
  induction fuel generalizing pEid found with
  | zero => omega
  | succ fuel ih =>
    unfold kdeAccesses kdeCursors
    simp only [allBind,allNote,forall_mem_cons,CursorFits]
    have read : (Access.readKeyData ⟨pEid + 1,1⟩).Bounded msgLen ↔ pEid + 2 ≤ maxLenOfRsnie := by
      simp only [Access.Bounded,Span.Within]
      omega
    rw [read,and_assoc]
    refine and_congr_right fun room => ?_
    split
    next whole =>
      have here : All (Access.Bounded msgLen) (kdeAccess data pEid found) ↔ KdeFits data pEid := by
        rw [kdeReads]
        exact and_iff_right (by omega)
      rw [allBind,here]
      simp only [whole,true_imp_iff,true_and]
      refine and_congr_right fun _ => ?_
      cases value : (kdeAccess data pEid found).value with
      | none =>
        rw [kdeNone.mp value]
        simp
      | some next =>
        have goesOn : tooShort data pEid = false := Bool.eq_false_iff.mpr fun short => by
          rw [kdeNone.mpr short] at value
          cases value
        rw [if_pos goesOn]
        exact ih whole (by omega) next
    next short =>
      rw [allBind,allNote,if_neg (fun both => short both.1)]
      simp [Access.Bounded,inside,short]

theorem walkGtk (bounded : All (Access.Bounded msgLen) (kdeAccesses data keyDataLength fuel pEid found))
    (small : found.1.length ≤ maxLenGtk) {last}
    (some : (kdeAccesses data keyDataLength fuel pEid found).value = some last) : last.1.length ≤ maxLenGtk := by
  induction fuel generalizing pEid found with
  | zero =>
    cases some
    exact small
  | succ fuel ih =>
    unfold kdeAccesses at bounded some
    simp only [allBind,bindValue] at bounded some
    split at some
    next whole =>
      rw [if_pos whole,allBind] at bounded
      simp only [bindValue] at some
      cases value : (kdeAccess data pEid found).value with
      | none =>
        rw [value] at some
        cases some
      | some next =>
        rw [value] at some bounded
        exact ih bounded.2.2 (kdeGtk bounded.2.1 small value) some
    next =>
      cases some
      exact small

end Walk

section Parse
variable {msgLen len index : Nat} {sta : Sta} {keyData : Bytes} {type : MsgType}

def ParseFits (sta : Sta) (keyData : Bytes) (len : Nat) (type : MsgType) : Prop :=
  len < 256 ∧ (sta.entry.authMode.isWpa2 = true → type = .pair3 ∨ type = .group1 →
    WalkFits (fun i => keyData.getD i 0) len) ∧
  (sta.entry.authMode.isWpa2 = false → type = .group1 → len ≤ maxLenGtk)

theorem installReads (sta found) (small : ∀ last, found = some last → last.1.length ≤ maxLenGtk) :
    All (Access.Bounded msgLen) (match found with
      | none => (pure none : Logged Access (Option Sta))
      | some (gtk,index) =>
        if 3 < index then pure none
        else do
          note (.writeGtk ⟨0,gtk.length⟩)
          pure (some (groupKeySet sta gtk index))) := by
  cases found with
  | none => exact allPure none
  | some last =>
    have room := small last rfl
    simp only
    split
    · exact allPure none
    · rw [allBind,allNote]
      exact ⟨⟨Nat.zero_le _,by rwa [Nat.zero_add]⟩,allPure _⟩

theorem parseReads : All (Access.Bounded msgLen) (parseAccesses sta keyData len index type) ↔
    ParseFits sta keyData len type := by
  have whole : (Access.passed len).Bounded msgLen ↔ len < 256 := by
    simp only [Access.Bounded]
    omega
  unfold parseAccesses ParseFits
  simp only [allBind,allNote,whole]
  refine and_congr_right fun fits => ?_
  rw [Nat.mod_eq_of_lt fits]
  split
  next early =>
    rcases early with rfl | ⟨rfl,wpa⟩
    · simp
    · simp only [Bool.not_eq_true'] at wpa
      simp [wpa]
  next late =>
    split
    next walk =>
      obtain ⟨wpa2,kind⟩ := walk
      have reads : All (Access.Bounded msgLen) (kdeAccesses (fun i => keyData.getD i 0) len (len + 1) 0 ([],0)) ↔
          WalkFits (fun i => keyData.getD i 0) len :=
        walkReads (Nat.zero_le len) (Nat.lt_succ_of_le (Nat.sub_le len 0)) ([],0)
      rw [allBind,reads]
      simp only [wpa2,kind,true_imp_iff,Bool.true_eq_false,false_imp_iff,and_true]
      refine ⟨fun both => both.1,fun fits => ⟨fits,installReads sta _ fun last some => ?_⟩⟩
      exact walkGtk (reads.mpr fits) (Nat.zero_le _) some
    next other =>
      split
      next plain =>
        obtain ⟨wpa,rfl⟩ := plain
        simp only [Bool.not_eq_true'] at wpa
        simp only [wpa,allBind,allNote,Access.Bounded,Span.Within,Nat.zero_le,Nat.zero_add,true_and,true_imp_iff,
          Bool.false_eq_true,false_imp_iff,pureValue]
        have rsnie : maxLenOfRsnie = 255 := rfl
        refine ⟨fun all => all.2.1,fun room => ⟨by omega,room,allPure _,?_⟩⟩
        exact installReads sta (some ((range len).map fun i => keyData.getD i 0,index)) fun last same => by
          cases same
          simpa using room
      next neither =>
        rw [allBind]
        refine ⟨fun _ => ⟨fun wpa2 kind => absurd ⟨wpa2,kind⟩ other,fun wpa group => ?_⟩,fun _ => ⟨allPure _,?_⟩⟩
        · exact absurd ⟨by rw [wpa]; rfl,group⟩ neither
        · exact installReads sta (some ([],0)) fun last same => by
            cases same
            exact Nat.zero_le _

theorem parseValue : (parseAccesses sta keyData len index type).value =
    rtmpParseEapolKeyData noPmf sta keyData (len % 256) index type := by
  unfold parseAccesses rtmpParseEapolKeyData
  simp only [bindValue,apply_ite Logged.value,walkValue sta.entry,pureValue]
  split_ifs
  · rfl
  · generalize kdeLoop noPmf sta.entry _ _ _ _ _ = found
    cases found with
    | none => rfl
    | some last =>
      dsimp only
      split <;> rfl
  all_goals simp_all

theorem parseNothing (sta type) : ParseFits sta [] 0 type := by
  refine ⟨by decide,fun _ _ pEid member => ?_,fun _ _ => Nat.zero_le _⟩
  have first : pEid = 0 := by simpa [kdeCursors] using member
  subst first
  exact ⟨by decide,fun whole => by omega⟩

end Parse

section Sanity
variable {crypto : Crypto} {sta : Sta} {mem : Memory} {key : EapolKey} {type : MsgType} {msgLen : Nat}

def KeyDataFits (crypto : Crypto) (sta : Sta) (mem : Memory) (key : EapolKey) (type : MsgType) (msgLen : Nat) : Prop :=
  let wpa2 := sta.entry.authMode.isWpa2
  let kek := slice sta.entry.ptk lenPtkKck lenPtkKek
  if key.keyDataLen = 0 then True
  else if (type = .pair3 ∧ wpa2) ∨ type = .group1 then
    if isAes key then
      mem.unwrap ∧ 8 ≤ key.keyDataLen → keyDataAt + key.keyDataLen ≤ msgLen ∧
        ParseFits sta (crypto.aesKeyUnwrap kek key.keyData) (key.keyDataLen - 8) type
    else if mem.unwrap then keyDataAt + key.keyDataLen ≤ msgLen ∧
      ParseFits sta (crypto.tkipGtkKeyUnwrap kek key.keyIv key.keyData) key.keyDataLen type
    else ParseFits sta [] key.keyDataLen type
  else if type = .pair2 ∨ (type = .pair3 ∧ !wpa2) then
    keyDataAt + key.keyDataLen ≤ msgLen ∧ ParseFits sta key.keyData key.keyDataLen type
  else True

theorem keyDataReads (fixed : keyDataAt ≤ msgLen) :
    All (Access.Bounded msgLen) (keyDataAccesses crypto sta mem key type) ↔
      KeyDataFits crypto sta mem key type msgLen := by
  have place : keyDataAt = 131 := rfl
  have rsnie : maxLenOfRsnie = 255 := rfl
  have length : (Access.writeMsg ⟨keyDataLenAt,2⟩).Bounded msgLen := by
    simp only [Access.Bounded,Span.Within,keyDataLenAt]
    omega
  have iv : (Access.readMsg ⟨keyIvAt,16⟩).Bounded msgLen := by
    simp only [Access.Bounded,Span.Within,keyIvAt]
    omega
  have room (n : Nat) (data : Bytes) : (Access.writeKeyData ⟨0,n⟩).Bounded msgLen ∧ ParseFits sta data n type ↔
      ParseFits sta data n type := by
    refine and_iff_right_of_imp fun fits => ⟨Nat.zero_le _,?_⟩
    have small := fits.1
    simp only
    omega
  unfold keyDataAccesses KeyDataFits
  simp only
  split
  · simp
  split
  · split
    · split
      next unwrapped =>
        simp only [allBind,allNote,parseReads,length,true_and,room,unwrapped,true_imp_iff,and_self]
        simp [Access.Bounded,Span.Within]
      next failed =>
        simp only [allBind,allNote,parseReads,length,true_and,parseNothing,true_iff]
        exact fun unwrapped => absurd unwrapped failed
    · split
      · simp only [allBind,allNote,parseReads,iv,true_and,room]
        simp [Access.Bounded,Span.Within]
      · exact parseReads
  · split
    · simp only [allBind,allNote,parseReads,room]
      simp [Access.Bounded,Span.Within]
    · simp

def SanityFits (crypto : Crypto) (sta : Sta) (mem : Memory) (key : EapolKey) (type : MsgType) (msgLen : Nat) : Prop :=
  if replayDiffers sta.entry.rCounter type key.replayCounter then replayCounterAt + lenKeyDescReplay ≤ msgLen
  else keyDataAt ≤ msgLen ∧ KeyDataFits crypto sta mem key type msgLen

theorem micReads (fixed : keyDataAt ≤ msgLen) (body : length80211 + length8021H + key.eapolLen ≤ msgLen) :
    All (Access.Bounded msgLen) (micAccesses key) := by
  have place : keyDataAt = 131 := rfl
  have header : length80211 + length8021H = 32 := rfl
  have mic : keyMicAt + lenKeyDescMic = 129 := rfl
  simp only [micAccesses,allBind,allNote,Access.Bounded,Span.Within]
  refine ⟨by omega,by omega,by omega,?_⟩
  split
  · exact allNote.mpr ⟨Nat.zero_le _,body⟩
  · exact allPure _

theorem sanityReads (mic : type = .pair1 ∨ key.keyMic = expectedMic crypto sta.entry.ptk key)
    (body : keyDataAt ≤ msgLen → length80211 + length8021H + key.eapolLen ≤ msgLen) :
    All (Access.Bounded msgLen) (sanityAccesses crypto sta mem key type) ↔
      (mem.keyData = true → SanityFits crypto sta mem key type msgLen) := by
  have place : keyDataAt = 131 := rfl
  have counter : replayCounterAt + lenKeyDescReplay = 49 := rfl
  have verified : ¬ (type ≠ .pair1 ∧ key.keyMic ≠ expectedMic crypto sta.entry.ptk key) := by
    rintro ⟨other,differs⟩
    exact mic.elim other differs
  have rest : All (Access.Bounded msgLen) (note (.readMsg ⟨keyDataLenAt,2⟩) >>= fun _ =>
      keyDataAccesses crypto sta mem key type) ↔ keyDataAt ≤ msgLen ∧ KeyDataFits crypto sta mem key type msgLen := by
    have length : (Access.readMsg ⟨keyDataLenAt,2⟩).Bounded msgLen ↔ keyDataAt ≤ msgLen := by
      simp only [Access.Bounded,Span.Within,keyDataLenAt]
      omega
    rw [allBind,allNote,length]
    exact and_congr_right keyDataReads
  unfold sanityAccesses SanityFits
  split
  next none =>
    rw [Bool.not_eq_true'] at none
    simp [none]
  next allocated =>
    rw [Bool.not_eq_true',Bool.not_eq_false] at allocated
    simp only [allocated,true_imp_iff,allBind,allNote,Access.Bounded,Span.Within,keyInfoAt,counter]
    split
    next differs =>
      simp only [allPure,and_true]
      omega
    next fresh =>
      split
      next first =>
        rw [rest]
        exact ⟨fun all => all.2.2.2,fun fits => ⟨by simp,by omega,by omega,fits⟩⟩
      next other =>
        rw [allBind,rest]
        exact ⟨fun all => all.2.2.2.2,fun fits => ⟨by simp,by omega,by omega,micReads fits.1 (body fits.1),fits⟩⟩

theorem keyDataValue : (keyDataAccesses crypto sta mem key type).value =
    keyDataChecked noPmf crypto sta mem key type := by
  simp only [keyDataAccesses,keyDataChecked,plainKeyData,isAes,decide_eq_true_eq]
  split_ifs <;> first | rfl | exact parseValue

theorem sanityValue : (sanityAccesses crypto sta mem key type).value =
    peerWpaMessageSanity noPmf crypto sta mem key type := by
  have checked : (keyDataAccesses crypto sta mem key type).value = keyDataChecked noPmf crypto sta mem key type :=
    keyDataValue
  unfold sanityAccesses peerWpaMessageSanity
  split
  · rfl
  simp only [bindValue]
  split
  · rfl
  by_cases first : type = .pair1
  · simp only [first,bindValue,ne_eq,not_true,false_and,if_false,if_true] at checked ⊢
    exact checked
  · simp only [first,bindValue,ne_eq,not_false_iff,true_and,if_false]
    split
    · rfl
    · exact checked

end Sanity

section Message
variable {crypto : Crypto} {sta : Sta} {elem : Elem} {mem : Memory} {type : MsgType}

theorem dispatchBody (sent : dispatch noPmf sta.entry elem = some type) (fixed : keyDataAt ≤ elem.msgLen.toNat) :
    length80211 + length8021H + (eapolKey elem).eapolLen ≤ elem.msgLen.toNat := by
  have place : keyDataAt = 131 := rfl
  have header : length80211 + length8021H = 32 := rfl
  have enough : ¬ (elem.msgLen - BitVec.ofNat 64 (length80211 + length8021H)).toNat < (eapolKey elem).eapolLen := by
    intro short
    unfold dispatch at sent
    simp only [short,if_true] at sent
    split at sent
    · cases sent
    · split at sent
      · cases sent
      · cases sent
  rw [header] at enough ⊢
  have left : (elem.msgLen - BitVec.ofNat 64 32).toNat = elem.msgLen.toNat - 32 := by bv_omega
  omega

def KeyDataSafe (crypto : Crypto) (sta : Sta) (elem : Elem) (mem : Memory) : Prop :=
  ∀ type, dispatch noPmf sta.entry elem = some type → calls sta elem type = true → mem.keyData = true →
    SanityFits crypto sta mem (eapolKey elem) type elem.msgLen.toNat

def MicVerified (crypto : Crypto) (sta : Sta) (elem : Elem) : Prop :=
  ∀ type, dispatch noPmf sta.entry elem = some type →
    type = .pair1 ∨ (eapolKey elem).keyMic = expectedMic crypto sta.entry.ptk (eapolKey elem)

theorem keyDataBounded (crypto : Crypto) (sta : Sta) (elem : Elem) (mem : Memory)
    (mic : MicVerified crypto sta elem) :
    All (Access.Bounded elem.msgLen.toNat) (wpaKeyAccesses crypto sta elem mem) ↔ KeyDataSafe crypto sta elem mem := by
  unfold wpaKeyAccesses KeyDataSafe
  cases sent : dispatch noPmf sta.entry elem with
  | none => simp
  | some type =>
    simp only [Option.some.injEq,forall_eq']
    split
    next called =>
      simp only [called,true_imp_iff]
      exact sanityReads (mic type sent) (dispatchBody sent)
    next skipped => simp [skipped]

theorem accessesUnwrapped {plain}
    (same : crypto.aesKeyUnwrap (slice sta.entry.ptk lenPtkKck lenPtkKek) (eapolKey elem).keyData = plain) :
    wpaKeyAccesses crypto sta elem mem =
      wpaKeyAccesses {crypto with aesKeyUnwrap := fun _ _ => plain} sta elem mem := by
  simp only [wpaKeyAccesses,sanityAccesses,keyDataAccesses,same]
  rfl

end Message

theorem sampleUnwrapped (elem mem) {plain}
    (data : (eapolKey elem).keyData = KeyWrap.aesKeyWrap (replicate 16 0) plain) :
    wpaKeyAccesses sampleCrypto (sampleSta .wpa2Psk .aesEnable) elem mem =
      wpaKeyAccesses {sampleCrypto with aesKeyUnwrap := fun _ _ => plain} (sampleSta .wpa2Psk .aesEnable) elem mem := by
  refine accessesUnwrapped ?_
  rw [data]
  exact KeyWrap.aesUnwrapWrap (replicate 16 0) plain

theorem keyDataBoundedGroup :
    dispatch noPmf (sampleSta .wpa2Psk .aesEnable).entry groupMsg1 = some .group1 ∧
      KeyDataSafe sampleCrypto (sampleSta .wpa2Psk .aesEnable) groupMsg1 allMemory := by
  have sent : dispatch noPmf (sampleSta .wpa2Psk .aesEnable).entry groupMsg1 = some .group1 := by decide +kernel
  refine ⟨sent,(keyDataBounded sampleCrypto (sampleSta .wpa2Psk .aesEnable) groupMsg1 allMemory ?_).mp ?_⟩
  · exact fun _ _ => .inr (by decide +kernel)
  · rw [sampleUnwrapped groupMsg1 allMemory (wrappedRead 0x03 0x82 1 0 gtkKde (by decide)).2,All]
    decide +kernel

def longKde : Bytes := [0xdd,46,0x00,0x0f,0xac,1,1,0] ++ replicate 40 0x5a

def longGtk : Elem := wrappedFrame 0x03 0x82 1 0 longKde

def shortGroup : Elem := {groupMsg1 with msgLen := 16}

theorem keyDataUnbounded :
    (MicVerified sampleCrypto (sampleSta .wpa2Psk .aesEnable) longGtk ∧
      .writeGtk ⟨0,40⟩ ∈ (wpaKeyAccesses sampleCrypto (sampleSta .wpa2Psk .aesEnable) longGtk allMemory).log ∧
      ¬ All (Access.Bounded longGtk.msgLen.toNat)
        (wpaKeyAccesses sampleCrypto (sampleSta .wpa2Psk .aesEnable) longGtk allMemory)) ∧
    (MicVerified sampleCrypto (sampleSta .wpa2Psk .aesEnable) shortGroup ∧
      .readMsg ⟨keyDataAt,32⟩ ∈ (wpaKeyAccesses sampleCrypto (sampleSta .wpa2Psk .aesEnable) shortGroup allMemory).log ∧
      ¬ All (Access.Bounded shortGroup.msgLen.toNat)
        (wpaKeyAccesses sampleCrypto (sampleSta .wpa2Psk .aesEnable) shortGroup allMemory)) := by
  have mic : MicVerified sampleCrypto (sampleSta .wpa2Psk .aesEnable) longGtk := fun _ _ => .inr (by decide +kernel)
  have mic' : MicVerified sampleCrypto (sampleSta .wpa2Psk .aesEnable) shortGroup := fun _ _ => .inr (by decide +kernel)
  have copied : .writeGtk ⟨0,40⟩ ∈
      (wpaKeyAccesses sampleCrypto (sampleSta .wpa2Psk .aesEnable) longGtk allMemory).log := by
    rw [sampleUnwrapped longGtk allMemory (wrappedRead 0x03 0x82 1 0 longKde (by decide)).2]
    decide +kernel
  have read : .readMsg ⟨keyDataAt,32⟩ ∈
      (wpaKeyAccesses sampleCrypto (sampleSta .wpa2Psk .aesEnable) shortGroup allMemory).log := by
    rw [sampleUnwrapped shortGroup allMemory (wrappedRead 0x03 0x82 1 0 gtkKde (by decide)).2]
    decide +kernel
  refine ⟨⟨mic,copied,fun bounded => ?_⟩,⟨mic',read,fun bounded => ?_⟩⟩
  · exact absurd (bounded _ copied) (by decide +kernel)
  · exact absurd (bounded _ read) (by decide)

end RtmpDriver.KeyDataBounds
