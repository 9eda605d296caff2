import RtmpDriver.WpaMoves
import RtmpDriver.WpaTransport

/-! The group key across a key frame. RTMPParseEapolKeyData installs what it finds, also when it has found no GTK at
all. `carried` is the GTK of a frame by the format of its key data, `parsed` what the driver's walk makes of it. A
frame that is `Proper` is one on which the two agree. -/
namespace RtmpDriver.WpaGroupKey
open EapolFrame WpaSupplicant WpaMic WpaMoves List
open WpaTransport (bytesAtOf HoldsGtk KeyFits GtkInstalled setInstalled)
open EapolBuild (Digests driverCrypto sampleMac sampleDigests sampleCrypto)

def starts : Nat → Bytes → List Bytes
  | fuel + 1,eid :: len :: rest =>
    if len.toNat ≤ rest.length then (eid :: len :: rest) :: starts fuel (rest.drop len.toNat) else []
  | _,_ => []

def kdeLen (tail : Bytes) : Nat := (tail.getD 1 0).toNat

def OpensGtk (tail : Bytes) : Prop := tail.getD 0 0 = 0xdd ∧ slice tail 2 4 = [0x00,0x0f,0xac,1]

instance (tail : Bytes) : Decidable (OpensGtk tail) := by unfold OpensGtk; infer_instance

def gtkOf (tail : Bytes) : Option (Bytes × Nat) :=
  if OpensGtk tail ∧ 6 ≤ kdeLen tail then some (slice tail 8 (kdeLen tail - 6),(tail.getD 6 0).toNat % 4) else none

def gtkIn (wpa2 : Bool) (data : Bytes) (index : Nat) : Option (Bytes × Nat) :=
  if wpa2 then ((starts data.length data).filterMap gtkOf).getLast?
  else if data = [] then none
  else some (data,index)

def padded (data : Bytes) (len : Nat) : Bytes := (range len).map fun i => data.getD i 0

def carried (crypto : Crypto) (entry : MacEntry) (key : EapolKey) (type : MsgType) : Option (Bytes × Nat) :=
  if key.keyDataLen = 0 then none
  else match plainKeyData crypto entry allMemory key type with
    | none => none
    | some (data,len,index) => gtkIn entry.authMode.isWpa2 (padded data len) index

def keyBytes (crypto : Crypto) (entry : MacEntry) (key : EapolKey) (type : MsgType) : Bytes :=
  match plainKeyData crypto entry allMemory key type with
  | none => []
  | some (data,len,_) => padded data len

def parsed (crypto : Crypto) (entry : MacEntry) (mem : Memory) (key : EapolKey) (type : MsgType) :
    Option (Bytes × Nat) :=
  match plainKeyData crypto entry mem key type with
  | none => none
  | some (data,len,index) =>
    let found :=
      if entry.authMode.isWpa2 then
        kdeLoop noPmf entry (fun i => data.getD i 0) (len % 256) (len % 256 + 1) 0 ([],0)
      else some (padded data (len % 256),index)
    match found with
    | some (gtk,index) => if 3 < index then none else some (gtk,index)
    | none => none

structure GroupState where
  gtk : Bytes
  defaultKeyId : Nat
  sharedKey : Nat → CipherKey

def groupState (sta : Sta) : GroupState := ⟨sta.gtk,sta.defaultKeyId,sta.sharedKey⟩

def BringsKey (entry : MacEntry) (type : MsgType) : Prop :=
  type = .pair3 ∧ entry.authMode.isWpa2 = true ∨ type = .group1

def OtherNonce (sta : Sta) (key : EapolKey) (type : MsgType) : Prop :=
  type = .pair3 ∧ sta.entry.aNonce ≠ key.keyNonce

instance (sta : Sta) (key : EapolKey) (type : MsgType) : Decidable (OtherNonce sta key type) := by
  unfold OtherNonce; infer_instance

def Taken (crypto : Crypto) (sta : Sta) (elem : Elem) (mem : Memory) (type : MsgType) : Prop :=
  ¬ (type = .pair3 ∧ shortMsg elem = true) ∧
    (peerWpaMessageSanity noPmf crypto sta mem (eapolKey elem) type).isSome

def Rejects (crypto : Crypto) (sta : Sta) (elem : Elem) (mem : Memory) (type : MsgType) : Prop :=
  ¬ Taken crypto sta elem mem type ∨ OtherNonce sta (eapolKey elem) type

structure AllOrNothing (crypto : Crypto) (sta : Sta) (elem : Elem) (mem : Memory) (type : MsgType)
    (next : Sta) : Prop where
  nothing : Rejects crypto sta elem mem type ∨ carried crypto sta.entry (eapolKey elem) type = none →
    groupState next = groupState sta
  all : ¬ Rejects crypto sta elem mem type → ∀ gtk index,
    carried crypto sta.entry (eapolKey elem) type = some (gtk,index) →
    5 ≤ gtk.length ∧ gtk.length ≤ 32 ∧ GtkInstalled sta next gtk index

/- The frame is turned away, or found to have no key data, before its key data is read. -/
def Stopped (crypto : Crypto) (sta : Sta) (elem : Elem) (mem : Memory) (type : MsgType) : Prop :=
  type = .pair3 ∧ shortMsg elem = true ∨ mem.keyData = false ∨
    replayDiffers sta.entry.rCounter type (eapolKey elem).replayCounter = true ∨
    (eapolKey elem).keyMic ≠ expectedMic crypto sta.entry.ptk (eapolKey elem) ∨ (eapolKey elem).keyDataLen = 0

def Malformed (entry : MacEntry) (data : Bytes) : Prop :=
  entry.authMode.isWpa2 = true ∧
    ∃ tail ∈ starts data.length data, OpensGtk tail ∧ 6 ≤ kdeLen tail ∧ kdeLen tail < 11

structure WellFormed (sta : Sta) (data : Bytes) (gtk : Option (Bytes × Nat)) : Prop where
  long : sta.entry.authMode.isWpa2 = true → ∀ tail ∈ starts data.length data, OpensGtk tail → 11 ≤ kdeLen tail
  fits : ∃ key ∈ gtk, KeyFits sta.groupCipher key.1

def Proper (crypto : Crypto) (sta : Sta) (elem : Elem) (mem : Memory) (type : MsgType) : Prop :=
  let data := keyBytes crypto sta.entry (eapolKey elem) type
  Stopped crypto sta elem mem type ∨ mem.unwrap = true ∧ data.length < 256 ∧
    (Malformed sta.entry data ∨ ¬ OtherNonce sta (eapolKey elem) type ∧
      WellFormed sta data (carried crypto sta.entry (eapolKey elem) type))

section Walk
variable {entry : MacEntry} {d : Bytes} {offset : Nat} {found : Bytes × Nat}

theorem dropAt (d : Bytes) (offset k) : d.getD (offset + k) 0 = (d.drop offset).getD k 0 := by
  simp only [getD_eq_getElem?_getD,getElem?_drop]

theorem kdeLenAt (d : Bytes) (offset) : (d.getD (offset + 1) 0).toNat = kdeLen (d.drop offset) := by
  rw [dropAt,kdeLen]

theorem opensAt (d : Bytes) (offset) : OpensGtk (d.drop offset) ↔
    (d.getD offset 0 = 0xdd ∧ bytesAt (fun i => d.getD i 0) (offset + 2) 3 = [0x00,0x0f,0xac]) ∧
      d.getD (offset + 5) 0 = 1 := by
  have bytes : bytesAt (fun i => d.getD i 0) (offset + 2) 3 =
      [(d.drop offset).getD 2 0,(d.drop offset).getD 3 0,(d.drop offset).getD 4 0] := by
    simp only [← dropAt]
    rfl
  rw [bytes,dropAt d offset 5,← Nat.add_zero offset,dropAt,Nat.add_zero]
  generalize d.drop offset = tail
  unfold OpensGtk slice
  match tail with
  | [] | [_] | [_,_] | [_,_,_] | [_,_,_,_] | [_,_,_,_,_] => simp
  | _ :: _ :: a :: b :: c :: e :: _ => simp [and_assoc]

theorem kdeAtOther (other : ¬ OpensGtk (d.drop offset)) :
    kdeAt noPmf entry (fun i => d.getD i 0) offset found = some found := by
  rw [opensAt] at other
  simp only [kdeAt,noPmf]
  split
  next oui => rw [if_neg (fun type => other ⟨oui,type⟩),if_neg (by simp)]
  next => rfl

theorem kdeAtGtk (opens : OpensGtk (d.drop offset)) (six : 6 ≤ kdeLen (d.drop offset))
    (inside : offset + 2 + kdeLen (d.drop offset) ≤ d.length) :
    kdeAt noPmf entry (fun i => d.getD i 0) offset found =
      if kdeLen (d.drop offset) < 11 then none else gtkOf (d.drop offset) := by
  obtain ⟨oui,type⟩ := (opensAt d offset).mp opens
  have len := kdeLenAt d offset
  have small : kdeLen (d.drop offset) < 256 := by
    rw [← len]
    exact (d.getD (offset + 1) 0).toNat_lt
  have gtkLen : (kdeLen (d.drop offset) + 250) % 256 = kdeLen (d.drop offset) - 6 := by omega
  have bytes : bytesAt (fun i => d.getD i 0) (offset + 8) (kdeLen (d.drop offset) - 6) =
      slice (d.drop offset) 8 (kdeLen (d.drop offset) - 6) := by
    rw [bytesAtOf (l := d) (fun _ _ => rfl) (by omega),slice,slice,drop_drop]
  simp only [kdeAt,len,gtkLen,bytes,if_pos oui,if_pos type,gtkOf,if_pos (And.intro opens six),dropAt d offset 6]
  by_cases short : kdeLen (d.drop offset) < 11
  · rw [if_pos (by omega),if_pos short]
  · rw [if_neg (by omega),if_neg short]

theorem startsStep (fuel offset) : offset + 2 + kdeLen (d.drop offset) ≤ d.length ∧
      starts (fuel + 1) (d.drop offset) =
        d.drop offset :: starts fuel (d.drop (offset + 2 + kdeLen (d.drop offset))) ∨
    ¬ offset + 2 + kdeLen (d.drop offset) ≤ d.length ∧ starts (fuel + 1) (d.drop offset) = [] := by
  have size : (d.drop offset).length = d.length - offset := length_drop
  rw [← drop_drop,← drop_drop]
  match tail : d.drop offset with
  | [] | [_] =>
    rw [tail] at size
    exact .inr ⟨by simp at size; omega,rfl⟩
  | eid :: len :: rest =>
    rw [tail,length_cons,length_cons] at size
    have here : kdeLen (eid :: len :: rest) = len.toNat := rfl
    rw [here,starts]
    by_cases inside : len.toNat ≤ rest.length
    · exact .inl ⟨by omega,if_pos inside⟩
    · exact .inr ⟨by omega,if_neg inside⟩

theorem walkFinds (entry) (fuel offset found) (enough : d.length ≤ offset + fuel)
    (long : ∀ tail ∈ starts fuel (d.drop offset), OpensGtk tail → 11 ≤ kdeLen tail) :
    kdeLoop noPmf entry (fun i => d.getD i 0) d.length (fuel + 1) offset found =
      some (((starts fuel (d.drop offset)).filterMap gtkOf).getLast?.getD found) := by
  induction fuel generalizing offset found with
  | zero =>
    rw [kdeLoop,if_neg (by omega)]
    rfl
  | succ fuel ih =>
    rw [kdeLoop,kdeLenAt]
    rcases startsStep (d := d) fuel offset with ⟨inside,next⟩ | ⟨outside,next⟩
    · rw [next] at long ⊢
      have rest := fun found => ih (offset + 2 + kdeLen (d.drop offset)) found (by omega)
        (fun tail member => long tail (mem_cons_of_mem _ member))
      rw [if_pos inside]
      by_cases opens : OpensGtk (d.drop offset)
      · have eleven := long _ mem_cons_self opens
        rw [kdeAtGtk opens (by omega) inside,if_neg (by omega)]
        obtain ⟨gtk,is⟩ : ∃ gtk, gtkOf (d.drop offset) = some gtk :=
          ⟨_,if_pos ⟨opens,by omega⟩⟩
        simp only [is,rest,filterMap_cons_some is,getLast?_cons,Option.getD_some]
      · have none : gtkOf (d.drop offset) = none := if_neg fun both => opens both.1
        simp only [kdeAtOther opens,rest,filterMap_cons_none none]
    · rw [if_neg outside,next]
      rfl

theorem walkRefuses (entry) (fuel offset found) (short : ∃ tail ∈ starts fuel (d.drop offset),
      OpensGtk tail ∧ 6 ≤ kdeLen tail ∧ kdeLen tail < 11) :
    kdeLoop noPmf entry (fun i => d.getD i 0) d.length (fuel + 1) offset found = none := by
  induction fuel generalizing offset found with
  | zero =>
    obtain ⟨_,member,_⟩ := short
    cases member
  | succ fuel ih =>
    rw [kdeLoop,kdeLenAt]
    rcases startsStep (d := d) fuel offset with ⟨inside,next⟩ | ⟨_,next⟩
    · rw [next] at short
      rw [if_pos inside]
      obtain ⟨tail,member,opens,six,less⟩ := short
      rcases mem_cons.mp member with rfl | later
      · rw [kdeAtGtk opens six inside,if_pos less]
      · cases kdeAt noPmf entry (fun i => d.getD i 0) offset found with
        | none => rfl
        | some found => exact ih _ found ⟨tail,later,opens,six,less⟩
    · rw [next] at short
      obtain ⟨_,member,_⟩ := short
      cases member

end Walk

section Action
variable {crypto : Crypto} {sta : Sta} {elem : Elem} {mem : Memory} {type : MsgType}

theorem plainSome (crypto mem key) (brings : BringsKey sta.entry type) :
    ∃ plain, plainKeyData crypto sta.entry mem key type = some plain := by
  have wrapped : (type = .pair3 ∧ sta.entry.authMode.isWpa2 = true) ∨ type = .group1 := brings
  simp only [plainKeyData,if_pos wrapped]
  split
  · split <;> exact ⟨_,rfl⟩
  · exact ⟨_,rfl⟩

theorem parseWpa2 (brings : BringsKey sta.entry type) (wpa2 : sta.entry.authMode.isWpa2 = true) (data len index) :
    rtmpParseEapolKeyData noPmf sta data len index type =
      (kdeLoop noPmf sta.entry (fun i => data.getD i 0) len (len + 1) 0 ([],0)).bind
        fun found => if 3 < found.2 then none else some (groupKeySet sta found.1 found.2) := by
  have kind : type = .pair3 ∨ type = .group1 := brings.imp_left And.left
  have other : ¬ (type = .pair2 ∨ (type = .pair3 ∧ !sta.entry.authMode.isWpa2)) := by
    rcases kind with rfl | rfl <;> simp [wpa2]
  simp only [rtmpParseEapolKeyData,if_neg other,if_pos (And.intro wpa2 kind)]
  cases kdeLoop noPmf sta.entry (fun i => data.getD i 0) len (len + 1) 0 ([],0) <;> rfl

theorem parseWpa (brings : BringsKey sta.entry type) (wpa : sta.entry.authMode.isWpa2 = false) (data len index) :
    rtmpParseEapolKeyData noPmf sta data len index type =
      if 3 < index then none else some (groupKeySet sta (padded data len) index) := by
  have kind : type = .group1 := by
    rcases brings with ⟨_,wpa2⟩ | kind
    · rw [wpa] at wpa2
      cases wpa2
    · exact kind
  subst kind
  simp [rtmpParseEapolKeyData,wpa,padded]

theorem keyDataParsed {key} (brings : BringsKey sta.entry type) (data : key.keyDataLen ≠ 0) :
    keyDataChecked noPmf crypto sta mem key type =
      (parsed crypto sta.entry mem key type).map fun found => groupKeySet sta found.1 found.2 := by
  obtain ⟨⟨bytes,len,index⟩,plain⟩ := plainSome crypto mem key brings
  simp only [keyDataChecked,if_neg data,parsed,plain]
  cases wpa2 : sta.entry.authMode.isWpa2 with
  | true =>
    rw [parseWpa2 brings wpa2]
    cases walk : kdeLoop noPmf sta.entry (fun i => bytes.getD i 0) (len % 256) (len % 256 + 1) 0 ([],0) with
    | none => simp
    | some found =>
      by_cases large : 3 < found.2
      · simp [large]
      · simp [large]
  | false =>
    rw [parseWpa brings wpa2]
    by_cases large : 3 < index
    · simp [large]
    · simp [large]

@[simp] theorem emitGroupState (e) : groupState (sta.emit e) = groupState sta := rfl

@[simp] theorem counterGroupState (key) : groupState (counterStored sta key) = groupState sta := rfl

@[simp] theorem installedGroupState (bAE) : groupState (keyInstalled sta bAE) = groupState sta := rfl

@[simp] theorem securedGroupState : groupState (staPortSecured sta) = groupState sta := rfl

theorem actionGroupState (random) (sent : dispatch noPmf sta.entry elem = some type)
    (brings : BringsKey sta.entry type) :
    groupState (wpaEapolKeyAction crypto sta elem random mem) =
      if type = .pair3 ∧ shortMsg elem = true then groupState sta
      else groupState ((peerWpaMessageSanity noPmf crypto sta mem (eapolKey elem) type).getD sta) := by
  have peer := dispatchPeer sent
  have kind : type = .pair3 ∨ type = .group1 := brings.imp_left And.left
  rcases kind with rfl | rfl
  · simp only [wpaEapolKeyAction,sent,peerPairMsg3Action,peer,accept]
    cases shortMsg elem with
    | true => simp
    | false =>
      cases peerWpaMessageSanity noPmf crypto sta mem (eapolKey elem) .pair3 with
      | none => simp
      | some next => simp [apply_ite groupState]
  · simp only [wpaEapolKeyAction,sent,peerGroupMsg1Action,peer,accept]
    cases peerWpaMessageSanity noPmf crypto sta mem (eapolKey elem) .group1 with
    | none => simp
    | some next => simp [apply_ite groupState]

theorem sanityKeyData {next} (sane : peerWpaMessageSanity noPmf crypto sta mem (eapolKey elem) type = some next) :
    keyDataChecked noPmf crypto sta mem (eapolKey elem) type = some next := by
  simp only [peerWpaMessageSanity] at sane
  split_ifs at sane
  exact sane

theorem refusedGroupState (random) (sent : dispatch noPmf sta.entry elem = some type)
    (brings : BringsKey sta.entry type) (refused : ¬ Taken crypto sta elem mem type) :
    groupState (wpaEapolKeyAction crypto sta elem random mem) = groupState sta := by
  rw [actionGroupState random sent brings]
  split
  · rfl
  rename_i long
  cases sane : peerWpaMessageSanity noPmf crypto sta mem (eapolKey elem) type with
  | none => rfl
  | some next => exact absurd ⟨long,by rw [sane]; rfl⟩ refused

theorem takenGroupState (random) (sent : dispatch noPmf sta.entry elem = some type)
    (brings : BringsKey sta.entry type) (taken : Taken crypto sta elem mem type) : (eapolKey elem).keyDataLen = 0 ∧
        groupState (wpaEapolKeyAction crypto sta elem random mem) = groupState sta ∨
      (eapolKey elem).keyDataLen ≠ 0 ∧ ∃ found, parsed crypto sta.entry mem (eapolKey elem) type = some found ∧
        groupState (wpaEapolKeyAction crypto sta elem random mem) = groupState (groupKeySet sta found.1 found.2) := by
  obtain ⟨long,passed⟩ := taken
  obtain ⟨next,sane⟩ := Option.isSome_iff_exists.mp passed
  have after : groupState (wpaEapolKeyAction crypto sta elem random mem) = groupState next := by
    rw [actionGroupState random sent brings,if_neg long,sane]
    rfl
  have data := sanityKeyData sane
  by_cases empty : (eapolKey elem).keyDataLen = 0
  · rw [keyDataChecked,if_pos empty] at data
    cases Option.some.inj data
    exact .inl ⟨empty,after⟩
  · rw [keyDataParsed brings empty] at data
    obtain ⟨found,walked,rfl⟩ := Option.map_eq_some_iff.mp data
    exact .inr ⟨empty,found,walked,after⟩

theorem installedTransfer {next next' : Sta} {gtk index} (same : groupState next' = groupState next)
    (installed : GtkInstalled sta next gtk index) : GtkInstalled sta next' gtk index := by
  obtain ⟨buffer,keyId,keys⟩ := GroupState.mk.inj same
  obtain ⟨first,second,third,fourth⟩ := installed
  exact ⟨buffer.trans first,keyId.trans second,by rwa [keys],by rwa [keys]⟩

theorem keyFitsLength {cipher gtk} (fits : KeyFits cipher gtk) : 5 ≤ gtk.length ∧ gtk.length ≤ 32 := by
  cases cipher <;> simp only [KeyFits] at fits <;> omega

theorem takenNotStopped (brings : BringsKey sta.entry type) (taken : Taken crypto sta elem mem type)
    (some : (eapolKey elem).keyDataLen ≠ 0) : ¬ Stopped crypto sta elem mem type := by
  have later : type ≠ .pair1 := by rcases brings with ⟨rfl,_⟩ | rfl <;> simp
  obtain ⟨⟨memory,replay,_⟩,mic⟩ := (sanityPasses later).mp taken.2
  rintro (short | failed | differs | wrong | empty)
  · exact taken.1 short
  · rw [memory] at failed
    cases failed
  · rw [replay] at differs
    cases differs
  · exact wrong mic
  · exact some empty

theorem keyDataLength (elem) : (eapolKey elem).keyData.length = (eapolKey elem).keyDataLen := by
  simp only [eapolKey,bytesAt,length_map,length_range]

theorem plainSized {digests data len index} (brings : BringsKey sta.entry type)
    (plain : plainKeyData (driverCrypto digests) sta.entry mem (eapolKey elem) type = some (data,len,index)) :
    data.length ≤ len := by
  have wrapped : (type = .pair3 ∧ sta.entry.authMode.isWpa2 = true) ∨ type = .group1 := brings
  have size := keyDataLength elem
  simp only [plainKeyData,if_pos wrapped,driverCrypto] at plain
  generalize (if (!sta.entry.authMode.isWpa2) = true then (eapolKey elem).info.keyIndex else 0) = read at plain
  split_ifs at plain with aes room memory <;> cases plain
  · rw [KeyWrap.aesUnwrapLength _ (by omega),size]
  · exact Nat.le_refl 0
  · exact (KeyWrap.tkipWrapLength ..).trans size |>.le
  · exact Nat.zero_le _

theorem paddedGetD {data : Bytes} {len} (sized : data.length ≤ len) :
    (fun i => data.getD i 0) = fun i => (padded data len).getD i 0 := by
  funext i
  by_cases inside : i < len
  · simp [padded,inside]
  · simp [padded,inside,getElem?_eq_none (show data.length ≤ i by omega)]

section Parsed
variable {digests : Digests} (brings : BringsKey sta.entry type) (unwrap : mem.unwrap = true)
  (small : (keyBytes (driverCrypto digests) sta.entry (eapolKey elem) type).length < 256)
  (filled : (eapolKey elem).keyDataLen ≠ 0)
include brings unwrap small filled

theorem parsedIs :
    let d := keyBytes (driverCrypto digests) sta.entry (eapolKey elem) type
    ∃ index, carried (driverCrypto digests) sta.entry (eapolKey elem) type = gtkIn sta.entry.authMode.isWpa2 d index ∧
      parsed (driverCrypto digests) sta.entry mem (eapolKey elem) type =
        (if sta.entry.authMode.isWpa2 then
            kdeLoop noPmf sta.entry (fun i => d.getD i 0) d.length (d.length + 1) 0 ([],0)
          else some (d,index)).bind fun found => if 3 < found.2 then none else some found := by
  obtain ⟨⟨data,len,index⟩,plain⟩ := plainSome (driverCrypto digests) mem (eapolKey elem) brings
  have sized := plainSized brings plain
  have whole : plainKeyData (driverCrypto digests) sta.entry allMemory (eapolKey elem) type =
      some (data,len,index) := by
    rw [← plain]
    simp only [plainKeyData,unwrap,allMemory]
  have bytes : keyBytes (driverCrypto digests) sta.entry (eapolKey elem) type = padded data len := by
    simp only [keyBytes,whole]
  have length : (padded data len).length = len := by simp [padded]
  rw [bytes,length] at small
  refine ⟨index,by simp only [carried,if_neg filled,whole,bytes],?_⟩
  simp only [parsed,plain,bytes,length,← paddedGetD sized,Nat.mod_eq_of_lt small]
  split <;> rename_i walk
  · rw [walk]
    rfl
  · rw [walk]
    rfl

theorem parsedCarried {found}
    (whole : WellFormed sta (keyBytes (driverCrypto digests) sta.entry (eapolKey elem) type)
      (carried (driverCrypto digests) sta.entry (eapolKey elem) type))
    (walked : parsed (driverCrypto digests) sta.entry mem (eapolKey elem) type = some found) :
    carried (driverCrypto digests) sta.entry (eapolKey elem) type = some found := by
  obtain ⟨index,gtk,parse⟩ := parsedIs brings unwrap small filled
  obtain ⟨key,carries,_⟩ := whole.fits
  rw [Option.mem_def] at carries
  rw [carries]
  rw [gtk] at carries
  have result : parsed (driverCrypto digests) sta.entry mem (eapolKey elem) type =
      if 3 < key.2 then none else some key := by
    rw [parse]
    cases wpa2 : sta.entry.authMode.isWpa2 with
    | true =>
      have walk := walkFinds sta.entry _ 0 ([],0) (Nat.zero_add _).ge (whole.long wpa2)
      rw [wpa2,gtkIn,if_pos rfl] at carries
      rw [drop_zero,carries] at walk
      rw [if_pos rfl,walk]
      rfl
    | false =>
      rw [wpa2,gtkIn,if_neg (by simp)] at carries
      split at carries
      · cases carries
      · cases carries
        rfl
  rw [result] at walked
  split at walked
  · cases walked
  · exact walked

theorem parsedMalformed
    (bad : Malformed sta.entry (keyBytes (driverCrypto digests) sta.entry (eapolKey elem) type)) :
    parsed (driverCrypto digests) sta.entry mem (eapolKey elem) type = none := by
  obtain ⟨_,_,parse⟩ := parsedIs brings unwrap small filled
  have refused := walkRefuses sta.entry (d := keyBytes (driverCrypto digests) sta.entry (eapolKey elem) type) _ 0
    ([],0) bad.2
  rw [parse,if_pos bad.1,refused]
  rfl

end Parsed

end Action

def dataFrame (low high counter nonce : UInt8) (mic data : Bytes) : Elem :=
  let size : UInt8 := UInt8.ofNat data.length
  let bytes := replicate 10 0 ++ sampleAddr ++ replicate 16 0 ++ [1,3,0,95 + size,2,low,high,0,16] ++
    replicate 7 0 ++ [counter] ++ replicate lenKeyDescNonce nonce ++ replicate 32 0 ++ mic ++
    [0,size] ++ data
  ⟨fun i => bytes.getD i 0,131 + BitVec.ofNat 64 data.length⟩

def signedDataFrame (low high counter nonce : UInt8) (data : Bytes) : Elem :=
  dataFrame low high counter nonce (expectedMic sampleCrypto (replicate 64 0)
    (eapolKey (dataFrame low high counter nonce zeroMic data))) data

def wrappedFrame (low high counter nonce : UInt8) (plain : Bytes) : Elem :=
  signedDataFrame low high counter nonce (KeyWrap.aesKeyWrap (replicate 16 0) plain)

theorem dataFrameRead (low high counter nonce) {mic data : Bytes} (size : mic.length = 16) (small : data.length < 256) :
    (eapolKey (dataFrame low high counter nonce mic data)).keyDataLen = data.length ∧
      (eapolKey (dataFrame low high counter nonce mic data)).keyData = data := by
  let front := replicate 10 0 ++ sampleAddr ++ replicate 16 0 ++
    [1,3,0,95 + UInt8.ofNat data.length,2,low,high,0,16] ++ replicate 7 0 ++ [counter] ++
    replicate lenKeyDescNonce nonce ++ replicate 32 0 ++ mic
  have length : front.length = 129 := by simp [front,sampleAddr,lenKeyDescNonce,size]
  have read (i) : (dataFrame low high counter nonce mic data).msg i =
      (front ++ [0,UInt8.ofNat data.length] ++ data).getD i 0 := rfl
  have first : (dataFrame low high counter nonce mic data).msg 129 = 0 := by
    rw [read,append_assoc,getD_append_right _ _ _ _ length.le,length]
    rfl
  have second : (dataFrame low high counter nonce mic data).msg 130 = UInt8.ofNat data.length := by
    rw [read,append_assoc,getD_append_right _ _ _ _ (by omega),length]
    rfl
  have len : (eapolKey (dataFrame low high counter nonce mic data)).keyDataLen = data.length := by
    simp only [eapolKey,be16,length80211,length8021H,first,second]
    simp [Nat.mod_eq_of_lt small]
  have whole : (eapolKey (dataFrame low high counter nonce mic data)).keyData =
      bytesAt (dataFrame low high counter nonce mic data).msg 131
        (eapolKey (dataFrame low high counter nonce mic data)).keyDataLen := by
    simp only [eapolKey,bytesAt,length80211,length8021H,← Nat.add_assoc]
  refine ⟨len,?_⟩
  rw [whole,len,bytesAtOf (fun i _ => read i) (by simp [length]; omega)]
  have start : (front ++ [0,UInt8.ofNat data.length]).length = 131 := by simp [length]
  rw [slice,drop_left' start,take_length]

theorem sampleMicLength (ptk key) : (expectedMic sampleCrypto ptk key).length = 16 := by
  have long : (sampleCrypto.hmacSha1 (ptk.take lenPtkKck) key.covered).length = 20 := (sampleMac 20 _ _).2
  unfold expectedMic
  split_ifs
  · exact (sampleMac 16 _ _).2
  · rw [length_take,long]
    rfl
  · exact (sampleMac 16 _ _).2
  · rfl

section Sample
variable (low high counter nonce : UInt8) (plain : Bytes) (sta : Sta) (type : MsgType)

theorem wrappedRead (small : plain.length < 248) :
    (eapolKey (wrappedFrame low high counter nonce plain)).keyDataLen = plain.length + 8 ∧
      (eapolKey (wrappedFrame low high counter nonce plain)).keyData =
        KeyWrap.aesKeyWrap (replicate 16 0) plain := by
  have size : (KeyWrap.aesKeyWrap (replicate 16 0) plain).length = plain.length + 8 := KeyWrap.aesWrapLength _ plain
  rw [← size]
  exact dataFrameRead low high counter nonce (sampleMicLength ..) (by omega)

theorem wrappedPlain (entry : sta.entry = (sampleSta .wpa2Psk .aesEnable).entry) (brings : BringsKey sta.entry type)
    (small : plain.length < 248) (aes : high.toNat % 8 = keyDescAes) :
    (eapolKey (wrappedFrame low high counter nonce plain)).keyDataLen ≠ 0 ∧
      plainKeyData sampleCrypto sta.entry allMemory (eapolKey (wrappedFrame low high counter nonce plain)) type =
        some (plain,plain.length,0) := by
  obtain ⟨len,data⟩ := wrappedRead low high counter nonce plain small
  have ver : (eapolKey (wrappedFrame low high counter nonce plain)).info.keyDescVer = keyDescAes := aes
  have kek : slice sta.entry.ptk lenPtkKck lenPtkKek = replicate 16 0 := by
    rw [entry]
    rfl
  have wpa2 : sta.entry.authMode.isWpa2 = true := by
    rw [entry]
    rfl
  have wrapped : (type = .pair3 ∧ sta.entry.authMode.isWpa2 = true) ∨ type = .group1 := brings
  refine ⟨by omega,?_⟩
  simp only [plainKeyData,if_pos wrapped]
  simp [ver,len,data,kek,wpa2,allMemory,sampleCrypto,driverCrypto,KeyWrap.aesUnwrapWrap]

theorem wrappedTaken (found random) (entry : sta.entry = (sampleSta .wpa2Psk .aesEnable).entry)
    (brings : BringsKey sta.entry type) (small : plain.length < 248) (aes : high.toNat % 8 = keyDescAes)
    (sent : dispatch noPmf sta.entry (wrappedFrame low high counter nonce plain) = some type)
    (long : shortMsg (wrappedFrame low high counter nonce plain) = false)
    (replay : replayDiffers sta.entry.rCounter type
      (eapolKey (wrappedFrame low high counter nonce plain)).replayCounter = false)
    (mic : (eapolKey (wrappedFrame low high counter nonce plain)).keyMic =
      expectedMic sampleCrypto sta.entry.ptk (eapolKey (wrappedFrame low high counter nonce plain)))
    (walk : kdeLoop noPmf sta.entry (fun i => plain.getD i 0) (plain.length % 256) (plain.length % 256 + 1) 0 ([],0) =
      some found) (index : found.2 ≤ 3) :
    Taken sampleCrypto sta (wrappedFrame low high counter nonce plain) allMemory type ∧
      groupState (wpaEapolKeyAction sampleCrypto sta (wrappedFrame low high counter nonce plain) random allMemory) =
        groupState (groupKeySet sta found.1 found.2) := by
  obtain ⟨some,plainIs⟩ := wrappedPlain low high counter nonce plain sta type entry brings small aes
  have wpa2 : sta.entry.authMode.isWpa2 = true := by
    rw [entry]
    rfl
  have walked : parsed sampleCrypto sta.entry allMemory (eapolKey (wrappedFrame low high counter nonce plain)) type =
      Option.some found := by
    simp only [parsed,plainIs,wpa2,walk]
    exact if_neg (by omega)
  have later : type ≠ .pair1 := by rcases brings with ⟨rfl,_⟩ | rfl <;> simp
  have taken : Taken sampleCrypto sta (wrappedFrame low high counter nonce plain) allMemory type := by
    refine ⟨fun short => by simp [long] at short,(sanityPasses later).mpr ⟨⟨rfl,replay,?_⟩,mic⟩⟩
    rw [keyDataParsed brings some,walked]
    rfl
  refine ⟨taken,?_⟩
  rcases takenGroupState random sent brings taken with ⟨empty,_⟩ | ⟨_,other,same,after⟩
  · exact absurd empty some
  · cases Option.some.inj (walked.symm.trans same)
    exact after

end Sample

def sampleGtk : Bytes := replicate 16 0x5a

def gtkKde : Bytes := [0xdd,22,0x00,0x0f,0xac,1,1,0] ++ sampleGtk

def groupMsg1 : Elem := wrappedFrame 0x03 0x82 1 0 gtkKde

def otherNonceMsg3 : Elem := wrappedFrame 0x03 0xca 1 5 gtkKde

def noGtkKde : Bytes := [0xdd,4,0x00,0x0f,0xac,2,0xdd,0]

def noGtkMsg1 : Elem := wrappedFrame 0x03 0x82 1 0 noGtkKde

def keyed : Sta :=
  {sampleSta .wpa2Psk .aesEnable with sharedKey := fun _ => ⟨.aes,16,sampleGtk,zeroMic,zeroMic,zeroMic,zeroMic⟩}

end RtmpDriver.WpaGroupKey
