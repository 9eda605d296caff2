import Mathlib.Algebra.GroupWithZero.Nat
import RtmpDriver.BeaconParse

/-! What a beacon says to the parser: the elements it is made of as far as they are looked at, which of them are kept
for VarIEs, and what the fragments of the WPS element add up to. The parser follows this walk. -/
namespace RtmpDriver.BeaconWalk
open AccessLog ByteMemory BeaconParse List
open CipherParse (wpaOui rsnOui)

variable (ad : Adapter) (m : Nat → UInt8) (msgLen : Nat)

def extent (pEid : Nat) : Nat := eidLen m pEid + 2

def keeps (pEid : Nat) : Bool :=
  match eidOf (m pEid) with
  | .htCap => decide (sizeHtCapIe ≤ eidLen m pEid)
  | .addHt => decide (sizeAddHtInfoIe ≤ eidLen m pEid)
  | .vendorSpecific => decide (load m (pEid + 2) 4 = wpaOui)
  | .rsn => decide (load m (pEid + 4) 3 = rsnOui)
  | .country => true
  | .qbssLoad => decide (eidLen m pEid = 5)
  | _ => false

/- The elements at which the frame is given up, `ssid` telling whether it had an SSID before. -/
def ends (ssid : Bool) (pEid : Nat) : Bool :=
  match eidOf (m pEid) with
  | .ssid => !ssid && decide (maxLenOfSsid < eidLen m pEid)
  | .suppRates => decide (maxLenOfSupportedRates < eidLen m pEid)
  | .dsParm => !decide (eidLen m pEid = 1 ∧ octet m pEid 0 ∈ ad.channelList)
  | .cfParm => !decide (eidLen m pEid = 6)
  | .ibssParm => !decide (eidLen m pEid = 2)
  | _ => false

def isWps (pEid : Nat) : Bool :=
  decide (eidOf (m pEid) = .vendorSpecific) && decide (load m (pEid + 2) 4 = wpsOui)

structure Seen where
  ssid : Bool
  ht : Bool
  kept : List Nat
  wsc : Bytes

def Seen.length (seen : Seen) : Nat := (seen.kept.map (extent m)).sum

def wscNext (wsc : Bytes) (pEid : Nat) : Bytes :=
  let fragment := load m (pEid + 6) (eidLen m pEid - 4)
  if octet m pEid 4 = 0x10 then fragment else wsc ++ fragment

def Seen.next (seen : Seen) (pEid : Nat) : Seen where
  ssid := seen.ssid || decide (eidOf (m pEid) = .ssid)
  ht := seen.ht || (decide (eidOf (m pEid) = .htCap) && decide (sizeHtCapIe ≤ eidLen m pEid))
  kept := if keeps m pEid then seen.kept ++ [pEid] else seen.kept
  wsc := if isWps m pEid then wscNext m seen.wsc pEid else seen.wsc

structure Walk where
  cursors : List (Nat × Seen)
  last : Seen
  gaveUp : Bool

def taken (seen : Seen) (pEid : Nat) : Prop :=
  pEid + extent m pEid ≤ msgLen ∧ seen.length m + extent m pEid < maxVieLen

instance (seen : Seen) (pEid : Nat) : Decidable (taken m msgLen seen pEid) := inferInstanceAs (Decidable (_ ∧ _))

def walk : Nat → Nat → Seen → Walk
  | 0,_,seen => ⟨[],seen,false⟩
  | fuel + 1,pEid,seen =>
    if taken m msgLen seen pEid then
      if ends ad m seen.ssid pEid then ⟨[(pEid,seen)],seen,true⟩
      else
        let rest := walk fuel (pEid + extent m pEid) (seen.next m pEid)
        { rest with cursors := (pEid,seen) :: rest.cursors }
    else ⟨[(pEid,seen)],seen,false⟩

def VendorFits (ht : Bool) (pEid : Nat) : Prop :=
  pEid + 5 ≤ msgLen ∧
    ((load m (pEid + 2) 3 = ralinkOui ∧ eidLen m pEid = 7) ∨
      (ht = false ∧ load m (pEid + 2) 3 = broadcomOui ∧ 4 ≤ eidLen m pEid) ∨
      (pEid + 6 ≤ msgLen ∧ (load m (pEid + 2) 4 = wpaOui ∨
        (pEid + 8 ≤ msgLen ∧ (load m (pEid + 2) 4 = wpsOui → ad.wscAllocated = true → 4 ≤ eidLen m pEid)))))

def TimFits (pEid : Nat) : Prop :=
  pEid + 5 ≤ msgLen ∧ ((timBit m pEid ad.aid).inMap = true → pEid + 6 + (timBit m pEid ad.aid).myByte ≤ msgLen)

def Fits (seen : Seen) (pEid : Nat) : Prop :=
  match eidOf (m pEid) with
  | .vendorSpecific => VendorFits ad m msgLen seen.ht pEid
  | .rsn => pEid + 7 ≤ msgLen
  | .tim => timLooked ad m → TimFits ad m msgLen pEid
  | _ => True

def CursorFits (cursor : Nat × Seen) : Prop :=
  cursor.1 + 2 ≤ msgLen ∧ (taken m msgLen cursor.2 cursor.1 → Fits ad m msgLen cursor.2 cursor.1)

section Decidability
variable {ad m msgLen}

instance {ht : Bool} {pEid : Nat} : Decidable (VendorFits ad m msgLen ht pEid) :=
  inferInstanceAs (Decidable (_ ∧ (_ ∨ _ ∨ (_ ∧ (_ ∨ (_ ∧ _))))))

instance {pEid : Nat} : Decidable (TimFits ad m msgLen pEid) := inferInstanceAs (Decidable (_ ∧ (_ → _)))

instance fitsDecidable {seen : Seen} {pEid : Nat} : Decidable (Fits ad m msgLen seen pEid) :=
  match eid : eidOf (m pEid) with
  | .vendorSpecific => decidable_of_iff (VendorFits ad m msgLen seen.ht pEid) (by simp only [Fits,eid])
  | .rsn => decidable_of_iff (pEid + 7 ≤ msgLen) (by simp only [Fits,eid])
  | .tim => decidable_of_iff (timLooked ad m → TimFits ad m msgLen pEid) (by simp only [Fits,eid])
  | .ssid | .suppRates | .fhParm | .dsParm | .cfParm | .ibssParm | .country | .qbssLoad | .channelSwitchAnnouncement
  | .erp | .htCap | .extSuppRates | .addHt | .secondaryChOffset | .extCapability | .aironetCkip | .apTxPower
  | .vhtCap | .vhtOp | .operatingModeNotify | .other => isTrue (by simp only [Fits,eid])

instance {cursor : Nat × Seen} : Decidable (CursorFits ad m msgLen cursor) := inferInstanceAs (Decidable (_ ∧ (_ → _)))

end Decidability

def Access.Good : Access → Prop
  | .read span => span.Within 0 msgLen
  | .wscCopy length => 0 ≤ length

instance goodDecidable : DecidablePred (Access.Good msgLen)
  | .read span => inferInstanceAs (Decidable (span.Within 0 msgLen))
  | .wscCopy length => inferInstanceAs (Decidable (0 ≤ length))

section Reads
variable {ad m msgLen} {pEid : Nat} {s : Parse}

theorem goodRead {p n} : Access.Good msgLen (.read ⟨p,n⟩) ↔ p + n ≤ msgLen := by
  simp [Access.Good,Span.Within]

theorem movedReads {p n} : All (Access.Good msgLen) (moved m p n) ↔ p + n ≤ msgLen := by
  simp [moved,goodRead]

@[simp] theorem movedValue {p n} : (moved m p n).value = load m p n := rfl

theorem goOnReads : All (Access.Good msgLen) (goOn s) := allPure _

theorem copyReads (inside : pEid + 2 + eidLen m pEid ≤ msgLen) : All (Access.Good msgLen) (copyToVie m pEid s) := by
  simp only [copyToVie,allBind,movedReads]
  exact ⟨by omega,goOnReads⟩

theorem wpsReads (inside : pEid + 2 + eidLen m pEid ≤ msgLen) (oui : pEid + 8 ≤ msgLen)
    (room : s.wscIeLen ≤ wscIeMax) :
    All (Access.Good msgLen) (wpsCase ad m pEid s) ↔ (ad.wscAllocated = true → 4 ≤ eidLen m pEid) := by
  have whole (s : Parse) : All (Access.Good msgLen) (note (.wscCopy ((eidLen m pEid : Int) - 4)) >>= fun _ =>
      moved m (pEid + 6) ((eidLen m pEid : Int) - 4).toNat >>= fun _ => goOn s) ↔ 4 ≤ eidLen m pEid := by
    simp only [allBind,allNote,Access.Good,movedReads,goOnReads,and_true]
    omega
  unfold wpsCase
  split
  next allocated =>
    simp only [allBind,allNote,goodRead,allocated,true_imp_iff]
    split
    next first => exact (and_iff_right (by omega)).trans (whole _)
    next later =>
      split
      next fits => exact (and_iff_right (by omega)).trans (whole _)
      next full =>
        refine ⟨fun _ => ?_,fun _ => ⟨by omega,goOnReads⟩⟩
        omega
  next missing =>
    exact ⟨fun _ allocated => absurd allocated missing,fun _ => goOnReads⟩

theorem ralinkReads (len : eidLen m pEid = 7) (inside : pEid + 2 + eidLen m pEid ≤ msgLen) :
    All (Access.Good msgLen) (ralinkCase m pEid s) := by
  simp only [ralinkCase,allBind,allNote,goodRead,goOnReads,and_true]
  omega

theorem broadcomReads (len : 4 ≤ eidLen m pEid) (inside : pEid + 2 + eidLen m pEid ≤ msgLen) :
    All (Access.Good msgLen) (broadcomCase m pEid s) := by
  simp only [broadcomCase,allBind,allNote,goodRead,allIte,movedReads,goOnReads,implies_true,and_true]
  grind [sizeHtCapIe,sizeAddHtInfoIe]

theorem frontDiffers {p n k oui other} (same : load m p k = oui) (short : n ≤ k)
    (differ : oui.take n ≠ other) : load m p n ≠ other := by
  intro front
  rw [← same,loadTake short] at differ
  exact differ front

theorem wholeDiffers {p n k oui other} (same : load m p n = oui) (short : n ≤ k)
    (differ : other.take n ≠ oui) : load m p k ≠ other := by
  intro whole
  rw [← whole,loadTake short] at differ
  exact differ same

theorem vendorReads (inside : pEid + 2 + eidLen m pEid ≤ msgLen) (room : s.wscIeLen ≤ wscIeMax) {ht}
    (seen : s.ie.htCapabilityLen = 0 ↔ ht = false) :
    All (Access.Good msgLen) (vendorCase ad m pEid s) ↔ VendorFits ad m msgLen ht pEid := by
  simp only [vendorCase,VendorFits,allBind,allNote,goodRead,seen]
  refine and_congr (by omega) ?_
  split
  next ralink => simp [ralink,ralinkReads ralink.2 inside]
  next notRalink =>
    split
    next broadcom => simp [broadcom,broadcomReads broadcom.2.2 inside]
    next other =>
      simp only [notRalink,other,false_or,allBind,allNote,goodRead]
      refine and_congr (by omega) ?_
      split
      next wpa => simp [wpa,copyReads inside]
      next notWpa =>
        simp only [notWpa,false_or,allBind,allNote,goodRead]
        have oui : pEid + 2 + 6 ≤ msgLen ↔ pEid + 8 ≤ msgLen := by omega
        rw [oui]
        refine and_congr_right fun fits => ?_
        split
        next parm =>
          have notWps : load m (pEid + 2) 4 ≠ wpsOui := frontDiffers parm.1 (by decide) (by decide)
          simp only [allBind,allNote,goodRead,goOnReads,and_true,notWps,false_imp_iff,iff_true]
          omega
        next =>
          split
          next info =>
            have notWps : load m (pEid + 2) 4 ≠ wpsOui := frontDiffers info.1 (by decide) (by decide)
            simp only [allBind,allNote,goodRead,goOnReads,and_true,notWps,false_imp_iff,iff_true]
            omega
          next =>
            split
            next wps => simp only [wps,true_imp_iff,wpsReads inside fits room]
            next notWps => simp [notWps,goOnReads]

theorem timReads : All (Access.Good msgLen) (getTimBit m pEid ad.aid s.ie) ↔ TimFits ad m msgLen pEid := by
  simp only [getTimBit,TimFits,allBind,allNote,goodRead]
  refine and_congr (by omega) ?_
  split
  next inMap =>
    simp only [allBind,allNote,goodRead,allPure,and_true,inMap,true_imp_iff]
    omega
  next out => simp [out]

theorem plainReads (inside : pEid + 2 + eidLen m pEid ≤ msgLen) (vendor : eidOf (m pEid) ≠ .vendorSpecific)
    (rsn : eidOf (m pEid) ≠ .rsn) (tim : eidOf (m pEid) ≠ .tim) :
    All (Access.Good msgLen) (elementCase ad m pEid s) := by
  unfold elementCase
  split <;> first | contradiction | exact goOnReads | exact copyReads inside | skip
  all_goals
    simp only [ssidCase,suppRatesCase,htCapCase,addHtCase,valueCase,dsParmCase,cfParmCase,ibssParmCase,
      extSuppRatesCase,aironetCkipCase,apTxPowerCase,qbssLoadCase,extCapabilityCase,sizedCase,operatingModeCase,
      allIte,allBind,allNote,allPure,goodRead,movedReads,goOnReads,copyReads inside,implies_true,and_true,true_and]
    grind [sizeHtCapIe,sizeAddHtInfoIe,sizeExtCapInfo,sizeVhtCapIe,sizeVhtOpIe,ckipNegotiationLength]

theorem elementReads (inside : pEid + 2 + eidLen m pEid ≤ msgLen) (room : s.wscIeLen ≤ wscIeMax) {seen}
    (ht : s.ie.htCapabilityLen = 0 ↔ seen.ht = false) :
    All (Access.Good msgLen) (elementCase ad m pEid s) ↔ Fits ad m msgLen seen pEid := by
  by_cases vendor : eidOf (m pEid) = .vendorSpecific
  · simp only [elementCase,Fits,vendor]
    exact vendorReads inside room ht
  by_cases rsn : eidOf (m pEid) = .rsn
  · simp only [elementCase,Fits,rsn,rsnCase,allBind,allNote,goodRead,allIte,copyReads inside,goOnReads,implies_true,
      and_true]
  by_cases tim : eidOf (m pEid) = .tim
  · simp only [elementCase,Fits,tim,timCase,allIte,allBind,timReads,goOnReads,implies_true,and_true]
  · refine iff_of_true (plainReads inside vendor rsn tim) ?_
    unfold Fits
    split <;> first | contradiction | trivial

end Reads

def collected (kept : List Nat) : Bytes := kept.flatMap fun pEid => load m pEid (extent m pEid)

structure Agrees (s : Parse) (seen : Seen) : Prop where
  ssid : s.ssid = seen.ssid
  ht : s.ie.htCapabilityLen = 0 ↔ seen.ht = false
  vie : s.vie = collected m seen.kept
  room : s.wscIeLen ≤ wscIeMax
  wsc : s.wscCheck = true → s.wscIe = seen.wsc ∧ s.wscIeLen = seen.wsc.length ∧
    (ad.wscAllocated = true ∨ seen.wsc = [])

section Agreement
variable {ad m} {pEid : Nat} {s : Parse} {seen : Seen}

theorem collectedLength (kept) : (collected m kept).length = (kept.map (extent m)).sum := by
  simp [collected,length_flatMap]

theorem collectedSnoc (kept) : collected m (kept ++ [pEid]) = collected m kept ++ load m pEid (extent m pEid) := by
  simp [collected]

theorem Agrees.length (agrees : Agrees ad m s seen) : s.vie.length = seen.length m := by
  rw [agrees.vie,collectedLength]
  rfl

structure Untouched (s t : Parse) : Prop where
  ssid : t.ssid = s.ssid
  ht : t.ie.htCapabilityLen = s.ie.htCapabilityLen
  vie : t.vie = s.vie
  wscIe : t.wscIe = s.wscIe
  wscIeLen : t.wscIeLen = s.wscIeLen
  wscCheck : t.wscCheck = s.wscCheck

theorem untouched (s) : Untouched s s := ⟨rfl,rfl,rfl,rfl,rfl,rfl⟩

theorem Agrees.unchanged {t} (agrees : Agrees ad m s seen) (same : Untouched s t) : Agrees ad m t seen := by
  refine ⟨same.ssid.trans agrees.ssid,?_,same.vie.trans agrees.vie,?_,fun check => ?_⟩
  · rw [same.ht]
    exact agrees.ht
  · rw [same.wscIeLen]
    exact agrees.room
  · rw [same.wscIe,same.wscIeLen]
    exact agrees.wsc (same.wscCheck.symm.trans check)

def Follows (ad : Adapter) (m : Nat → UInt8) (seen : Seen) (pEid : Nat) (turn : Parse × Exit) : Prop :=
  if ends ad m seen.ssid pEid then turn.2 ≠ .goOn ∧ Agrees ad m turn.1 seen
  else turn.2 = .goOn ∧ Agrees ad m turn.1 (seen.next m pEid)

theorem Agrees.copied (agrees : Agrees ad m s seen) :
    Agrees ad m (copyToVie m pEid s).value.1 { seen with kept := seen.kept ++ [pEid] } := by
  refine ⟨agrees.ssid,agrees.ht,?_,agrees.room,agrees.wsc⟩
  rw [collectedSnoc,← agrees.vie]
  rfl

structure Plain (m : Nat → UInt8) (pEid : Nat) : Prop where
  ssid : eidOf (m pEid) ≠ .ssid
  htCap : eidOf (m pEid) ≠ .htCap
  wps : isWps m pEid = false

theorem plainOf {e} (eid : eidOf (m pEid) = e) (other : e ≠ .ssid ∧ e ≠ .htCap ∧ e ≠ .vendorSpecific) :
    Plain m pEid := by
  subst eid
  exact ⟨other.1,other.2.1,by simp [isWps,other.2.2]⟩

theorem Plain.nextSame (plain : Plain m pEid) (kept : keeps m pEid = false) : seen.next m pEid = seen := by
  simp [Seen.next,plain.ssid,plain.htCap,kept,plain.wps]

theorem Plain.nextKept (plain : Plain m pEid) (kept : keeps m pEid = true) :
    seen.next m pEid = { seen with kept := seen.kept ++ [pEid] } := by
  simp [Seen.next,plain.ssid,plain.htCap,kept,plain.wps]

theorem followsOn {t} (going : ends ad m seen.ssid pEid = false) (agrees : Agrees ad m t (seen.next m pEid)) :
    Follows ad m seen pEid (t,.goOn) := by
  rw [Follows,if_neg (by simp [going])]
  exact ⟨rfl,agrees⟩

theorem followsEnd {t exit} (ended : ends ad m seen.ssid pEid = true) (left : exit ≠ .goOn)
    (agrees : Agrees ad m t seen) : Follows ad m seen pEid (t,exit) := by
  rw [Follows,if_pos ended]
  exact ⟨left,agrees⟩

theorem Plain.followsQuiet {t} (plain : Plain m pEid) (agrees : Agrees ad m s seen)
    (kept : keeps m pEid = false) (going : ends ad m seen.ssid pEid = false) (same : Untouched s t) :
    Follows ad m seen pEid (t,.goOn) := by
  refine followsOn going ?_
  rw [plain.nextSame kept]
  exact agrees.unchanged same

theorem Plain.followsCopied {t} (plain : Plain m pEid) (agrees : Agrees ad m s seen)
    (kept : keeps m pEid = true) (going : ends ad m seen.ssid pEid = false) (same : Untouched s t) :
    Follows ad m seen pEid (copyToVie m pEid t).value := by
  refine followsOn going ?_
  rw [plain.nextKept kept]
  exact (agrees.unchanged same).copied

theorem Plain.followsKept {c} [Decidable c] {yes no : Turn} {t} (plain : Plain m pEid)
    (agrees : Agrees ad m s seen) (kept : keeps m pEid = decide c) (going : ends ad m seen.ssid pEid = false)
    (copies : yes.value = (copyToVie m pEid t).value) (same : Untouched s t) (stays : no.value = (s,.goOn)) :
    Follows ad m seen pEid (if c then yes else no).value := by
  split
  next holds =>
    rw [copies]
    exact plain.followsCopied agrees (kept.trans (decide_eq_true holds)) going same
  next fails =>
    rw [stays]
    exact plain.followsQuiet agrees (kept.trans (decide_eq_false fails)) going (untouched s)

theorem Plain.followsUnless {c} [Decidable c] {yes no : Turn} {t exit} (plain : Plain m pEid)
    (agrees : Agrees ad m s seen) (kept : keeps m pEid = false) (ended : ends ad m seen.ssid pEid = !decide c)
    (goes : yes.value = (t,.goOn)) (same : Untouched s t) (leaves : no.value = (s,exit)) (left : exit ≠ .goOn) :
    Follows ad m seen pEid (if c then yes else no).value := by
  split
  next holds =>
    rw [goes]
    exact plain.followsQuiet agrees kept (by simp [ended,holds]) same
  next fails =>
    rw [leaves]
    exact followsEnd (by simp [ended,fails]) left agrees

theorem ssidFollows (agrees : Agrees ad m s seen) (eid : eidOf (m pEid) = .ssid) :
    Follows ad m seen pEid (ssidCase m pEid s).value := by
  have same := agrees.ssid
  have next : seen.next m pEid = { seen with ssid := true } := by simp [Seen.next,keeps,isWps,eid]
  unfold ssidCase
  split
  next again =>
    refine followsOn (by simp [ends,eid,← same,again]) ?_
    rw [next]
    exact { agrees with ssid := again }
  next first =>
    split
    next short =>
      refine followsOn (by simp [ends,eid,short]) ?_
      rw [next]
      exact { agrees with ssid := rfl }
    next long =>
      refine followsEnd ?_ (by simp) agrees
      simp only [Bool.not_eq_true] at first
      simp [ends,eid,← same,first,Nat.lt_of_not_le long]

theorem htCapFollows (agrees : Agrees ad m s seen) (eid : eidOf (m pEid) = .htCap) :
    Follows ad m seen pEid (htCapCase m pEid s).value := by
  unfold htCapCase
  split
  next long =>
    have next : seen.next m pEid = { ({ seen with ht := true } : Seen) with kept := seen.kept ++ [pEid] } := by
      simp [Seen.next,keeps,isWps,eid,long]
    refine followsOn (by simp [ends,eid]) ?_
    rw [next]
    refine Agrees.copied ⟨agrees.ssid,?_,agrees.vie,agrees.room,agrees.wsc⟩
    simp [Parse.withIe,sizeHtCapIe]
  next short =>
    have next : seen.next m pEid = seen := by simp [Seen.next,keeps,isWps,eid,short]
    refine followsOn (by simp [ends,eid]) ?_
    rwa [next]

theorem timHt {ptr aid ie} : (getTimBit m ptr aid ie).value.htCapabilityLen = ie.htCapabilityLen := by
  unfold getTimBit
  rw [bindValue]
  dsimp only
  split <;> rfl

def Quiet (s : Parse) (turn : Parse × Exit) : Prop := turn.2 = .goOn ∧ Untouched s turn.1

theorem quietOn {t} (same : Untouched s t) : Quiet s (t,.goOn) := ⟨rfl,same⟩

theorem quietSame (s) : Quiet s (goOn s).value := quietOn ⟨rfl,rfl,rfl,rfl,rfl,rfl⟩

theorem quietIte {c} [Decidable c] {yes no : Turn} (first : Quiet s yes.value) (second : Quiet s no.value) :
    Quiet s (if c then yes else no).value := by
  split
  · exact first
  · exact second

def silent : Eid → Bool
  | .ssid | .suppRates | .htCap | .addHt | .dsParm | .cfParm | .ibssParm | .vendorSpecific | .rsn | .country
  | .qbssLoad => false
  | _ => true

theorem silentQuiet (none : silent (eidOf (m pEid)) = true) : Quiet s (elementCase ad m pEid s).value := by
  have value {len index : Nat} {set : BcnIeList → UInt8 → BcnIeList}
      (ht : (set s.ie (octet m pEid index)).htCapabilityLen = s.ie.htCapabilityLen) :
      Quiet s (valueCase m pEid len index set s).value :=
    quietIte (quietOn ⟨rfl,ht,rfl,rfl,rfl,rfl⟩) (quietSame s)
  have sized {size : Nat} {set : BcnIeList → Bytes → BcnIeList}
      (ht : (set s.ie (load m (pEid + 2) size)).htCapabilityLen = s.ie.htCapabilityLen) :
      Quiet s (sizedCase m pEid size set s).value :=
    quietIte (quietOn ⟨rfl,ht,rfl,rfl,rfl,rfl⟩) (quietSame s)
  cases eid : eidOf (m pEid)
  all_goals
    rw [eid] at none
    simp only [elementCase,eid]
  case ssid | suppRates | htCap | addHt | dsParm | cfParm | ibssParm | vendorSpecific | rsn | country | qbssLoad =>
    exact absurd none (by decide)
  case fhParm | other => exact quietSame s
  case secondaryChOffset | channelSwitchAnnouncement | erp => exact value rfl
  case vhtCap | vhtOp => exact sized rfl
  case extSuppRates | extCapability | operatingModeNotify =>
    exact quietIte (quietOn ⟨rfl,rfl,rfl,rfl,rfl,rfl⟩) (quietSame s)
  case aironetCkip => exact quietIte (quietSame s) (quietOn ⟨rfl,rfl,rfl,rfl,rfl,rfl⟩)
  case apTxPower =>
    exact quietIte (quietSame s) (quietIte (quietOn ⟨rfl,rfl,rfl,rfl,rfl,rfl⟩) (quietSame s))
  case tim => exact quietIte (quietOn ⟨rfl,timHt,rfl,rfl,rfl,rfl⟩) (quietSame s)

section
variable (agrees : Agrees ad m s seen)
include agrees

theorem silentFollows (none : silent (eidOf (m pEid)) = true) :
    Follows ad m seen pEid (elementCase ad m pEid s).value := by
  have kept : keeps m pEid = false := by
    unfold keeps
    split <;> simp_all [silent]
  have going : ends ad m seen.ssid pEid = false := by
    unfold ends
    split <;> simp_all [silent]
  obtain ⟨on,same⟩ : Quiet s (elementCase ad m pEid s).value := silentQuiet none
  have turn : (elementCase ad m pEid s).value = ((elementCase ad m pEid s).value.1,.goOn) := by rw [← on]
  rw [turn]
  refine (plainOf rfl ⟨?_,?_,?_⟩).followsQuiet agrees kept going same <;>
    exact fun loud => by simp [loud,silent] at none

theorem addHtFollows (eid : eidOf (m pEid) = .addHt) : Follows ad m seen pEid (addHtCase m pEid s).value :=
  (plainOf eid (by decide)).followsKept agrees (by simp [keeps,eid]) (by simp [ends,eid])
    rfl ⟨rfl,rfl,rfl,rfl,rfl,rfl⟩ rfl

theorem rsnFollows (eid : eidOf (m pEid) = .rsn) : Follows ad m seen pEid (rsnCase m pEid s).value :=
  (plainOf eid (by decide)).followsKept agrees (by simp [keeps,eid]) (by simp [ends,eid]) rfl (untouched s) rfl

theorem countryFollows (eid : eidOf (m pEid) = .country) :
    Follows ad m seen pEid (copyToVie m pEid s).value := by
  have plain : Plain m pEid := plainOf eid (by decide)
  exact plain.followsCopied agrees (by simp [keeps,eid]) (by simp [ends,eid]) (untouched s)

theorem qbssLoadFollows (eid : eidOf (m pEid) = .qbssLoad) : Follows ad m seen pEid (qbssLoadCase m pEid s).value :=
  (plainOf eid (by decide)).followsKept agrees (by simp [keeps,eid]) (by simp [ends,eid])
    rfl ⟨rfl,rfl,rfl,rfl,rfl,rfl⟩ rfl

theorem suppRatesFollows (eid : eidOf (m pEid) = .suppRates) : Follows ad m seen pEid (suppRatesCase m pEid s).value :=
  (plainOf eid (by decide)).followsUnless agrees (by simp [keeps,eid]) (by grind [ends]) rfl
    ⟨rfl,rfl,rfl,rfl,rfl,rfl⟩ rfl (by decide)

theorem dsParmFollows (eid : eidOf (m pEid) = .dsParm) :
    Follows ad m seen pEid (dsParmCase ad m pEid s).value := by
  have plain : Plain m pEid := plainOf eid (by decide)
  have kept : keeps m pEid = false := by simp [keeps,eid]
  simp only [dsParmCase]
  split
  next one =>
    rw [bindValue]
    split
    next listed =>
      exact plain.followsQuiet agrees kept (by simp [ends,eid,one,listed]) ⟨rfl,rfl,rfl,rfl,rfl,rfl⟩
    next unlisted =>
      exact followsEnd (by simp [ends,eid,unlisted]) (by simp) (agrees.unchanged ⟨rfl,rfl,rfl,rfl,rfl,rfl⟩)
  next other => exact followsEnd (by simp [ends,eid,other]) (by simp) agrees

theorem cfParmFollows (eid : eidOf (m pEid) = .cfParm) : Follows ad m seen pEid (cfParmCase m pEid s).value :=
  (plainOf eid (by decide)).followsUnless agrees (by simp [keeps,eid]) (by simp [ends,eid]) rfl
    ⟨rfl,rfl,rfl,rfl,rfl,rfl⟩ rfl (by decide)

theorem ibssParmFollows (eid : eidOf (m pEid) = .ibssParm) : Follows ad m seen pEid (ibssParmCase m pEid s).value :=
  (plainOf eid (by decide)).followsUnless agrees (by simp [keeps,eid]) (by simp [ends,eid]) rfl
    ⟨rfl,rfl,rfl,rfl,rfl,rfl⟩ rfl (by decide)

theorem wpsFollows (vendor : eidOf (m pEid) = .vendorSpecific)
    (wps : load m (pEid + 2) 4 = wpsOui) (fits : ad.wscAllocated = true → 4 ≤ eidLen m pEid) :
    Follows ad m seen pEid (wpsCase ad m pEid s).value := by
  have next : seen.next m pEid = { seen with wsc := wscNext m seen.wsc pEid } := by
    simp [Seen.next,keeps,isWps,vendor,wps,wpsOui,wpaOui]
  have refused : Follows ad m seen pEid ({ s with wscCheck := false },.goOn) := by
    refine followsOn (by simp [ends,vendor]) ?_
    rw [next]
    exact ⟨agrees.ssid,agrees.ht,agrees.vie,agrees.room,fun check => nomatch check⟩
  unfold wpsCase
  split
  next allocated =>
    have fourOrMore := fits allocated
    have count : ((eidLen m pEid : Int) - 4).toNat = eidLen m pEid - 4 := by omega
    have short : (eidLen m pEid : Int) - 4 ≤ wscIeMax := by
      have := (m (pEid + 1)).toNat_lt
      unfold wscIeMax eidLen
      omega
    rw [bindValue]
    split
    next start =>
      refine followsOn (by simp [ends,vendor]) ?_
      rw [next]
      refine ⟨agrees.ssid,agrees.ht,agrees.vie,short,fun _ => ⟨?_,?_,.inl allocated⟩⟩
      · simp [wscNext,start,count]
      · simp only [wscNext,start,if_true,loadLength]
        omega
    next later =>
      split
      next room =>
        refine followsOn (by simp [ends,vendor]) ?_
        rw [next]
        refine ⟨agrees.ssid,agrees.ht,agrees.vie,room,fun check => ?_⟩
        obtain ⟨bytes,length,_⟩ := agrees.wsc check
        refine ⟨?_,?_,.inl allocated⟩
        · simp [wscNext,later,count,bytes]
        · simp only [wscNext,later,if_false,length_append,loadLength]
          omega
      next => exact refused
  next => exact refused

theorem vendorFollows (vendor : eidOf (m pEid) = .vendorSpecific)
    (fits : isWps m pEid = true → ad.wscAllocated = true → 4 ≤ eidLen m pEid) :
    Follows ad m seen pEid (vendorCase ad m pEid s).value := by
  have quiet (t : Parse) (wpa : load m (pEid + 2) 4 ≠ wpaOui) (wps : load m (pEid + 2) 4 ≠ wpsOui)
      (same : Untouched s t) : Follows ad m seen pEid (t,.goOn) := by
    have plain : Plain m pEid := ⟨by simp [vendor],by simp [vendor],by simp [isWps,wps]⟩
    exact plain.followsQuiet agrees (by simp [keeps,vendor,wpa]) (by simp [ends,vendor]) same
  unfold vendorCase
  rw [bindValue]
  split
  next ralink =>
    exact quiet _ (wholeDiffers ralink.1 (by decide) (by decide)) (wholeDiffers ralink.1 (by decide) (by decide))
      ⟨rfl,rfl,rfl,rfl,rfl,rfl⟩
  next =>
    split
    next broadcom =>
      have wpa : load m (pEid + 2) 4 ≠ wpaOui := wholeDiffers broadcom.2.1 (by decide) (by decide)
      have wps : load m (pEid + 2) 4 ≠ wpsOui := wholeDiffers broadcom.2.1 (by decide) (by decide)
      unfold broadcomCase
      rw [bindValue]
      split
      · exact quiet _ wpa wps ⟨rfl,rfl,rfl,rfl,rfl,rfl⟩
      split
      · exact quiet _ wpa wps ⟨rfl,rfl,rfl,rfl,rfl,rfl⟩
      · exact quiet s wpa wps (untouched s)
    next =>
      rw [bindValue]
      split
      next wpa =>
        have plain : Plain m pEid := ⟨by simp [vendor],by simp [vendor],by simp [isWps,wpa,wpaOui,wpsOui]⟩
        exact plain.followsCopied agrees (by simp [keeps,vendor,wpa]) (by simp [ends,vendor]) (untouched s)
      next wpa =>
        rw [bindValue]
        split
        next parm =>
          exact quiet _ wpa (frontDiffers parm.1 (by decide) (by decide)) ⟨rfl,rfl,rfl,rfl,rfl,rfl⟩
        next =>
          split
          next info =>
            exact quiet _ wpa (frontDiffers info.1 (by decide) (by decide)) ⟨rfl,rfl,rfl,rfl,rfl,rfl⟩
          next =>
            split
            next wps => exact wpsFollows agrees vendor wps (fits (by simp [isWps,vendor,wps]))
            next wps => exact quiet s wpa wps (untouched s)

end

theorem fitsWps {msgLen} (fits : Fits ad m msgLen seen pEid) (wps : isWps m pEid = true)
    (allocated : ad.wscAllocated = true) : 4 ≤ eidLen m pEid := by
  simp only [isWps,Bool.and_eq_true,decide_eq_true_eq] at wps
  have oui (n : Nat) (short : n ≤ 4) : load m (pEid + 2) n = wpsOui.take n := by rw [← wps.2,loadTake short]
  simp only [Fits,wps.1,VendorFits,oui 3 (by decide),oui 4 (by decide)] at fits
  rcases fits.2 with ⟨ralink,_⟩ | ⟨_,broadcom,_⟩ | ⟨_,wpa | ⟨_,long⟩⟩
  · exact absurd ralink (by decide)
  · exact absurd broadcom (by decide)
  · exact absurd wpa (by decide)
  · exact long rfl allocated

theorem elementFollows {msgLen} (agrees : Agrees ad m s seen) (fits : Fits ad m msgLen seen pEid) :
    Follows ad m seen pEid (elementCase ad m pEid s).value := by
  by_cases none : silent (eidOf (m pEid)) = true
  · exact silentFollows agrees none
  unfold elementCase
  cases eid : eidOf (m pEid)
  case ssid => exact ssidFollows agrees eid
  case suppRates => exact suppRatesFollows agrees eid
  case htCap => exact htCapFollows agrees eid
  case addHt => exact addHtFollows agrees eid
  case dsParm => exact dsParmFollows agrees eid
  case cfParm => exact cfParmFollows agrees eid
  case ibssParm => exact ibssParmFollows agrees eid
  case vendorSpecific => exact vendorFollows agrees eid fun wps => fitsWps fits wps
  case rsn => exact rsnFollows agrees eid
  case country => exact countryFollows agrees eid
  case qbssLoad => exact qbssLoadFollows agrees eid
  all_goals
    rw [eid] at none
    exact absurd rfl none

end Agreement

section Loop
variable {ad m msgLen}

theorem loopEnds {fuel pEid s} (enough : msgLen < fuel + pEid) (turns : 0 < fuel) :
    ∃ t exit, (elementLoop ad m msgLen fuel pEid s).value = some (t,exit) := by
  induction fuel generalizing pEid s with
  | zero => exact absurd turns (Nat.lt_irrefl 0)
  | succ fuel ih =>
    unfold elementLoop
    rw [bindValue]
    split
    next inside =>
      split
      · exact ⟨s,.goOn,rfl⟩
      rw [bindValue,bindValue]
      split
      next t exit turn =>
        cases exit with
        | goOn => exact ih (by omega) (by omega)
        | sanityCheck => exact ⟨t,.sanityCheck,rfl⟩
        | refuse => exact ⟨t,.refuse,rfl⟩
    next => exact ⟨s,.goOn,rfl⟩

variable {pEid : Nat} {s : Parse} {seen : Seen}

theorem loopStops (fuel) (agrees : Agrees ad m s seen) (stop : ¬ taken m msgLen seen pEid) :
    elementLoop ad m msgLen (fuel + 1) pEid s = (do note (.read ⟨pEid + 1,1⟩); pure (some (s,.goOn))) := by
  unfold elementLoop
  simp only [taken,extent,not_and,Nat.not_lt,← agrees.length] at stop
  split
  next inside => rw [if_pos (by have := stop (by omega); omega)]
  next => rfl

theorem loopLeaves (fuel) {t exit} (agrees : Agrees ad m s seen)
    (take : taken m msgLen seen pEid) (turn : (elementCase ad m pEid s).value = (t,exit)) (left : exit ≠ .goOn) :
    (elementLoop ad m msgLen (fuel + 1) pEid s).value = some (t,exit) ∧
      ∀ {good : Access → Prop}, All good (elementLoop ad m msgLen (fuel + 1) pEid s) ↔
        good (.read ⟨pEid + 1,1⟩) ∧ good (.read ⟨pEid,1⟩) ∧ All good (elementCase ad m pEid s) := by
  simp only [taken,extent,← agrees.length] at take
  unfold elementLoop
  rw [if_pos (by omega),if_neg (by omega)]
  cases exit with
  | goOn => exact absurd rfl left
  | sanityCheck => simp [turn]
  | refuse => simp [turn]

theorem loopGoesOn (fuel) {t} (agrees : Agrees ad m s seen) (take : taken m msgLen seen pEid)
    (turn : (elementCase ad m pEid s).value = (t,.goOn)) :
    (elementLoop ad m msgLen (fuel + 1) pEid s).value = (elementLoop ad m msgLen fuel (pEid + extent m pEid) t).value ∧
      ∀ {good : Access → Prop}, All good (elementLoop ad m msgLen (fuel + 1) pEid s) ↔
        (good (.read ⟨pEid + 1,1⟩) ∧ good (.read ⟨pEid,1⟩) ∧ All good (elementCase ad m pEid s)) ∧
          All good (elementLoop ad m msgLen fuel (pEid + extent m pEid) t) := by
  have next : pEid + extent m pEid = pEid + 2 + eidLen m pEid := by
    unfold extent
    omega
  simp only [taken,extent,← agrees.length] at take
  rw [next,elementLoop,if_pos (by omega),if_neg (by omega)]
  simp [turn,and_assoc]

def EndsAs (ad : Adapter) (m : Nat → UInt8) (result : Option (Parse × Exit)) (w : Walk) : Prop :=
  ∃ t exit, result = some (t,exit) ∧ Agrees ad m t w.last ∧ (exit = .goOn ↔ w.gaveUp = false)

theorem goodHeader (take : taken m msgLen seen pEid) :
    Access.Good msgLen (.read ⟨pEid + 1,1⟩) ∧ Access.Good msgLen (.read ⟨pEid,1⟩) := by
  simp only [taken,extent] at take
  simp only [goodRead]
  omega

theorem cursorTaken (take : taken m msgLen seen pEid) :
    CursorFits ad m msgLen (pEid,seen) ↔ Fits ad m msgLen seen pEid := by
  have header : pEid + 2 ≤ msgLen := by
    simp only [taken,extent] at take
    omega
  simp [CursorFits,take,header]

theorem loopNeedsCase {fuel} (agrees : Agrees ad m s seen) (take : taken m msgLen seen pEid)
    (good : All (Access.Good msgLen) (elementLoop ad m msgLen (fuel + 1) pEid s)) :
    All (Access.Good msgLen) (elementCase ad m pEid s) := by
  cases turn : (elementCase ad m pEid s).value with
  | mk t exit =>
    by_cases going : exit = .goOn
    · subst going
      exact ((loopGoesOn fuel agrees take turn).2.mp good).1.2.2
    · exact ((loopLeaves fuel agrees take turn going).2.mp good).2.2

theorem loopFollows {fuel} (enough : msgLen < fuel + pEid) (turns : 0 < fuel) (agrees : Agrees ad m s seen) :
    (All (Access.Good msgLen) (elementLoop ad m msgLen fuel pEid s) ↔
      ∀ cursor ∈ (walk ad m msgLen fuel pEid seen).cursors, CursorFits ad m msgLen cursor) ∧
    (All (Access.Good msgLen) (elementLoop ad m msgLen fuel pEid s) →
      EndsAs ad m (elementLoop ad m msgLen fuel pEid s).value (walk ad m msgLen fuel pEid seen)) := by
  induction fuel generalizing pEid s seen with
  | zero => exact absurd turns (Nat.lt_irrefl 0)
  | succ fuel ih =>
    by_cases take : taken m msgLen seen pEid
    case neg =>
      simp only [loopStops fuel agrees take,walk,if_neg take,forall_mem_singleton]
      refine ⟨?_,fun _ => ⟨s,.goOn,rfl,agrees,by simp⟩⟩
      simp only [allBind,allNote,allPure,goodRead,CursorFits,take,false_imp_iff,and_true]
    have inside : pEid + 2 + eidLen m pEid ≤ msgLen := by
      simp only [taken,extent] at take
      omega
    have reads : All (Access.Good msgLen) (elementCase ad m pEid s) ↔ Fits ad m msgLen seen pEid :=
      elementReads inside agrees.room agrees.ht
    have header := goodHeader take
    by_cases fits : Fits ad m msgLen seen pEid
    case neg =>
      have bad : ¬ All (Access.Good msgLen) (elementLoop ad m msgLen (fuel + 1) pEid s) :=
        fun good => fits (reads.mp (loopNeedsCase agrees take good))
      refine ⟨iff_of_false bad fun good => fits ((cursorTaken take).mp (good (pEid,seen) ?_)),
        fun good => absurd good bad⟩
      simp only [walk,if_pos take]
      split <;> exact mem_cons_self
    have follows : Follows ad m seen pEid (elementCase ad m pEid s).value := elementFollows agrees fits
    have cursor : CursorFits ad m msgLen (pEid,seen) := (cursorTaken take).mpr fits
    cases turn : (elementCase ad m pEid s).value with
    | mk t exit =>
      rw [turn,Follows] at follows
      split at follows
      next finished =>
        obtain ⟨value,all⟩ := loopLeaves fuel agrees take turn follows.1
        simp only [walk,if_pos take,if_pos finished,forall_mem_singleton,all,value]
        exact ⟨iff_of_true ⟨header.1,header.2,reads.mpr fits⟩ cursor,
          fun _ => ⟨t,exit,rfl,follows.2,by simp [follows.1]⟩⟩
      next going =>
        obtain ⟨on,after⟩ := follows
        dsimp only at on after
        subst on
        obtain ⟨value,all⟩ := loopGoesOn fuel agrees take turn
        have further : msgLen < fuel + (pEid + extent m pEid) := by
          unfold extent
          omega
        obtain ⟨rest,ended⟩ := ih further (by omega) after
        simp only [walk,if_pos take,if_neg going,forall_mem_cons,all,value]
        exact ⟨and_congr (iff_of_true ⟨header.1,header.2,reads.mpr fits⟩ cursor) rest,fun good => ended good.2⟩

end Loop

end RtmpDriver.BeaconWalk
