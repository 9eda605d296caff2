import RtmpDriver.EapolBuild

/-! What PeerWpaMessageSanity's MIC comparison is worth. For a descriptor version that neither it nor the dispatcher
knows the expected MIC stays zero. -/
namespace RtmpDriver.WpaMic
open EapolFrame WpaSupplicant
open EapolBuild (sampleCrypto signedFrame)

def KnownVersion (key : EapolKey) : Prop :=
  key.info.keyDescVer = keyDescTkip ∨ key.info.keyDescVer = keyDescAes ∨ key.info.keyDescVer = keyDescExt

instance (key : EapolKey) : Decidable (KnownVersion key) := by unfold KnownVersion; infer_instance

def MicVerifies (crypto : Crypto) (ptk : Bytes) (key : EapolKey) : Prop :=
  key.info.keyDescVer = keyDescTkip ∧ key.keyMic = crypto.hmacMd5 (ptk.take lenPtkKck) key.covered ∨
  key.info.keyDescVer = keyDescAes ∧
    key.keyMic = (crypto.hmacSha1 (ptk.take lenPtkKck) key.covered).take lenKeyDescMic ∨
  key.info.keyDescVer = keyDescExt ∧ key.keyMic = crypto.aesCmac (ptk.take lenPtkKck) key.covered

def zeroMic : Bytes := List.replicate lenKeyDescMic 0

theorem micVerifiesKnown {crypto ptk key} (mic : MicVerifies crypto ptk key) : KnownVersion key := by
  rcases mic with ⟨ver,_⟩ | ⟨ver,_⟩ | ⟨ver,_⟩
  · exact .inl ver
  · exact .inr (.inl ver)
  · exact .inr (.inr ver)

theorem expectedKnown {crypto ptk key} (known : KnownVersion key)
    (same : key.keyMic = expectedMic crypto ptk key) : MicVerifies crypto ptk key := by
  rcases known with ver | ver | ver
  · exact .inl ⟨ver,by simpa [expectedMic,ver] using same⟩
  · exact .inr (.inl ⟨ver,by simpa [expectedMic,ver,keyDescTkip,keyDescAes] using same⟩)
  · exact .inr (.inr ⟨ver,by simpa [expectedMic,ver,keyDescTkip,keyDescAes,keyDescExt] using same⟩)

theorem expectedOfVerifies {crypto ptk key}
    (mic : MicVerifies crypto ptk key) : key.keyMic = expectedMic crypto ptk key := by
  rcases mic with ⟨ver,mic⟩ | ⟨ver,mic⟩ | ⟨ver,mic⟩
  · simpa [expectedMic,ver] using mic
  · simpa [expectedMic,ver,keyDescTkip,keyDescAes] using mic
  · simpa [expectedMic,ver,keyDescTkip,keyDescAes,keyDescExt] using mic

theorem expectedUnknown {crypto ptk key} (unknown : ¬ KnownVersion key) : expectedMic crypto ptk key = zeroMic := by
  simp only [KnownVersion,not_or] at unknown
  simp only [expectedMic,if_neg unknown.1,if_neg unknown.2.1,if_neg unknown.2.2,zeroMic]

theorem replayPasses {rCounter counter type} (larger : rCounter.value < counter.value)
    (kind : type = .pair3 ∨ type = .group1) : replayDiffers rCounter type counter = false := by
  have first := (compareMemoryIs (counter.2.trans rCounter.2.symm)).1.mpr larger
  rcases kind with rfl | rfl <;> simp [replayDiffers,first]

def OtherChecks (build : Build) (crypto : Crypto) (sta : Sta) (mem : Memory) (key : EapolKey)
    (type : MsgType) : Prop :=
  mem.keyData = true ∧ replayDiffers sta.entry.rCounter type key.replayCounter = false ∧
    (keyDataChecked build crypto sta mem key type).isSome

instance (build : Build) (crypto : Crypto) (sta : Sta) (mem : Memory) (key : EapolKey) (type : MsgType) :
    Decidable (OtherChecks build crypto sta mem key type) := by unfold OtherChecks; infer_instance

theorem sanityPasses {build crypto sta mem key type} (notFirst : type ≠ .pair1) :
    (peerWpaMessageSanity build crypto sta mem key type).isSome ↔
      OtherChecks build crypto sta mem key type ∧ key.keyMic = expectedMic crypto sta.entry.ptk key := by
  unfold peerWpaMessageSanity OtherChecks
  cases mem.keyData with
  | false => simp
  | true =>
    cases replayDiffers sta.entry.rCounter type key.replayCounter with
    | true => simp
    | false =>
      by_cases same : key.keyMic = expectedMic crypto sta.entry.ptk key
      · simp [same]
      · simp [same,notFirst]

def Policed (build : Build) (entry : MacEntry) : Prop :=
  entry.wepStatus = .tkipEnable ∨ entry.wepStatus = .aesEnable ∧ (build.pmf && entry.useSha256) = false

theorem versionPoliced {build entry elem type}
    (sent : dispatch build entry elem = some type) (cipher : Policed build entry) :
    KnownVersion (eapolKey elem) := by
  have kept : versionRefused build entry (eapolKey elem).info.keyDescVer = false := by
    by_contra refused
    have refused : versionRefused build entry (eapolKey elem).info.keyDescVer = true := by simpa using refused
    simp [dispatch,refused] at sent
  unfold versionRefused at kept
  rcases cipher with tkip | ⟨aes,plain⟩
  · by_contra unknown
    have other : (eapolKey elem).info.keyDescVer ≠ keyDescTkip := fun ver => unknown (.inl ver)
    simp [tkip,other] at kept
  · by_contra unknown
    simp only [KnownVersion,not_or] at unknown
    have skipped : ¬ (build.pmf = true ∧ entry.useSha256 = true ∧
        (eapolKey elem).info.keyDescVer ≠ keyDescExt) := by
      rintro ⟨pmf,sha,_⟩
      simp [pmf,sha] at plain
    rw [if_neg (by simp [aes]),if_neg skipped] at kept
    simp [aes,unknown.2.1,unknown.2.2] at kept

theorem micEnforced (build : Build) (crypto : Crypto) (sta : Sta) (mem : Memory) (elem : Elem) (type : MsgType)
    (sent : dispatch build sta.entry elem = some type) (notFirst : type ≠ .pair1) :
    ((peerWpaMessageSanity build crypto sta mem (eapolKey elem) type).isSome →
        MicVerifies crypto sta.entry.ptk (eapolKey elem)) ↔
      Policed build sta.entry ∨ KnownVersion (eapolKey elem) ∨ (eapolKey elem).keyMic ≠ zeroMic ∨
        ¬ OtherChecks build crypto sta mem (eapolKey elem) type := by
  rw [sanityPasses notFirst]
  by_cases known : KnownVersion (eapolKey elem)
  · exact ⟨fun _ => .inr (.inl known),fun _ passed => expectedKnown known passed.2⟩
  · rw [expectedUnknown known]
    constructor
    · intro enforced
      by_contra none
      simp only [not_or,not_not] at none
      exact known (micVerifiesKnown (enforced ⟨none.2.2.2,none.2.2.1⟩))
    · rintro (cipher | version | other | failed) passed
      · exact absurd (versionPoliced sent cipher) known
      · exact absurd version known
      · exact absurd passed.2 other
      · exact absurd passed.1 failed

theorem micEnforcedAes :
    let sta := sampleSta .wpa2Psk .aesEnable
    let elem := signedFrame sta.entry.ptk 0x03 0x8a 1 0
    (peerWpaMessageSanity noPmf sampleCrypto sta allMemory (eapolKey elem) .pair3).isSome ∧
      MicVerifies sampleCrypto sta.entry.ptk (eapolKey elem) := by
  have passed : (peerWpaMessageSanity noPmf sampleCrypto (sampleSta .wpa2Psk .aesEnable) allMemory
      (eapolKey (signedFrame (List.replicate 64 0) 0x03 0x8a 1 0)) .pair3).isSome := by decide +kernel
  exact ⟨passed,(micEnforced noPmf sampleCrypto (sampleSta .wpa2Psk .aesEnable) allMemory
    (signedFrame (List.replicate 64 0) 0x03 0x8a 1 0) .pair3 (by decide +kernel) (by decide)).mpr
    (.inl (.inr ⟨rfl,rfl⟩)) passed⟩

theorem unknownVersionAccepted :
    let sta := sampleSta .wpa2Psk .tkipAesMix
    let elem := keyFrame 0x03 0x80 1 0 zeroMic
    dispatch noPmf sta.entry elem = some .group1 ∧
      (peerWpaMessageSanity noPmf sampleCrypto sta allMemory (eapolKey elem) .group1).isSome ∧
      ¬ MicVerifies sampleCrypto sta.entry.ptk (eapolKey elem) := by
  refine ⟨by decide +kernel,by decide +kernel,fun mic => ?_⟩
  have unknown : ¬ KnownVersion (eapolKey (keyFrame 0x03 0x80 1 0 zeroMic)) := by decide +kernel
  exact unknown (micVerifiesKnown mic)

end RtmpDriver.WpaMic
