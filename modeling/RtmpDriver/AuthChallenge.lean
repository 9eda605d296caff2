import RtmpDriver.AuthMachine
import RtmpDriver.RsnSuites
import RtmpDriver.Wep

/-! PeerAuthRspAtSeq2Action with the frame it receives and the frame it answers with. The buffers ChlgText and
CyperChlgText hold what the allocator left in them. -/
namespace RtmpDriver.AuthChallenge
open EapolFrame LlcSnap ByteMemory Wep RsnSuites
open AuthMachine (Env State PeerAuth authModeOpen authModeKey mlmeSuccess mlmeFailNoResource authTimeoutValue
  peerAuthSanity peerAuthRspAtSeq2Action)

def cipherTextLen : Nat := 128
def ieChallengeText : UInt8 := 16
def octet : Nat := 24

theorem bytesAtLength (m p n) : (bytesAt m p n).length = n := by simp [bytesAt]

def word16At (m : Nat → UInt8) (p : Nat) : UInt16 := UInt16.ofNat (le16At m p)
def word16Bytes (w : UInt16) : Bytes := [UInt8.ofNat (w.toNat % 256),UInt8.ofNat (w.toNat / 256)]

def authFrame (elem : Elem) : PeerAuth where
  addr2 := ⟨bytesAt elem.msg 10 6,bytesAtLength elem.msg 10 6⟩
  alg := word16At elem.msg octet
  seq := word16At elem.msg (octet + 2)
  status := word16At elem.msg (octet + 4)

/- ChlgText after PeerAuthSanity: only a shared-key frame of sequence 2 or 3 fills it. -/
def chlgTextAfter (elem : Elem) (chlgText : Nat → UInt8) : Bytes :=
  if (authFrame elem).alg = authModeKey ∧ ((authFrame elem).seq = 2 ∨ (authFrame elem).seq = 3) then
    bytesAt elem.msg (octet + 8) cipherTextLen
  else bytesAt chlgText 0 cipherTextLen

/- CurrentAddress, DefaultKeyId, and the key and TxTsc of SharedKey[BSS0][DefaultKeyId]. -/
structure WepSta where
  currentAddress : Addr
  defaultKeyId : UInt8
  key : Bytes
  txTsc : Bytes

def incTxTsc : Nat → Bytes → Bytes
  | 0,tsc => tsc
  | _,[] => []
  | cnt + 1,b :: rest => (b + 1) :: if b + 1 = 0 then incTxTsc cnt rest else rest

def authHdr (da sa bssid : Addr) : Bytes := [0xb0,0x40,0,0] ++ (da.val ++ (sa.val ++ (bssid.val ++ [0,0])))

structure Seq3 where
  text : Bytes
  frame : Bytes
  deriving DecidableEq, Repr

def challengeText (alg : UInt16) (chlgText : Bytes) : Bytes :=
  word16Bytes alg ++ (word16Bytes 3 ++ (word16Bytes mlmeSuccess ++
    ([ieChallengeText,UInt8.ofNat cipherTextLen] ++ chlgText)))

def encryptedText (mem : WepMemory) (sta : WepSta) (text : Bytes) (cyperChlgText : Nat → UInt8) : Option Bytes :=
  let ivHdr := rtmpConstructWepIvHdr sta.defaultKeyId.toNat (incTxTsc lenWepTsc sta.txTsc)
  (rtmpSoftEncryptWep mem ivHdr sta.key (store cyperChlgText 0 text) 0 text.length).map fun m =>
    ivHdr ++ load m 0 (text.length + lenIcv)

structure Handled where
  state : State
  txTsc : Bytes
  sent : Option Seq3

def peerAuthRspAtSeq2 (env : Env) (mem : WepMemory) (sta : WepSta) (elem : Elem)
    (chlgText cyperChlgText : Nat → UInt8) (s : State) : Handled :=
  let frame := authFrame elem
  if !env.chlgText then ⟨s,sta.txTsc,none⟩
  else if !env.cyperChlgText then ⟨s,sta.txTsc,none⟩
  else if peerAuthSanity frame then
    if s.bssid = frame.addr2 ∧ frame.seq = 2 then
      let s := { s with authTimer := none }
      if frame.status = mlmeSuccess then
        if s.alg = authModeOpen then
          ⟨{ s with currState := .authReqIdle }.authConf frame.status,sta.txTsc,none⟩
        else if !env.outBuffer then
          ⟨{ s with currState := .authReqIdle }.authConf mlmeFailNoResource,sta.txTsc,none⟩
        else
          let text := challengeText frame.alg (chlgTextAfter elem chlgText)
          let txTsc := incTxTsc lenWepTsc sta.txTsc
          match encryptedText mem sta text cyperChlgText with
          | none => ⟨{ s with currState := .authReqIdle }.authConf mlmeFailNoResource,txTsc,none⟩
          | some body =>
            ⟨{ s with authTimer := some authTimeoutValue, currState := .authWaitSeq4 },txTsc,
              some ⟨text,authHdr frame.addr2 sta.currentAddress s.bssid ++ body⟩⟩
      else ⟨{ s with currState := .authReqIdle }.authConf frame.status,sta.txTsc,none⟩
    else ⟨s,sta.txTsc,none⟩
  else ⟨s,sta.txTsc,none⟩

structure Echoes (elem : Elem) (sent : Seq3) : Prop where
  alg : (authFrame elem).alg = authModeKey
  seq : (authFrame elem).seq = 2
  inside : octet + 8 + cipherTextLen ≤ elem.msgLen.toNat
  challenge : sent.text.drop 8 = bytesAt elem.msg (octet + 8) cipherTextLen

structure Answered (env : Env) (mem : WepMemory) (sta : WepSta) (elem : Elem) (s : State) : Prop where
  memory : env.chlgText = true ∧ env.cyperChlgText = true ∧ env.outBuffer = true ∧ mem.context = true
  key : sta.key.length ≠ 0
  sane : peerAuthSanity (authFrame elem) = true
  peer : s.bssid = (authFrame elem).addr2
  seq : (authFrame elem).seq = 2
  status : (authFrame elem).status = mlmeSuccess

variable {env : Env} {mem : WepMemory} {sta : WepSta} {elem : Elem} {chlgText cyperChlgText : Nat → UInt8} {s : State}
  {r : Seq3}

theorem encryptedSome (mem sta text cyperChlgText) :
    (encryptedText mem sta text cyperChlgText).isSome = true ↔ mem.context = true ∧ sta.key.length ≠ 0 := by
  unfold encryptedText rtmpSoftEncryptWep
  cases mem.context with
  | false => simp
  | true =>
    rcases Decidable.em (sta.key.length = 0) with empty | filled
    · simp [empty]
    · simp [filled]

theorem seq2State (env mem sta elem chlgText cyperChlgText s) :
    (peerAuthRspAtSeq2 env mem sta elem chlgText cyperChlgText s).state =
      peerAuthRspAtSeq2Action { env with encrypted := mem.context && sta.key.length != 0 } (authFrame elem) s := by
  have encrypted := encryptedSome mem sta (challengeText (authFrame elem).alg (chlgTextAfter elem chlgText))
    cyperChlgText
  unfold peerAuthRspAtSeq2 peerAuthRspAtSeq2Action
  cases body : encryptedText mem sta (challengeText (authFrame elem).alg (chlgTextAfter elem chlgText))
      cyperChlgText with
  | none =>
    have failed : (mem.context && sta.key.length != 0) = false := by
      rw [body] at encrypted
      simpa using encrypted
    simp only [failed]
    grind
  | some body =>
    have done : (mem.context && sta.key.length != 0) = true := by
      rw [body] at encrypted
      simpa using encrypted
    simp only [done]
    grind

theorem sentText (sent : (peerAuthRspAtSeq2 env mem sta elem chlgText cyperChlgText s).sent = some r) :
    Answered env mem sta elem s ∧ r.text = challengeText (authFrame elem).alg (chlgTextAfter elem chlgText) := by
  have encrypted := encryptedSome mem sta (challengeText (authFrame elem).alg (chlgTextAfter elem chlgText))
    cyperChlgText
  unfold peerAuthRspAtSeq2 at sent
  dsimp only at sent
  split_ifs at sent with text cyper sane peer status _ buffer
  cases body : encryptedText mem sta (challengeText (authFrame elem).alg (chlgTextAfter elem chlgText))
      cyperChlgText with
  | none =>
    rw [body] at sent
    cases sent
  | some out =>
    rw [body] at sent encrypted
    cases sent
    obtain ⟨context,filled⟩ := encrypted.mp rfl
    exact ⟨⟨⟨by simpa using text,by simpa using cyper,by simpa using buffer,context⟩,filled,sane,peer.1,peer.2,
      status⟩,rfl⟩

theorem answeredSent (chlgText cyperChlgText) (shared : s.alg = authModeKey)
    (answered : Answered env mem sta elem s) :
    ∃ r, (peerAuthRspAtSeq2 env mem sta elem chlgText cyperChlgText s).sent = some r := by
  obtain ⟨text,cyper,buffer,context⟩ := answered.memory
  have encrypted := (encryptedSome mem sta (challengeText (authFrame elem).alg (chlgTextAfter elem chlgText))
    cyperChlgText).mpr ⟨context,answered.key⟩
  obtain ⟨body,done⟩ := Option.isSome_iff_exists.mp encrypted
  have closed : authModeKey ≠ authModeOpen := by decide
  refine ⟨⟨challengeText (authFrame elem).alg (chlgTextAfter elem chlgText),
    authHdr (authFrame elem).addr2 sta.currentAddress (authFrame elem).addr2 ++ body⟩,?_⟩
  unfold peerAuthRspAtSeq2
  simp only [text,cyper,buffer,answered.sane,answered.peer,answered.seq,answered.status,shared,closed,done]
  rfl

theorem challengeDrop (alg chlgText) : (challengeText alg chlgText).drop 8 = chlgText := rfl

theorem challengeEchoed (env : Env) (mem : WepMemory) (sta : WepSta) (elem : Elem)
    (chlgText cyperChlgText : Nat → UInt8) (s : State) (shared : s.alg = authModeKey) :
    (∀ r, (peerAuthRspAtSeq2 env mem sta elem chlgText cyperChlgText s).sent = some r → Echoes elem r) ↔
      (Answered env mem sta elem s →
        (authFrame elem).alg = authModeKey ∧ octet + 8 + cipherTextLen ≤ elem.msgLen.toNat) := by
  constructor
  · intro echoes answered
    obtain ⟨r,sent⟩ := answeredSent chlgText cyperChlgText shared answered
    have echo := echoes r sent
    exact ⟨echo.alg,echo.inside⟩
  · intro holds r sent
    obtain ⟨answered,text⟩ := sentText sent
    obtain ⟨alg,inside⟩ := holds answered
    refine ⟨alg,answered.seq,inside,?_⟩
    rw [text,challengeDrop]
    exact if_pos ⟨alg,.inl answered.seq⟩

def sampleElem (alg fill : UInt8) (msgLen : BitVec 64) : Elem :=
  ⟨fun i => if i = octet then alg else if i = octet + 2 then 2 else if octet + 8 ≤ i then fill else 0,msgLen⟩

def sampleEnv : Env := ⟨false,true,true,true,true⟩

def sampleSta : WepSta := ⟨(authFrame (sampleElem 0 0 0)).addr2,0,[1,2,3,4,5],[0,0,0,0,0,0]⟩

def sampleWaiting : State := ⟨.authWaitSeq2,(authFrame (sampleElem 0 0 0)).addr2,authModeKey,some 300,[],[]⟩

theorem challengeEchoedWhole : Answered sampleEnv sampleMemory sampleSta (sampleElem 1 9 160) sampleWaiting ∧
    ∀ r, (peerAuthRspAtSeq2 sampleEnv sampleMemory sampleSta (sampleElem 1 9 160) (fun _ => 7) (fun _ => 7)
      sampleWaiting).sent = some r → Echoes (sampleElem 1 9 160) r :=
  ⟨⟨⟨rfl,rfl,rfl,rfl⟩,by decide,by decide,by decide,by decide,by decide⟩,
    (challengeEchoed sampleEnv sampleMemory sampleSta (sampleElem 1 9 160) (fun _ => 7)
      (fun _ => 7) sampleWaiting rfl).mpr
      fun _ => ⟨by decide,by decide⟩⟩

theorem heapEncrypted :
    ((peerAuthRspAtSeq2 sampleEnv sampleMemory sampleSta (sampleElem 0 9 160) (fun _ => 7) (fun _ => 7)
        sampleWaiting).sent.map fun r => r.text.drop 8) = some (List.replicate 128 7) ∧
      ((peerAuthRspAtSeq2 sampleEnv sampleMemory sampleSta (sampleElem 1 9 30) (fun _ => 7) (fun _ => 7)
        sampleWaiting).sent.map fun r => r.text.drop 8) = some (List.replicate 128 9) ∧
      ¬ (∀ r, (peerAuthRspAtSeq2 sampleEnv sampleMemory sampleSta (sampleElem 0 9 160) (fun _ => 7) (fun _ => 7)
        sampleWaiting).sent = some r → Echoes (sampleElem 0 9 160) r) ∧
      ¬ (∀ r, (peerAuthRspAtSeq2 sampleEnv sampleMemory sampleSta (sampleElem 1 9 30) (fun _ => 7) (fun _ => 7)
        sampleWaiting).sent = some r → Echoes (sampleElem 1 9 30) r) := by
  have context : sampleEnv.chlgText = true ∧ sampleEnv.cyperChlgText = true ∧ sampleEnv.outBuffer = true ∧
    sampleMemory.context = true := ⟨rfl,rfl,rfl,rfl⟩
  have opened : Answered sampleEnv sampleMemory sampleSta (sampleElem 0 9 160) sampleWaiting :=
    ⟨context,by decide,by decide,by decide,by decide,by decide⟩
  have short : Answered sampleEnv sampleMemory sampleSta (sampleElem 1 9 30) sampleWaiting :=
    ⟨context,by decide,by decide,by decide,by decide,by decide⟩
  obtain ⟨r,first⟩ := answeredSent (fun _ => 7) (fun _ => 7) rfl opened
  obtain ⟨q,second⟩ := answeredSent (fun _ => 7) (fun _ => 7) rfl short
  refine ⟨?_,?_,fun echoes => ?_,fun echoes => ?_⟩
  · rw [first,Option.map_some,(sentText first).2,challengeDrop]
    decide
  · rw [second,Option.map_some,(sentText second).2,challengeDrop]
    decide
  · exact absurd (echoes r first).alg (by decide)
  · exact absurd (echoes q second).inside (by decide)

end RtmpDriver.AuthChallenge
