import EzIot.Lbs.Steps

/-! # Credentials

The device number, the two keys and the address of the DAS come from one handshake
or stay as they are.
-/

namespace EzIot.Lbs

open CText CJson Kernel Program

variable (c : Crypto)

/-! ## Before the end of a handshake -/

/-- A step that works on the affair. -/
structure Scratch (s s' : Session) : Prop where
  kernel : fixed s'.kernel = fixed s.kernel
  saved : s'.saved = s.saved
  world : s.world.Later s'.world

/-- The kernel without what a handshake writes before its end. -/
def settled (k : SdkKernel) : SdkKernel := { fixed k with devCurAuthType := 0 }

structure Unsaved (s s' : Session) : Prop where
  kernel : settled s'.kernel = settled s.kernel
  saved : s'.saved = s.saved
  world : s.world.Later s'.world

instance : Std.Refl Scratch := ⟨fun _ => ⟨rfl, rfl, .rfl⟩⟩

instance : IsTrans Session Scratch where
  trans _ _ _ h h' := ⟨h'.kernel.trans h.kernel, h'.saved.trans h.saved, h.world.trans h'.world⟩

instance : IsTrans Session Unsaved where
  trans _ _ _ h h' := ⟨h'.kernel.trans h.kernel, h'.saved.trans h.saved, h.world.trans h'.world⟩

theorem Quiet.scratch {s s' : Session} (h : Quiet s s') : Scratch s s' :=
  ⟨h.kernel, h.saved, h.world⟩

theorem Scratch.unsaved {s s' : Session} (h : Scratch s s') : Unsaved s s' :=
  ⟨congrArg (fun k => { k with devCurAuthType := 0 }) h.kernel, h.saved, h.world⟩

theorem Quiet.unsaved {s s' : Session} (h : Quiet s s') : Unsaved s s' := h.scratch.unsaved

theorem quietly {α : Type} {x : Run α} (h : Within Quiet x) : Within Scratch x :=
  h.mono fun _ _ => Quiet.scratch

theorem unsaving {α : Type} {x : Run α} (h : Within Scratch x) : Within Unsaved x :=
  h.mono fun _ _ => Scratch.unsaved

theorem setAffair_scratch (f : Affair → Affair) : Within Scratch (setAffair f) :=
  .write fun _ => ⟨rfl, rfl, .rfl⟩

theorem decryptPeerPubkey_quiet (remainLen : UInt32) :
    Within Quiet (decryptPeerPubkey c remainLen) := by
  refine .bind (.read _) fun a => .bind (check_quiet _ _) fun _ => ?_
  dsimp only
  split
  · exact .stop _
  · exact .ite (.stop _) (crypto_quiet _)

theorem generateMasterkey_quiet (peerPubkey : Bytes) :
    Within Quiet (generateMasterkey c peerPubkey) :=
  .bind (check_quiet _ _) fun _ => crypto_quiet _

theorem parseAuthenticationII_scratch (remainLen : UInt32) :
    Within Scratch (parseAuthenticationII c remainLen) := by
  refine .bind (.read _) fun a => .bind (quietly (check_quiet _ _)) fun _ => ?_
  refine .bind (quietly (check_quiet _ _)) fun _ => .ite (.ite (.stop _) (.stop _)) ?_
  refine .bind (quietly (check_quiet _ _)) fun _ => .bind (.read _) fun _ => .ite ?_ (.stop _)
  refine .bind (quietly (decryptPeerPubkey_quiet c _)) fun _ => ?_
  exact .bind (quietly (generateMasterkey_quiet c _)) fun _ => setAffair_scratch _

theorem rematch_unsaved {x : Run Unit} (h : Within Scratch x) : Within Unsaved (rematch x) := by
  intro s
  have hx := (h s).unsaved
  simp only [rematch]
  split
  · rename_i e s' heq
    rw [heq] at hx
    split
    · exact ⟨hx.kernel, hx.saved, hx.world⟩
    · exact hx
  · exact hx

theorem waitAuthenticationII_unsaved : Within Unsaved (waitAuthenticationII c) :=
  .bind (unsaving (quietly (waitReply_quiet _))) fun _ =>
    rematch_unsaved (parseAuthenticationII_scratch c _)

theorem signCheck_quiet (sign : Bytes) (len : UInt16) : Within Quiet (signCheck c sign len) :=
  .bind (check_quiet _ _) fun _ => .bind (.read _) fun _ => .bind (crypto_quiet _) fun _ =>
    check_quiet _ _

theorem parseAuthenticationCreateDevId_scratch (remainLen : UInt32) :
    Within Scratch (parseAuthenticationCreateDevId c remainLen) := by
  refine .bind (.read _) fun a => .bind (quietly (check_quiet _ _)) fun _ => ?_
  refine .bind (quietly (check_quiet _ _)) fun _ => .bind (quietly (crypto_quiet _)) fun _ => ?_
  refine .bind (quietly (check_quiet _ _)) fun _ => .bind (setAffair_scratch _) fun _ => ?_
  refine .bind (quietly (check_quiet _ _)) fun _ => .bind (quietly (crypto_quiet _)) fun _ => ?_
  refine .bind (quietly (check_quiet _ _)) fun _ => .bind (setAffair_scratch _) fun _ => ?_
  exact quietly (signCheck_quiet c _ _)

theorem waitCreateDevId_scratch (cmd : UInt8) :
    Within Scratch (waitReply cmd >>= parseAuthenticationCreateDevId c) :=
  .bind (quietly (waitReply_quiet _)) fun _ => parseAuthenticationCreateDevId_scratch c _

theorem parseRefreshsessionkeyII_scratch (remainLen : UInt32) :
    Within Scratch (parseRefreshsessionkeyII c remainLen) := by
  refine .bind (.read _) fun a => .bind (quietly (check_quiet _ _)) fun _ => ?_
  refine .bind (quietly (check_quiet _ _)) fun _ => .bind (quietly (crypto_quiet _)) fun _ => ?_
  exact .bind (quietly (check_quiet _ _)) fun _ => setAffair_scratch _

theorem waitRefreshsessionkeyII_scratch : Within Scratch (waitRefreshsessionkeyII c) :=
  .bind (quietly (waitReply_quiet _)) fun _ => parseRefreshsessionkeyII_scratch c _

theorem parseCryptoDataRspDas_quiet (remainLen : UInt32) :
    Within Quiet (parseCryptoDataRspDas c remainLen) := by
  refine .bind (.read _) fun a => .bind (check_quiet _ _) fun _ => ?_
  refine .bind (malloc_quiet _) fun _ => .bind (check_quiet _ _) fun _ => ?_
  exact .bind (crypto_quiet _) fun _ => .bind (.read _) fun _ => .lift _

theorem waitCryptoDataRspDas_quiet : Within Quiet (waitCryptoDataRspDas c) :=
  .bind (waitReply_quiet _) fun _ => parseCryptoDataRspDas_quiet c _

theorem initLbsAffair_scratch (nUpper : Bool) : Within Scratch (initLbsAffair c nUpper) := by
  refine .bind (quietly (malloc_quiet _)) fun _ => .bind (quietly (malloc_quiet _)) fun _ => ?_
  refine .bind (quietly (malloc_quiet _)) fun _ => .bind (quietly (malloc_quiet _)) fun _ => ?_
  exact .write fun _ => ⟨rfl, rfl, .rfl⟩

theorem exchangeKeys_unsaved (nUpper : Bool) : Within Unsaved (exchangeKeys c nUpper) := by
  refine .bind (unsaving (initLbsAffair_scratch c _)) fun _ => ?_
  refine .bind (unsaving (quietly lbsConnect_quiet)) fun _ => ?_
  refine .bind (unsaving (quietly (sendAuthenticationI_quiet c))) fun _ => ?_
  refine .bind (waitAuthenticationII_unsaved c) fun _ => ?_
  exact unsaving (quietly clearLbsAffairBuf_quiet)

/-- The end of a handshake stops before it saves. -/
theorem finishRedirect_stopsWithin : StopsWithin Scratch (finishRedirect c) := by
  refine .bind (quietly clearLbsAffairBuf_quiet) fun _ => ?_
  refine .bind (quietly (sendCryptoDataReq_quiet c)) fun _ => ?_
  refine .bind (quietly (waitCryptoDataRspDas_quiet c)) fun info => ?_
  intro s e s' h
  cases h

/-! ## Errors of a handshake -/

theorem parseAuthenticationII_stops (remainLen : UInt32) :
    Stops LbsStop (parseAuthenticationII c remainLen) := by
  refine .bind (.read _) fun a => .bind (check_stops (by decide)) fun _ => ?_
  refine .bind (check_stops (by decide)) fun _ => .ite ?_ ?_
  · exact .ite (.stop (by decide)) (.stop (by decide))
  refine .bind (check_stops (platform_lbsStop _)) fun _ => .bind (.read _) fun _ => .ite ?_ ?_
  · refine .bind ?_ fun _ => .bind ?_ fun _ => setAffair_stops _
    · refine .bind (.read _) fun a => .bind (check_stops (by decide)) fun _ => ?_
      dsimp only
      split
      · exact .stop (by decide)
      · exact .ite (.stop trivial) (crypto_stops _)
    · exact .bind (check_stops (by decide)) fun _ => crypto_stops _
  · exact .stop (by decide)

theorem rematch_stops {x : Run Unit} (h : Stops LbsStop x) : Stops LbsStop (rematch x) := by
  intro s e he
  simp only [rematch] at he
  split at he
  · rename_i e' s' heq
    have hx := h s (.code e') (by rw [heq])
    split at he <;> cases he <;> exact hx
  · exact h s e he

theorem parseAuthenticationCreateDevId_stops (remainLen : UInt32) :
    Stops LbsStop (parseAuthenticationCreateDevId c remainLen) := by
  refine .bind (.read _) fun a => .bind (check_stops (platform_lbsStop _)) fun _ => ?_
  refine .bind (check_stops (by decide)) fun _ => .bind (crypto_stops _) fun _ => ?_
  refine .bind (check_stops (by decide)) fun _ => .bind (setAffair_stops _) fun _ => ?_
  refine .bind (check_stops (by decide)) fun _ => .bind (crypto_stops _) fun _ => ?_
  refine .bind (check_stops (by decide)) fun _ => .bind (setAffair_stops _) fun _ => ?_
  refine .bind (check_stops (by decide)) fun _ => .bind (.read _) fun _ => ?_
  exact .bind (crypto_stops _) fun _ => check_stops (by decide)

theorem parseRefreshsessionkeyII_stops (remainLen : UInt32) :
    Stops LbsStop (parseRefreshsessionkeyII c remainLen) := by
  refine .bind (.read _) fun a => .bind (check_stops (platform_lbsStop _)) fun _ => ?_
  refine .bind (check_stops (by decide)) fun _ => .bind (crypto_stops _) fun _ => ?_
  exact .bind (check_stops (by decide)) fun _ => setAffair_stops _

theorem jsonParseDasServerInfo_lbsStop (mem : Bytes) (e : Stop)
    (h : jsonParseDasServerInfo mem = .error e) : LbsStop e := by
  simp only [jsonParseDasServerInfo] at h
  repeat' split at h
  all_goals cases h
  all_goals decide

theorem waitCryptoDataRspDas_stops : Stops LbsStop (waitCryptoDataRspDas c) := by
  refine .bind (waitReply_stops _) fun remainLen => ?_
  refine .bind (.read _) fun a => .bind (check_stops (platform_lbsStop _)) fun _ => ?_
  refine .bind (malloc_stops (by decide)) fun _ => .bind (check_stops (by decide)) fun _ => ?_
  refine .bind (crypto_stops _) fun _ => .bind (.read _) fun _ => .lift ?_
  exact jsonParseDasServerInfo_lbsStop _

theorem initLbsAffair_stops (nUpper : Bool) : Stops LbsStop (initLbsAffair c nUpper) := by
  refine .bind (malloc_stops (by decide)) fun _ => .bind (malloc_stops (by decide)) fun _ => ?_
  refine .bind (malloc_stops (by decide)) fun _ => .bind (malloc_stops (by decide)) fun _ => ?_
  exact .write _

theorem finishRedirect_stops : Stops LbsStop (finishRedirect c) := by
  refine .bind (setAffair_stops _) fun _ => .bind (sendCryptoDataReq_stops c) fun _ => ?_
  exact .bind (waitCryptoDataRspDas_stops c) fun _ => .bind (.write _) fun _ => .write _

theorem exchangeKeys_stops (nUpper : Bool) : Stops LbsStop (exchangeKeys c nUpper) := by
  refine .bind (initLbsAffair_stops c _) fun _ => .bind lbsConnect_stops fun _ => ?_
  refine .bind (sendAuthenticationI_stops c) fun _ => .bind ?_ fun _ => setAffair_stops _
  exact .bind (waitReply_stops _) fun _ => rematch_stops (parseAuthenticationII_stops c _)

/-! ## What the server must have sent -/

/-- Bytes of a reply. -/
def replyBytes (reply : Bytes) (start len : Nat) : Bytes :=
  (List.range len).map fun i => reply.getD (start + i) 0

/-- The reply brings a public key, and `masterKey` is the digest of the secret. -/
def AgreesOn (shareKey reply masterKey : Bytes) : Prop :=
  ∃ len peerPubkey secret,
    c.gcmDec (shareKey.take 16) (replyBytes reply 20 len) (replyBytes reply 4 16) =
      .ok peerPubkey ∧
    c.calcSecret peerPubkey = .ok secret ∧
    masterKey = ((c.md5 secret).take 8).flatMap hexByte

/-- The reply brings the device number and the session key under the master key, and
ends with the signature of the serial number under that key. -/
structure HmacChecked (serial reply masterKey devId sessionKey : Bytes) : Prop where
  devId : c.gcmDec masterKey (replyBytes reply 21 32) (replyBytes reply 4 16) = .ok devId
  sessionKey : c.gcmDec masterKey (replyBytes reply 70 16) (replyBytes reply 53 16) = .ok sessionKey
  sign : ∃ sign, c.hmac384 masterKey (c.sha384 serial) = .ok sign ∧
    replyBytes reply 86 48 = sign.take 48

/-- The reply brings back the random number of the request, and the session key. -/
def RandomEchoed (random : UInt8) (reply masterKey sessionKey : Bytes) : Prop :=
  ∃ plain, c.cbcDec masterKey (replyBytes reply 4 32) = .ok plain ∧
    plain.getD 0 0 = random ∧
    sessionKey = (List.range 16).map fun i => plain.getD (i + 2) 0

/-- The reply brings the address of the DAS under the session key. -/
def DasAnswered (heap reply sessionKey : Bytes) (info : DasInfo) : Prop :=
  ∃ len plain, c.cbcDec sessionKey (replyBytes reply 4 len) = .ok plain ∧
    jsonParseDasServerInfo (plain ++ heap) = .ok info

variable {c} {s s' : Session}

theorem decryptPeerPubkey_returns {remainLen : UInt32} {key : Bytes}
    (h : decryptPeerPubkey c remainLen s = (.ok key, s')) :
    (∃ len, c.gcmDec (s.affair.shareKey.take 16) (replyBytes s.affair.inPayload 20 len)
      (replyBytes s.affair.inPayload 4 16) = .ok key) ∧ s = s' := by
  simp only [decryptPeerPubkey, read_bind, check_bind_returns] at h
  obtain ⟨-, h⟩ := h
  generalize hdec : c.gcmDec _ _ _ = plain at h
  rcases plain with e | key'
  · exfalso
    cases e with
    | setdeckey => cases h
    | _ =>
        dsimp only at h
        split at h <;> cases h
  · dsimp only at h
    split at h
    · cases h
    · cases h
      exact ⟨⟨_, hdec⟩, rfl⟩

theorem parseAuthenticationII_returns {remainLen : UInt32} {u : Unit}
    (h : parseAuthenticationII c remainLen s = (.ok u, s')) :
    AgreesOn c s.affair.shareKey s.affair.inPayload s'.affair.masterKey ∧
      s'.affair.devSubserial = s.affair.devSubserial := by
  simp only [parseAuthenticationII, read_bind, check_bind_returns] at h
  obtain ⟨-, -, h⟩ := h
  split at h
  · split at h <;> cases h
  · obtain ⟨-, h⟩ := check_bind_returns.mp h
    rw [read_bind] at h
    split at h
    · obtain ⟨key, t, hkey, h⟩ := bind_returns.mp h
      obtain ⟨⟨len, hdec⟩, rfl⟩ := decryptPeerPubkey_returns hkey
      obtain ⟨secret, t', hgenerate, h⟩ := bind_returns.mp h
      obtain ⟨-, hcalc⟩ := check_bind_returns.mp hgenerate
      obtain ⟨hsecret, rfl⟩ := crypto_returns.mp hcalc
      obtain rfl := write_returns.mp h
      exact ⟨⟨len, key, secret, hdec, hsecret, rfl⟩, rfl⟩
    · cases h

theorem rematch_returns {x : Run Unit} {u : Unit} (h : rematch x s = (.ok u, s')) :
    x s = (.ok u, s') := by
  simp only [rematch] at h
  split at h
  · split at h <;> cases h
  · exact h

theorem waitAuthenticationII_returns {u : Unit} (h : waitAuthenticationII c s = (.ok u, s')) :
    (∃ reply, Received s s' reply ∧ AgreesOn c s.affair.shareKey reply s'.affair.masterKey) ∧
      s'.affair.devSubserial = s.affair.devSubserial := by
  obtain ⟨len, t, hwait, h⟩ := bind_returns.mp h
  have hreceived := waitReply_returns hwait
  have hkeys := (waitReply_quiet _).run hwait |>.keys
  have hparse := rematch_returns h
  obtain ⟨hagrees, hserial⟩ := parseAuthenticationII_returns hparse
  have hlater := (parseAuthenticationII_scratch c len).run hparse |>.world
  have hshare : t.affair.shareKey = s.affair.shareKey := (congrArg Affair.shareKey hkeys :)
  rw [hshare] at hagrees
  exact ⟨⟨_, hreceived.within .rfl hlater, hagrees⟩,
    hserial.trans (congrArg Affair.devSubserial hkeys :)⟩

theorem initLbsAffair_returns {nUpper : Bool} {u : Unit}
    (h : initLbsAffair c nUpper s = (.ok u, s')) :
    Scratch s s' ∧ s'.affair.shareKey = c.shareKey s.kernel.devInfo nUpper ∧
      s'.affair.devSubserial = s.kernel.devInfo.devSubserial ∧
      s'.affair.masterKey = s.kernel.masterKey ∧ s'.affair.devId = s.kernel.devId ∧
      s'.affair.random1 = s.world.random := by
  have hscratch := (initLbsAffair_scratch c nUpper).run h
  obtain ⟨_, s₁, h₁, h⟩ := bind_returns.mp h
  obtain ⟨_, s₂, h₂, h⟩ := bind_returns.mp h
  obtain ⟨_, s₃, h₃, h⟩ := bind_returns.mp h
  obtain ⟨_, s₄, h₄, h⟩ := bind_returns.mp h
  have hquiet : Quiet s s₄ := Trans.trans (Trans.trans ((malloc_quiet _).run h₁)
    ((malloc_quiet _).run h₂)) (Trans.trans ((malloc_quiet _).run h₃) ((malloc_quiet _).run h₄))
  have hinfo : s₄.kernel.devInfo = s.kernel.devInfo := (congrArg SdkKernel.devInfo hquiet.kernel :)
  obtain rfl := write_returns.mp h
  exact ⟨hscratch, congrArg (c.shareKey · nUpper) hinfo, congrArg DevInfo.devSubserial hinfo,
    (congrArg SdkKernel.masterKey hquiet.kernel :), (congrArg SdkKernel.devId hquiet.kernel :),
    hquiet.world.random⟩

theorem exchangeKeys_returns {nUpper : Bool} {u : Unit}
    (h : exchangeKeys c nUpper s = (.ok u, s')) :
    (∃ reply, Received s s' reply ∧
      AgreesOn c (c.shareKey s.kernel.devInfo nUpper) reply s'.affair.masterKey) ∧
      s'.affair.devSubserial = s.kernel.devInfo.devSubserial := by
  obtain ⟨_, s₁, hinit, h⟩ := bind_returns.mp h
  obtain ⟨_, s₂, hconnect, h⟩ := bind_returns.mp h
  obtain ⟨_, s₃, hsend, h⟩ := bind_returns.mp h
  obtain ⟨_, s₄, hwait, hclear⟩ := bind_returns.mp h
  obtain ⟨hscratch, hshare, hserial, -⟩ := initLbsAffair_returns hinit
  have hquiet : Quiet s₁ s₃ :=
    Trans.trans (lbsConnect_quiet.run hconnect) ((sendAuthenticationI_quiet c).run hsend)
  have hcleared := clearLbsAffairBuf_quiet.run hclear
  obtain ⟨⟨reply, hreceived, hagrees⟩, hserial'⟩ := waitAuthenticationII_returns hwait
  have hshare' : s₃.affair.shareKey = c.shareKey s.kernel.devInfo nUpper :=
    (congrArg Affair.shareKey hquiet.keys :).trans hshare
  have hmaster : s'.affair.masterKey = s₄.affair.masterKey :=
    (congrArg Affair.masterKey hcleared.keys :)
  rw [hshare'] at hagrees
  refine ⟨⟨reply, ?_, ?_⟩, ?_⟩
  · exact hreceived.within (hscratch.world.trans hquiet.world) hcleared.world
  · rwa [hmaster]
  · calc s'.affair.devSubserial
      _ = s₄.affair.devSubserial := (congrArg Affair.devSubserial hcleared.keys :)
      _ = s₃.affair.devSubserial := hserial'
      _ = s₁.affair.devSubserial := (congrArg Affair.devSubserial hquiet.keys :)
      _ = s.kernel.devInfo.devSubserial := hserial

theorem signCheck_returns {sign : Bytes} {len : UInt16} {u : Unit}
    (h : signCheck c sign len s = (.ok u, s')) :
    (∃ full, c.hmac384 s.affair.masterKey (c.sha384 s.affair.devSubserial.val) = .ok full ∧
      sign = full.take 48) ∧ s = s' := by
  simp only [signCheck, read_bind, check_bind_returns, crypto_bind_returns, check_returns] at h
  obtain ⟨-, full, hfull, hsign, hs⟩ := h
  exact ⟨⟨full, hfull, not_not.mp hsign⟩, hs⟩

theorem parseAuthenticationCreateDevId_returns {remainLen : UInt32} {u : Unit}
    (h : parseAuthenticationCreateDevId c remainLen s = (.ok u, s')) :
    s'.affair.masterKey = s.affair.masterKey ∧
      HmacChecked c s.affair.devSubserial.val s.affair.inPayload s'.affair.masterKey
        s'.affair.devId s'.affair.sessionKey := by
  simp only [parseAuthenticationCreateDevId, setAffair, read_bind, write_bind, check_bind_returns,
    crypto_bind_returns] at h
  obtain ⟨-, -, devId, hdev, -, -, sessionKey, hsession, -, h⟩ := h
  obtain ⟨hsign, rfl⟩ := signCheck_returns h
  exact ⟨rfl, hdev, hsession, hsign⟩

theorem waitCreateDevId_returns {cmd : UInt8} {u : Unit}
    (h : (waitReply cmd >>= parseAuthenticationCreateDevId c) s = (.ok u, s')) :
    s'.affair.masterKey = s.affair.masterKey ∧
      ∃ reply, Received s s' reply ∧
        HmacChecked c s.affair.devSubserial.val reply s'.affair.masterKey
          s'.affair.devId s'.affair.sessionKey := by
  obtain ⟨len, t, hwait, hparse⟩ := bind_returns.mp h
  have hkeys := (waitReply_quiet _).run hwait |>.keys
  have hlater := (parseAuthenticationCreateDevId_scratch c len).run hparse |>.world
  obtain ⟨hmaster, hchecked⟩ := parseAuthenticationCreateDevId_returns hparse
  have hserial : t.affair.devSubserial = s.affair.devSubserial :=
    (congrArg Affair.devSubserial hkeys :)
  rw [hserial] at hchecked
  exact ⟨hmaster.trans (congrArg Affair.masterKey hkeys :), _,
    (waitReply_returns hwait).within .rfl hlater, hchecked⟩

theorem parseRefreshsessionkeyII_returns {remainLen : UInt32} {u : Unit}
    (h : parseRefreshsessionkeyII c remainLen s = (.ok u, s')) :
    s'.affair.masterKey = s.affair.masterKey ∧ s'.affair.devId = s.affair.devId ∧
      RandomEchoed c s.affair.random1 s.affair.inPayload s'.affair.masterKey
        s'.affair.sessionKey := by
  simp only [parseRefreshsessionkeyII, read_bind, check_bind_returns, crypto_bind_returns] at h
  obtain ⟨-, -, plain, hplain, hrandom, h⟩ := h
  obtain rfl := write_returns.mp h
  exact ⟨rfl, rfl, plain, hplain, not_not.mp hrandom, rfl⟩

theorem waitRefreshsessionkeyII_returns {u : Unit}
    (h : waitRefreshsessionkeyII c s = (.ok u, s')) :
    s'.affair.masterKey = s.affair.masterKey ∧ s'.affair.devId = s.affair.devId ∧
      ∃ reply, Received s s' reply ∧
        RandomEchoed c s.affair.random1 reply s'.affair.masterKey s'.affair.sessionKey := by
  obtain ⟨len, t, hwait, hparse⟩ := bind_returns.mp h
  have hkeys := (waitReply_quiet _).run hwait |>.keys
  have hlater := (parseRefreshsessionkeyII_scratch c len).run hparse |>.world
  obtain ⟨hmaster, hdev, hechoed⟩ := parseRefreshsessionkeyII_returns hparse
  have hrandom : t.affair.random1 = s.affair.random1 := (congrArg Affair.random1 hkeys :)
  rw [hrandom] at hechoed
  exact ⟨hmaster.trans (congrArg Affair.masterKey hkeys :),
    hdev.trans (congrArg Affair.devId hkeys :), _, (waitReply_returns hwait).within .rfl hlater,
    hechoed⟩

theorem waitCryptoDataRspDas_returns {info : DasInfo}
    (h : waitCryptoDataRspDas c s = (.ok info, s')) :
    ∃ reply, Received s s' reply ∧
      DasAnswered c s.world.heap reply s.affair.sessionKey info := by
  obtain ⟨len, t, hwait, hparse⟩ := bind_returns.mp h
  have hquiet := (waitReply_quiet _).run hwait
  have hlater := (parseCryptoDataRspDas_quiet c len).run hparse |>.world
  simp only [parseCryptoDataRspDas, read_bind, check_bind_returns] at hparse
  obtain ⟨-, h⟩ := hparse
  obtain ⟨_, t', hmalloc, h⟩ := bind_returns.mp h
  simp only [check_bind_returns, crypto_bind_returns, read_bind, lift_returns] at h
  obtain ⟨-, plain, hplain, hinfo, -⟩ := h
  have hsession : t.affair.sessionKey = s.affair.sessionKey :=
    (congrArg Affair.sessionKey hquiet.keys :)
  have hheap : t'.world.heap = s.world.heap :=
    ((malloc_quiet _).run hmalloc).world.heap.trans hquiet.world.heap
  rw [hsession] at hplain
  rw [hheap] at hinfo
  exact ⟨_, (waitReply_returns hwait).within .rfl hlater, _, plain, hplain, hinfo⟩

/-! ## The end of a handshake -/

/-- What a handshake that ran from `s` to `s'` has written, when its affair held
these keys before the address was asked for. -/
structure Written (c : Crypto) (s s' : Session) : Prop where
  devId : s'.kernel.devId = s.affair.devId
  masterKey : s'.kernel.masterKey = s.affair.masterKey
  sessionKey : s'.kernel.sessionKey = s.affair.sessionKey
  saved : s'.saved = s.saved ++ [(.devid, s.affair.devId), (.masterkey, s.affair.masterKey)]
  das : ∃ reply, Received s s' reply ∧
    DasAnswered c s.world.heap reply s.affair.sessionKey s'.kernel.redirectDasInfo
  world : s.world.Later s'.world

theorem finishRedirect_returns {u : Unit} (h : finishRedirect c s = (.ok u, s')) :
    Written c s s' := by
  obtain ⟨_, s₁, hclear, h⟩ := bind_returns.mp h
  obtain ⟨_, s₂, hsend, h⟩ := bind_returns.mp h
  obtain ⟨info, s₃, hwait, h⟩ := bind_returns.mp h
  have hasked : Quiet s s₂ :=
    Trans.trans (clearLbsAffairBuf_quiet.run hclear) ((sendCryptoDataReq_quiet c).run hsend)
  have hquiet : Quiet s s₃ := Trans.trans hasked ((waitCryptoDataRspDas_quiet c).run hwait)
  have hdev : s₃.affair.devId = s.affair.devId := (congrArg Affair.devId hquiet.keys :)
  have hmaster : s₃.affair.masterKey = s.affair.masterKey :=
    (congrArg Affair.masterKey hquiet.keys :)
  obtain ⟨reply, hreceived, hanswer⟩ := waitCryptoDataRspDas_returns hwait
  have hsession : s₂.affair.sessionKey = s.affair.sessionKey :=
    (congrArg Affair.sessionKey hasked.keys :)
  rw [hsession, hasked.world.heap] at hanswer
  cases h
  refine ⟨hdev, hmaster, (congrArg Affair.sessionKey hquiet.keys :), ?_, ?_, hquiet.world⟩
  · show s₃.saved ++ [(.devid, s₃.affair.devId), (.masterkey, s₃.affair.masterKey)] = _
    rw [hquiet.saved, hdev, hmaster]
  · exact ⟨reply, hreceived.within hasked.world .rfl, hanswer⟩

/-! ## All or nothing -/

/-- The kernel without the credentials. -/
def keyless (k : SdkKernel) : SdkKernel :=
  { k with
    devId := [], masterKey := [], sessionKey := []
    redirectDasInfo := .zero }

/-- Only the credentials and the address of the server move. -/
def Kept (s s' : Session) : Prop := keyless (fixed s'.kernel) = keyless (fixed s.kernel)

def Framed (s s' : Session) : Prop := keyless (settled s'.kernel) = keyless (settled s.kernel)

instance : IsTrans Session Kept := ⟨fun _ _ _ h h' => Eq.trans h' h⟩

instance : IsTrans Session Framed := ⟨fun _ _ _ h h' => Eq.trans h' h⟩

theorem Scratch.kept (h : Scratch s s') : Kept s s' := congrArg keyless h.kernel

theorem Unsaved.framed (h : Unsaved s s') : Framed s s' := congrArg keyless h.kernel

theorem Kept.framed (h : Kept s s') : Framed s s' :=
  (congrArg (fun k : SdkKernel => { k with devCurAuthType := 0 }) h :)

theorem keeping {α : Type} {x : Run α} (h : Within Scratch x) : Within Kept x :=
  h.mono fun _ _ => Scratch.kept

theorem finishRedirect_kept : Within Kept (finishRedirect c) := by
  refine .bind (keeping (quietly clearLbsAffairBuf_quiet)) fun _ => ?_
  refine .bind (keeping (quietly (sendCryptoDataReq_quiet c))) fun _ => ?_
  refine .bind (keeping (quietly (waitCryptoDataRspDas_quiet c))) fun _ => ?_
  exact .bind (.write fun _ => rfl) fun _ => .write fun _ => rfl

structure Unchanged (s s' : Session) : Prop where
  devId : s'.kernel.devId = s.kernel.devId
  masterKey : s'.kernel.masterKey = s.kernel.masterKey
  sessionKey : s'.kernel.sessionKey = s.kernel.sessionKey
  redirectDasInfo : s'.kernel.redirectDasInfo = s.kernel.redirectDasInfo
  saved : s'.saved = s.saved
  world : s.world.Later s'.world

theorem Unsaved.unchanged (h : Unsaved s s') : Unchanged s s' :=
  ⟨(congrArg SdkKernel.devId h.kernel :), (congrArg SdkKernel.masterKey h.kernel :),
    (congrArg SdkKernel.sessionKey h.kernel :), (congrArg SdkKernel.redirectDasInfo h.kernel :),
    h.saved, h.world⟩

/-- What a successful handshake leaves behind: everything is accepted in this
handshake, and what is accepted is persisted. -/
structure Committed (c : Crypto) (Accepted : Session → Session → Prop) (s s' : Session) : Prop where
  accepted : Accepted s s'
  das : ∃ reply, Received s s' reply ∧
    DasAnswered c s.world.heap reply s'.kernel.sessionKey s'.kernel.redirectDasInfo
  saved : s'.saved =
    s.saved ++ [(.devid, s'.kernel.devId), (.masterkey, s'.kernel.masterKey)]

/-- A new master key, and a device number and a session key that came with the
signature under it. -/
structure Negotiated (c : Crypto) (nUpper : Bool) (s s' : Session) : Prop where
  masterKey : ∃ reply, Received s s' reply ∧
    AgreesOn c (c.shareKey s.kernel.devInfo nUpper) reply s'.kernel.masterKey
  checked : ∃ reply, Received s s' reply ∧
    HmacChecked c s.kernel.devInfo.devSubserial.val reply s'.kernel.masterKey s'.kernel.devId
      s'.kernel.sessionKey

/-- The keys that were there, and a session key that came with the random number. -/
structure Refreshed (c : Crypto) (s s' : Session) : Prop where
  devId : s'.kernel.devId = s.kernel.devId
  masterKey : s'.kernel.masterKey = s.kernel.masterKey
  echoed : ∃ reply, Received s s' reply ∧
    RandomEchoed c s.world.random reply s'.kernel.masterKey s'.kernel.sessionKey

structure Atomic (c : Crypto) (Accepted : Session → Session → Prop) (x : Run Unit) : Prop where
  error : ∀ s e s', x s = (.error e, s') → e ≠ .code Code.succ ∧ Unchanged s s'
  success : ∀ s s', x s = (.ok (), s') → Committed c Accepted s s'

theorem malloc_error {e : Nat} {e' : Stop} (h : malloc e s = (.error e', s')) : e' = .code e := by
  simp only [malloc] at h
  split at h
  · cases h
    rfl
  · cases h
  · cases h

/-- The start of these variants. -/
def openEcdh : Run Unit := do
  malloc Code.memLack
  write fun s => { s with kernel := { s.kernel with devLastAuthType := s.kernel.devCurAuthType } }

/-- The type of the last handshake is the current one, so the second `switch` changes
nothing. -/
theorem withEcdh_eq {x : Run Unit} (hx : Within Framed x)
    (hcur : s.kernel.devCurAuthType = authProtocolEcdh) :
    withEcdh x s = (do openEcdh; x) s := by
  have hlast (t : Session) : (x t).2.kernel.devLastAuthType = t.kernel.devLastAuthType :=
    (congrArg SdkKernel.devLastAuthType (hx t) :)
  rw [withEcdh, read_bind, if_pos hcur, openEcdh, bind_assoc, bind_run, bind_run]
  cases hmalloc : malloc Code.memLack s with
  | mk r s₁ =>
      cases r with
      | error e => rfl
      | ok u =>
          have hcur' : s₁.kernel.devCurAuthType = authProtocolEcdh :=
            (congrArg SdkKernel.devCurAuthType ((malloc_quiet _).run hmalloc).kernel :).trans hcur
          rw [← hcur']
          exact if_pos (hlast _)

theorem withEcdh_default (x : Run Unit) (hcur : s.kernel.devCurAuthType ≠ authProtocolEcdh) :
    withEcdh x s = (.error (.code Code.internalErr), s) := by
  rw [withEcdh, read_bind, if_neg hcur]
  rfl

theorem openEcdh_within {R : Session → Session → Prop} [IsTrans Session R]
    (hquiet : ∀ s s', Quiet s s' → R s s')
    (hlast : ∀ s : Session, R s { s with
      kernel := { s.kernel with devLastAuthType := s.kernel.devCurAuthType } }) :
    Within R openEcdh := .bind ((malloc_quiet _).mono hquiet) fun _ => .write hlast

theorem openEcdh_returns {u : Unit} (h : openEcdh s = (.ok u, s')) :
    Unchanged s s' ∧ s'.kernel.devInfo = s.kernel.devInfo := by
  obtain ⟨_, t, hmalloc, h⟩ := bind_returns.mp h
  have hquiet := (malloc_quiet _).run hmalloc
  obtain rfl := write_returns.mp h
  obtain ⟨hdev, hmaster, hsession, hdas, hsaved, hworld⟩ := hquiet.unsaved.unchanged
  exact ⟨⟨hdev, hmaster, hsession, hdas, hsaved, hworld⟩,
    (congrArg SdkKernel.devInfo hquiet.kernel :)⟩

theorem openEcdh_error {e : Stop} (h : openEcdh s = (.error e, s')) :
    e = .code Code.memLack ∧ Quiet s s' := by
  rw [openEcdh, bind_run] at h
  cases hmalloc : malloc Code.memLack s with
  | mk r t =>
      rw [hmalloc] at h
      cases r with
      | error e' =>
          cases h
          exact ⟨malloc_error hmalloc, (malloc_quiet _).run hmalloc⟩
      | ok u => cases h

/-- The two variants with a key exchange; they differ in one request. -/
def negotiate (c : Crypto) (nUpper : Bool) (ask : Run Unit) (cmd : UInt8) : Run Unit := do
  exchangeKeys c nUpper
  ask
  waitReply cmd >>= parseAuthenticationCreateDevId c
  finishRedirect c

/-- What follows the exchange of keys. -/
theorem negotiated_kept {ask : Run Unit} {cmd : UInt8} (hask : Within Quiet ask) :
    Within Kept (do
      ask
      waitReply cmd >>= parseAuthenticationCreateDevId c
      finishRedirect c) := by
  refine .bind (keeping (quietly hask)) fun _ => ?_
  exact .bind (keeping (waitCreateDevId_scratch c _)) fun _ => finishRedirect_kept

theorem negotiate_framed {nUpper : Bool} {ask : Run Unit} {cmd : UInt8}
    (hask : Within Quiet ask) : Within Framed (negotiate c nUpper ask cmd) := by
  refine .bind ((exchangeKeys_unsaved c _).mono fun _ _ => Unsaved.framed) fun _ => ?_
  exact (negotiated_kept hask).mono fun _ _ => Kept.framed

theorem negotiate_stopsWithin {nUpper : Bool} {ask : Run Unit} {cmd : UInt8}
    (hask : Within Quiet ask) : StopsWithin Unsaved (negotiate c nUpper ask cmd) := by
  refine .bind (exchangeKeys_unsaved c _) fun _ => ?_
  refine .mono ?_ fun _ _ => Scratch.unsaved
  refine .bind (quietly hask) fun _ => .bind (waitCreateDevId_scratch c _) fun _ => ?_
  exact finishRedirect_stopsWithin c

theorem negotiate_stops {nUpper : Bool} {ask : Run Unit} {cmd : UInt8}
    (hask : Stops LbsStop ask) : Stops LbsStop (negotiate c nUpper ask cmd) := by
  refine .bind (exchangeKeys_stops c _) fun _ => .bind hask fun _ => .bind ?_ fun _ => ?_
  · exact .bind (waitReply_stops _) fun _ => parseAuthenticationCreateDevId_stops c _
  · exact finishRedirect_stops c

theorem negotiate_returns {nUpper : Bool} {ask : Run Unit} {cmd : UInt8} {u : Unit}
    (hask : Within Quiet ask) (h : negotiate c nUpper ask cmd s = (.ok u, s')) :
    Committed c (Negotiated c nUpper) s s' := by
  obtain ⟨_, s₁, hexchange, h⟩ := bind_returns.mp h
  obtain ⟨_, s₂, hsend, h⟩ := bind_returns.mp h
  obtain ⟨_, s₃, hwait, hfinish⟩ := bind_returns.mp h
  obtain ⟨⟨reply, hreceived, hagrees⟩, hserial⟩ := exchangeKeys_returns hexchange
  obtain ⟨hmaster, reply', hreceived', hchecked⟩ := waitCreateDevId_returns hwait
  have hfirst := (exchangeKeys_unsaved c nUpper).run hexchange
  have hquiet := hask.run hsend
  have hthird := (waitCreateDevId_scratch c _).run hwait
  have hwritten := finishRedirect_returns hfinish
  have hstart : Unsaved s s₃ := Trans.trans (Trans.trans hfirst hquiet.unsaved) hthird.unsaved
  have hkey : s₃.affair.masterKey = s₁.affair.masterKey :=
    hmaster.trans (congrArg Affair.masterKey hquiet.keys :)
  have hserial' : s₂.affair.devSubserial = s.kernel.devInfo.devSubserial :=
    (congrArg Affair.devSubserial hquiet.keys :).trans hserial
  refine ⟨⟨⟨reply, ?_, ?_⟩, reply', ?_, ?_⟩, ?_, ?_⟩
  · exact hreceived.within .rfl (hquiet.world.trans (hthird.world.trans hwritten.world))
  · rwa [hwritten.masterKey, hkey]
  · exact hreceived'.within (hfirst.world.trans hquiet.world) hwritten.world
  · rwa [hwritten.masterKey, hwritten.devId, hwritten.sessionKey, ← hserial']
  · obtain ⟨reply'', hreceived'', hanswer⟩ := hwritten.das
    refine ⟨reply'', hreceived''.within hstart.world .rfl, ?_⟩
    rwa [hwritten.sessionKey, ← hstart.world.heap]
  · rw [hwritten.saved, hwritten.devId, hwritten.masterKey, hstart.saved]

theorem LbsStop.ne_succ {e : Stop} (h : LbsStop e) : e ≠ .code Code.succ := by
  rintro rfl
  exact absurd h (by decide)

instance : IsTrans Session Unchanged where
  trans _ _ _ h h' := ⟨h'.devId.trans h.devId, h'.masterKey.trans h.masterKey,
    h'.sessionKey.trans h.sessionKey, h'.redirectDasInfo.trans h.redirectDasInfo,
    h'.saved.trans h.saved, h.world.trans h'.world⟩

/-- The start of a handshake may be moved back over quiet steps. -/
theorem Committed.negotiated_before {t : Session} {nUpper : Bool}
    (h : Committed c (Negotiated c nUpper) t s') (hinfo : t.kernel.devInfo = s.kernel.devInfo)
    (hsaved : t.saved = s.saved) (hworld : s.world.Later t.world) :
    Committed c (Negotiated c nUpper) s s' := by
  obtain ⟨⟨⟨reply, hreceived, hagrees⟩, reply', hreceived', hchecked⟩, ⟨reply'', hreceived'', hdas⟩,
    hsave⟩ := h
  rw [hinfo] at hagrees hchecked
  rw [hworld.heap] at hdas
  rw [hsaved] at hsave
  exact ⟨⟨⟨reply, hreceived.within hworld .rfl, hagrees⟩, reply', hreceived'.within hworld .rfl,
    hchecked⟩, ⟨reply'', hreceived''.within hworld .rfl, hdas⟩, hsave⟩

theorem negotiate_atomic {nUpper : Bool} {ask : Run Unit} {cmd : UInt8}
    (hask : Within Quiet ask) (hstops : Stops LbsStop ask) :
    Atomic c (Negotiated c nUpper) (withEcdh (negotiate c nUpper ask cmd)) := by
  have hframed : Within Framed (negotiate c nUpper ask cmd) := negotiate_framed hask
  constructor
  · intro s e s' h
    by_cases hcur : s.kernel.devCurAuthType = authProtocolEcdh
    · rw [withEcdh_eq hframed hcur, bind_run] at h
      rcases hopen : openEcdh s with ⟨e' | u, t⟩
      · rw [hopen] at h
        cases h
        obtain ⟨rfl, hquiet⟩ := openEcdh_error hopen
        exact ⟨by decide, hquiet.unsaved.unchanged⟩
      · rw [hopen] at h
        have hstop := negotiate_stops hstops t e (congrArg Prod.fst h)
        exact ⟨hstop.ne_succ, Trans.trans (openEcdh_returns hopen).1
          (negotiate_stopsWithin hask t e s' h).unchanged⟩
    · rw [withEcdh_default _ hcur] at h
      cases h
      exact ⟨by decide, rfl, rfl, rfl, rfl, rfl, .rfl⟩
  · intro s s' h
    by_cases hcur : s.kernel.devCurAuthType = authProtocolEcdh
    · rw [withEcdh_eq hframed hcur] at h
      obtain ⟨_, t, hopen, h⟩ := bind_returns.mp h
      obtain ⟨hunchanged, hinfo⟩ := openEcdh_returns hopen
      exact (negotiate_returns hask h).negotiated_before hinfo hunchanged.saved hunchanged.world
    · rw [withEcdh_default _ hcur] at h
      cases h

theorem lbsRedirectWithAuth_atomic (nUpper : Bool) :
    Atomic c (Negotiated c nUpper) (lbsRedirectWithAuth c nUpper) :=
  negotiate_atomic (sendUpdateSessionkeyReq_quiet c)
    (sendUpdateSessionkeyReq_stops c)

theorem lbsRedirectCreatedevidWithAuth_atomic (nUpper : Bool) :
    Atomic c (Negotiated c nUpper) (lbsRedirectCreatedevidWithAuth c nUpper) :=
  negotiate_atomic (sendAuthenticationCreatDevId_quiet c)
    (sendAuthenticationCreatDevId_stops c)

theorem lbsRedirect_stopsWithin : StopsWithin Scratch (lbsRedirect c) := by
  refine .bind (initLbsAffair_scratch c _) fun _ => .bind (quietly lbsConnect_quiet) fun _ => ?_
  refine .bind (quietly (sendRefreshsessionkeyI_quiet c)) fun _ => ?_
  refine .bind (waitRefreshsessionkeyII_scratch c) fun _ => ?_
  refine .bind (quietly clearLbsAffairBuf_quiet) fun _ => ?_
  exact .bind (quietly (sendRefreshsessionkeyIII_quiet c)) fun _ => finishRedirect_stopsWithin c

theorem lbsRedirect_stops : Stops LbsStop (lbsRedirect c) := by
  refine .bind (initLbsAffair_stops c _) fun _ => .bind lbsConnect_stops fun _ => ?_
  refine .bind (sendRefreshsessionkeyI_stops c) fun _ => .bind ?_ fun _ => ?_
  · exact .bind (waitReply_stops _) fun _ => parseRefreshsessionkeyII_stops c _
  refine .bind (setAffair_stops _) fun _ => ?_
  exact .bind (sendRefreshsessionkeyIII_stops c) fun _ => finishRedirect_stops c

theorem lbsRedirect_returns {u : Unit} (h : lbsRedirect c s = (.ok u, s')) :
    Committed c (Refreshed c) s s' := by
  obtain ⟨_, s₁, hinit, h⟩ := bind_returns.mp h
  obtain ⟨_, s₂, hconnect, h⟩ := bind_returns.mp h
  obtain ⟨_, s₃, hsend, h⟩ := bind_returns.mp h
  obtain ⟨_, s₄, hwait, h⟩ := bind_returns.mp h
  obtain ⟨_, s₅, hclear, h⟩ := bind_returns.mp h
  obtain ⟨_, s₆, hconfirm, hfinish⟩ := bind_returns.mp h
  obtain ⟨hfirst, -, -, hmaster₁, hdev₁, hrandom₁⟩ := initLbsAffair_returns hinit
  obtain ⟨hmaster₄, hdev₄, reply, hreceived, hechoed⟩ := waitRefreshsessionkeyII_returns hwait
  have hasked : Quiet s₁ s₃ :=
    Trans.trans (lbsConnect_quiet.run hconnect) ((sendRefreshsessionkeyI_quiet c).run hsend)
  have hanswered := (waitRefreshsessionkeyII_scratch c).run hwait
  have hconfirmed : Quiet s₄ s₆ := Trans.trans (clearLbsAffairBuf_quiet.run hclear)
    ((sendRefreshsessionkeyIII_quiet c).run hconfirm)
  have hwritten := finishRedirect_returns hfinish
  have hbefore : Scratch s s₃ := Trans.trans hfirst hasked.scratch
  have hstart : Scratch s s₆ := Trans.trans hbefore (Trans.trans hanswered hconfirmed.scratch)
  have hmaster₆ : s₆.affair.masterKey = s₄.affair.masterKey :=
    (congrArg Affair.masterKey hconfirmed.keys :)
  have hsession₆ : s₆.affair.sessionKey = s₄.affair.sessionKey :=
    (congrArg Affair.sessionKey hconfirmed.keys :)
  have hrandom₃ : s₃.affair.random1 = s.world.random :=
    (congrArg Affair.random1 hasked.keys :).trans hrandom₁
  refine ⟨⟨?_, ?_, reply, ?_, ?_⟩, ?_, ?_⟩
  · calc s'.kernel.devId
      _ = s₆.affair.devId := hwritten.devId
      _ = s₄.affair.devId := (congrArg Affair.devId hconfirmed.keys :)
      _ = s₃.affair.devId := hdev₄
      _ = s₁.affair.devId := (congrArg Affair.devId hasked.keys :)
      _ = s.kernel.devId := hdev₁
  · calc s'.kernel.masterKey
      _ = s₆.affair.masterKey := hwritten.masterKey
      _ = s₄.affair.masterKey := hmaster₆
      _ = s₃.affair.masterKey := hmaster₄
      _ = s₁.affair.masterKey := (congrArg Affair.masterKey hasked.keys :)
      _ = s.kernel.masterKey := hmaster₁
  · exact hreceived.within hbefore.world (hconfirmed.world.trans hwritten.world)
  · rwa [hwritten.masterKey, hwritten.sessionKey, hmaster₆, hsession₆, ← hrandom₃]
  · obtain ⟨reply', hreceived', hanswer⟩ := hwritten.das
    refine ⟨reply', hreceived'.within hstart.world .rfl, ?_⟩
    rwa [hwritten.sessionKey, ← hstart.world.heap]
  · rw [hwritten.saved, hwritten.devId, hwritten.masterKey, hstart.saved]

theorem lbsRedirect_atomic : Atomic c (Refreshed c) (lbsRedirect c) := by
  constructor
  · intro s e s' h
    have hstop := lbsRedirect_stops s e (congrArg Prod.fst h)
    exact ⟨hstop.ne_succ, (lbsRedirect_stopsWithin s e s' h).unsaved.unchanged⟩
  · intro s s' h
    exact lbsRedirect_returns h

/-! ## The redirect of the access layer -/

theorem lbsRedirect_kept : Within Kept (lbsRedirect c) := by
  refine .bind (keeping (initLbsAffair_scratch c _)) fun _ => ?_
  refine .bind (keeping (quietly lbsConnect_quiet)) fun _ => ?_
  refine .bind (keeping (quietly (sendRefreshsessionkeyI_quiet c))) fun _ => ?_
  refine .bind (keeping (waitRefreshsessionkeyII_scratch c)) fun _ => ?_
  refine .bind (keeping (quietly clearLbsAffairBuf_quiet)) fun _ => ?_
  exact .bind (keeping (quietly (sendRefreshsessionkeyIII_quiet c))) fun _ => finishRedirect_kept

/-- What `cnt_state_lbs_redirect` leaves after the error `e`. -/
structure Cleared (e : Stop) (s s' : Session) : Prop where
  devId : s'.kernel.devId =
    if e = .code Code.devidInconformity then List.replicate 32 0 else s.kernel.devId
  masterKey : s'.kernel.masterKey =
    if e = .code Code.masterkeyInvalid then List.replicate 16 0 else s.kernel.masterKey
  sessionKey : s'.kernel.sessionKey = s.kernel.sessionKey
  redirectDasInfo : s'.kernel.redirectDasInfo = s.kernel.redirectDasInfo
  saved : s'.saved = s.saved
  world : s.world.Later s'.world

/-- One of the three variants. -/
def Redirected (c : Crypto) (s s' : Session) : Prop :=
  (∃ nUpper, Committed c (Negotiated c nUpper) s s') ∨ Committed c (Refreshed c) s s'

/-- The variant that a pass of `cnt_state_lbs_redirect` runs. -/
def variant (c : Crypto) (nUpper : Bool) (k : SdkKernel) : Run Unit :=
  if unset k.devId then lbsRedirectCreatedevidWithAuth c nUpper
  else if unset k.masterKey then lbsRedirectWithAuth c nUpper
  else lbsRedirect c

theorem variant_error {nUpper : Bool} {k : SdkKernel} {e : Stop}
    (h : variant c nUpper k s = (.error e, s')) : e ≠ .code Code.succ ∧ Unchanged s s' := by
  simp only [variant] at h
  split at h
  · exact (lbsRedirectCreatedevidWithAuth_atomic nUpper).error s e s' h
  · split at h
    · exact (lbsRedirectWithAuth_atomic nUpper).error s e s' h
    · exact lbsRedirect_atomic.error s e s' h

theorem variant_success {nUpper : Bool} {k : SdkKernel}
    (h : variant c nUpper k s = (.ok (), s')) : Redirected c s s' := by
  simp only [variant] at h
  split at h
  · exact .inl ⟨nUpper, (lbsRedirectCreatedevidWithAuth_atomic nUpper).success s s' h⟩
  · split at h
    · exact .inl ⟨nUpper, (lbsRedirectWithAuth_atomic nUpper).success s s' h⟩
    · exact .inr (lbsRedirect_atomic.success s s' h)

theorem redirectOnce_eq (nUpper : Bool) (s : Session) : redirectOnce c nUpper s =
    match variant c nUpper s.kernel s with
    | (.error (.code e), s') => (.error (.code e), clearRejected e s')
    | r => r := rfl

theorem clearRejected_cleared (e : Nat) (h : Unchanged s s') :
    Cleared (.code e) s (clearRejected e s') := by
  obtain ⟨hdev, hmaster, hsession, hdas, hsaved, hworld⟩ := h
  by_cases hd : e = Code.devidInconformity
  · subst hd
    exact ⟨rfl, hmaster, hsession, hdas, hsaved, hworld⟩
  · by_cases hm : e = Code.masterkeyInvalid
    · subst hm
      exact ⟨hdev, rfl, hsession, hdas, hsaved, hworld⟩
    · simp only [clearRejected, hd, hm, if_false]
      exact ⟨by simp [hd, hdev], by simp [hm, hmaster], hsession, hdas, hsaved, hworld⟩

theorem redirectOnce_error {nUpper : Bool} {e : Stop}
    (h : redirectOnce c nUpper s = (.error e, s')) : e ≠ .code Code.succ ∧ Cleared e s s' := by
  rw [redirectOnce_eq] at h
  rcases hv : variant c nUpper s.kernel s with ⟨r, t⟩
  rw [hv] at h
  cases r with
  | ok u => cases h
  | error e' =>
      obtain ⟨hsucc, hunchanged⟩ := variant_error hv
      cases e' with
      | code n =>
          cases h
          exact ⟨hsucc, clearRejected_cleared n hunchanged⟩
      | fault =>
          cases h
          obtain ⟨hdev, hmaster, hsession, hdas, hsaved, hworld⟩ := hunchanged
          exact ⟨hsucc, hdev, hmaster, hsession, hdas, hsaved, hworld⟩

theorem redirectOnce_success {nUpper : Bool} (h : redirectOnce c nUpper s = (.ok (), s')) :
    Redirected c s s' := by
  rw [redirectOnce_eq] at h
  rcases hv : variant c nUpper s.kernel s with ⟨r, t⟩
  rw [hv] at h
  cases r with
  | ok u =>
      cases h
      exact variant_success hv
  | error e' => cases e' <;> cases h

theorem Cleared.unchanged {e : Nat} (h : Cleared (.code e) s s')
    (hsign : e = Code.lbsSigncheckError) : Unchanged s s' := by
  subst hsign
  exact ⟨h.devId, h.masterKey, h.sessionKey, h.redirectDasInfo, h.saved, h.world⟩

theorem Cleared.after {e : Stop} {t : Session} (h : Cleared e t s') (ht : Unchanged s t) :
    Cleared e s s' := by
  obtain ⟨hdev, hmaster, hsession, hdas, hsaved, hworld⟩ := h
  rw [ht.devId] at hdev
  rw [ht.masterKey] at hmaster
  exact ⟨hdev, hmaster, hsession.trans ht.sessionKey, hdas.trans ht.redirectDasInfo,
    hsaved.trans ht.saved, ht.world.trans hworld⟩

/-- All or nothing, apart from what the server has rejected. -/
structure RedirectAtomic (c : Crypto) (x : Run Unit) : Prop where
  error : ∀ s e s', x s = (.error e, s') → e ≠ .code Code.succ ∧ Cleared e s s'
  success : ∀ s s', x s = (.ok (), s') → ∃ t, Unchanged s t ∧ Redirected c t s'

theorem cntStateLbsRedirect_run (c : Crypto) (s : Session) :
    cntStateLbsRedirect c s = redirectOnce c true s ∨
      ∃ t, redirectOnce c true s = (.error (.code Code.lbsSigncheckError), t) ∧
        cntStateLbsRedirect c s = redirectOnce c false t := by
  rcases hfirst : redirectOnce c true s with ⟨r, t⟩
  rcases r with (e | _) | u
  · by_cases hsign : e = Code.lbsSigncheckError
    · subst hsign
      exact .inr ⟨t, rfl, by simp only [cntStateLbsRedirect, hfirst, if_true]⟩
    · exact .inl (by simp only [cntStateLbsRedirect, hfirst, hsign, if_false])
  · exact .inl (by simp only [cntStateLbsRedirect, hfirst])
  · exact .inl (by simp only [cntStateLbsRedirect, hfirst])

theorem cntStateLbsRedirect_atomic : RedirectAtomic c (cntStateLbsRedirect c) := by
  constructor
  · intro s e s' h
    rcases cntStateLbsRedirect_run c s with heq | ⟨t, hfirst, heq⟩
    · exact redirectOnce_error (heq.symm.trans h)
    · have hunchanged := (redirectOnce_error hfirst).2.unchanged rfl
      obtain ⟨hsucc, hcleared⟩ := redirectOnce_error (heq.symm.trans h)
      exact ⟨hsucc, hcleared.after hunchanged⟩
  · intro s s' h
    rcases cntStateLbsRedirect_run c s with heq | ⟨t, hfirst, heq⟩
    · exact ⟨s, ⟨rfl, rfl, rfl, rfl, rfl, .rfl⟩, redirectOnce_success (heq.symm.trans h)⟩
    · exact ⟨t, (redirectOnce_error hfirst).2.unchanged rfl,
        redirectOnce_success (heq.symm.trans h)⟩

/-! ## What the access layer finds unchanged -/

/-- The kernel without everything that a handshake may write. -/
def outside (k : SdkKernel) : SdkKernel := { keyless (settled k) with devLastAuthType := 0 }

def Outside (s s' : Session) : Prop := outside s'.kernel = outside s.kernel

instance : IsTrans Session Outside := ⟨fun _ _ _ h h' => Eq.trans h' h⟩

theorem Framed.outside (h : Framed s s') : Outside s s' :=
  (congrArg (fun k : SdkKernel => { k with devLastAuthType := 0 }) h :)

theorem withEcdh_outside {x : Run Unit} (hx : Within Framed x) : Within Outside (withEcdh x) := by
  intro s
  by_cases hcur : s.kernel.devCurAuthType = authProtocolEcdh
  · rw [withEcdh_eq hx hcur]
    have hopen : Within Outside openEcdh :=
      openEcdh_within (fun _ _ h => h.scratch.kept.framed.outside) fun _ => rfl
    exact hopen.bind (fun _ => hx.mono fun _ _ => Framed.outside) s
  · rw [withEcdh_default x hcur]
    rfl

theorem variant_outside (nUpper : Bool) (k : SdkKernel) : Within Outside (variant c nUpper k) := by
  refine .ite ?_ (.ite ?_ ?_)
  · exact withEcdh_outside (negotiate_framed (sendAuthenticationCreatDevId_quiet c))
  · exact withEcdh_outside (negotiate_framed (sendUpdateSessionkeyReq_quiet c))
  · exact lbsRedirect_kept.mono fun _ _ h => h.framed.outside

theorem redirectOnce_outside (nUpper : Bool) : Within Outside (redirectOnce c nUpper) := by
  intro s
  have hv := variant_outside (c := c) nUpper s.kernel s
  rw [redirectOnce_eq]
  rcases hr : variant c nUpper s.kernel s with ⟨(e | _) | u, t⟩ <;> rw [hr] at hv
  · have hcleared : Outside t (clearRejected e t) := by
      simp only [Outside, clearRejected]
      split <;> split <;> rfl
    exact Trans.trans hv hcleared
  · exact hv
  · exact hv

theorem cntStateLbsRedirect_outside : Within Outside (cntStateLbsRedirect c) := by
  intro s
  rcases cntStateLbsRedirect_run c s with heq | ⟨t, hfirst, heq⟩
  · rw [heq]
    exact redirectOnce_outside true s
  · rw [heq]
    exact Trans.trans ((redirectOnce_outside true).run hfirst) (redirectOnce_outside false t)

theorem withEcdh_stops {x : Run Unit} (hx : Within Framed x) (hstops : Stops LbsStop x) :
    Stops LbsStop (withEcdh x) := by
  intro s e h
  by_cases hcur : s.kernel.devCurAuthType = authProtocolEcdh
  · rw [withEcdh_eq hx hcur] at h
    have hopen : Stops LbsStop openEcdh := .bind (malloc_stops (by decide)) fun _ => .write _
    exact hopen.bind (fun _ => hstops) s e h
  · rw [withEcdh_default x hcur] at h
    cases h
    decide

theorem variant_stops (nUpper : Bool) (k : SdkKernel) : Stops LbsStop (variant c nUpper k) := by
  refine .ite ?_ (.ite ?_ lbsRedirect_stops)
  · exact withEcdh_stops (negotiate_framed (sendAuthenticationCreatDevId_quiet c))
      (negotiate_stops (sendAuthenticationCreatDevId_stops c))
  · exact withEcdh_stops (negotiate_framed (sendUpdateSessionkeyReq_quiet c))
      (negotiate_stops (sendUpdateSessionkeyReq_stops c))

theorem redirectOnce_stops (nUpper : Bool) : Stops LbsStop (redirectOnce c nUpper) := by
  intro s e h
  have hv := variant_stops (c := c) nUpper s.kernel s
  rw [redirectOnce_eq] at h
  rcases hr : variant c nUpper s.kernel s with ⟨(e' | _) | u, t⟩ <;> rw [hr] at h hv <;> cases h
  · exact hv _ rfl
  · exact hv _ rfl

theorem cntStateLbsRedirect_stops : Stops LbsStop (cntStateLbsRedirect c) := by
  intro s e h
  rcases cntStateLbsRedirect_run c s with heq | ⟨t, -, heq⟩
  · rw [heq] at h
    exact redirectOnce_stops true s e h
  · rw [heq] at h
    exact redirectOnce_stops false t e h

/-- Every handshake is all or nothing, whatever the network and the server do. -/
theorem lbs_credentials_atomic (c : Crypto) :
    (∀ nUpper, Atomic c (Negotiated c nUpper) (lbsRedirectWithAuth c nUpper)) ∧
      (∀ nUpper, Atomic c (Negotiated c nUpper) (lbsRedirectCreatedevidWithAuth c nUpper)) ∧
      Atomic c (Refreshed c) (lbsRedirect c) ∧
      RedirectAtomic c (cntStateLbsRedirect c) :=
  ⟨lbsRedirectWithAuth_atomic, lbsRedirectCreatedevidWithAuth_atomic, lbsRedirect_atomic,
    cntStateLbsRedirect_atomic⟩

end EzIot.Lbs
