import EzIot.Lbs.Answers

/-! # Meetings with the platform

A meeting is one call of `cnt_state_lbs_redirect` while nothing fails on the device and the
platform keeps to the protocol. The platform rejects a device that comes with other keys than
its own, and one that spells the share key in the other way.
-/

namespace EzIot.Lbs

open CText CJson Kernel Program Base128 Das

/-! ## Handshakes that succeed -/

/-- What the platform picks in a handshake. Its secret comes from the public key of the device. -/
structure Offer where
  publicKey : Bytes
  secret : Bytes → Bytes
  devId : Bytes
  sessionKey : Bytes
  random2 : UInt8
  text : Bytes
  info : DasInfo

/-- Both ends come to one secret, and the text names the address. -/
structure Offer.Fits (c : Crypto) (o : Offer) : Prop where
  publicKey : o.publicKey.length = 97
  secret : ∀ key, c.publicKey = .ok key → c.calcSecret o.publicKey = .ok (o.secret key)
  devId : o.devId.length = 32
  sessionKey : o.sessionKey.length = 16
  text : jsonParseDasServerInfo o.text = .ok o.info
  size : 20 + o.text.length ≤ messageSizeMax

structure SameDevice (k k' : SdkKernel) : Prop where
  devInfo : k'.devInfo = k.devInfo
  devCurAuthType : k'.devCurAuthType = k.devCurAuthType
  devAuthTypeCount : k'.devAuthTypeCount = k.devAuthTypeCount

theorem SameDevice.trans {k k' k'' : SdkKernel} (h : SameDevice k k') (h' : SameDevice k' k'') :
    SameDevice k k'' :=
  ⟨h'.devInfo.trans h.devInfo, h'.devCurAuthType.trans h.devCurAuthType,
    h'.devAuthTypeCount.trans h.devAuthTypeCount⟩

theorem SameDevice.of_fixed {k k' : SdkKernel} (h : fixed k' = fixed k) : SameDevice k k' :=
  ⟨(congrArg SdkKernel.devInfo h :), (congrArg SdkKernel.devCurAuthType h :),
    (congrArg SdkKernel.devAuthTypeCount h :)⟩

/-- The device holds the keys and the address, and has saved them. -/
structure Granted (k : Keys) (info : DasInfo) (rest : List (Except NetError UInt8))
    (s s' : Session) : Prop where
  devId : s'.kernel.devId = k.devId
  masterKey : s'.kernel.masterKey = k.masterKey
  sessionKey : s'.kernel.sessionKey = k.sessionKey
  das : s'.kernel.redirectDasInfo = info
  saved : s'.saved = s.saved ++ [(.devid, k.devId), (.masterkey, k.masterKey)]
  incoming : s'.world.incoming = rest
  same : SameDevice s.kernel s'.kernel

theorem Granted.before {k : Keys} {info : DasInfo} {rest : List (Except NetError UInt8)}
    {s t u : Session} (h : Granted k info rest t u) (hsame : SameDevice s.kernel t.kernel)
    (hsaved : t.saved = s.saved) : Granted k info rest s u :=
  { h with saved := hsaved ▸ h.saved, same := hsame.trans h.same }

section Handshakes

variable {c : Crypto} {cbc : Bytes → Cipher} {s : Session} {o : Offer} {k : Keys}
  {rest : List (Except NetError UInt8)} {bs : Bytes}

/-- The end of every variant. -/
theorem finishRedirect_granted (hc : c.Sound cbc) (ho : o.Fits c)
    (hanswer : DasAnswer c k.sessionKey o.text bs) (hdevId : s.affair.devId = k.devId)
    (hmaster : s.affair.masterKey = k.masterKey) (hsession : s.affair.sessionKey = k.sessionKey)
    (hkey : k.sessionKey.length = 16) (hs : s.world.Calm)
    (hincoming : s.world.incoming = bs.map .ok ++ rest) :
    Yields (finishRedirect c) s fun _ => Granted k o.info rest s := by
  refine (clearLbsAffairBuf_steady hs).bind fun _ t ht => ?_
  have hkey' : t.affair.sessionKey.length = 16 := by
    rw [ht.kept Affair.sessionKey fun _ => rfl, hsession, hkey]
  refine (sendCryptoDataReq_steady hc hkey' ht.calm).bind fun _ u hu => ?_
  have hall := ht.trans hu
  have hsession' : u.affair.sessionKey = k.sessionKey := by
    rw [hall.kept Affair.sessionKey fun _ => rfl, hsession]
  have hwait := waitCryptoDataRspDas_learned hc (hsession'.symm ▸ hanswer) (hsession'.symm ▸ hkey)
    ho.text ho.size hall.calm (hall.incoming.trans hincoming)
  refine hwait.bind fun a v hv => ?_
  obtain ⟨rfl, hv⟩ := hv
  have hlearned := hall.learned hv
  have hkept {β : Type} (f : Affair → β) (hf : ∀ a, f a.keys = f a) : f v.affair = f s.affair := by
    rw [← hf v.affair, hlearned.keys]
    exact hf s.affair
  refine .write ⟨?_, ?_, ?_, rfl, ?_, ?_, ?_⟩
  · exact (hkept Affair.devId fun _ => rfl).trans hdevId
  · exact (hkept Affair.masterKey fun _ => rfl).trans hmaster
  · exact (hkept Affair.sessionKey fun _ => rfl).trans hsession
  · show v.saved ++ [(.devid, v.affair.devId), (.masterkey, v.affair.masterKey)] = _
    rw [hlearned.saved, hkept Affair.devId fun _ => rfl, hkept Affair.masterKey fun _ => rfl,
      hdevId, hmaster]
  · exact (congrArg World.incoming hlearned.rest :)
  · have hsame := SameDevice.of_fixed hlearned.kernel
    exact ⟨hsame.devInfo, hsame.devCurAuthType, hsame.devAuthTypeCount⟩

/-- A device that can exchange keys in this meeting. -/
structure CanExchange (s : Session) : Prop where
  authType : s.kernel.devCurAuthType = authProtocolEcdh
  count : s.kernel.devAuthTypeCount.toNat ≤ 14
  connects : s.world.connects ≠ []
  calm : s.world.Calm

structure Exchanged (c : Crypto) (secret : Bytes) (rest : List (Except NetError UInt8))
    (s s' : Session) : Prop where
  same : SameDevice s.kernel s'.kernel
  saved : s'.saved = s.saved
  devSubserial : s'.affair.devSubserial = s.kernel.devInfo.devSubserial
  masterKey : s'.affair.masterKey = masterKeyOf c secret
  incoming : s'.world.incoming = rest
  calm : s'.world.Calm

/-- The first request has gone out. -/
structure Requested (c : Crypto) (nUpper : Bool) (s s' : Session) : Prop where
  same : SameDevice s.kernel s'.kernel
  saved : s'.saved = s.saved
  rest : s'.world.rest = { s.world.rest with connects := s.world.connects.tail }
  calm : s'.world.Calm
  shareKey : s'.affair.shareKey = c.shareKey s.kernel.devInfo nUpper
  devSubserial : s'.affair.devSubserial = s.kernel.devInfo.devSubserial
  varHead : s'.affair.outVarHead.headD 0 = s'.kernel.devCurAuthType
  flag : varHeadFlag (s'.affair.outHead.headD 0) = 1

def request (c : Crypto) (nUpper : Bool) : Run Unit := do
  initLbsAffair c nUpper
  lbsConnect
  sendAuthenticationI c

theorem exchangeKeys_eq (c : Crypto) (nUpper : Bool) : exchangeKeys c nUpper = (do
    request c nUpper
    waitAuthenticationII c
    clearLbsAffairBuf) := by
  simp only [exchangeKeys, request, bind_assoc]

theorem request_requested (hc : c.Sound cbc) (nUpper : Bool) (hs : CanExchange s) :
    Yields (request c nUpper) s fun _ => Requested c nUpper s := by
  refine (initLbsAffair_opened c nUpper hs.calm).bind fun _ t ht => ?_
  have hconnects : t.world.connects = s.world.connects := (congrArg World.connects ht.rest :)
  refine (lbsConnect_connected ht.calm (hconnects ▸ hs.connects)).bind fun _ u hu => ?_
  have hsame : SameDevice s.kernel u.kernel :=
    .of_fixed (hu.quiet.kernel.trans ht.scratch.kernel)
  have hshare : u.affair.shareKey = c.shareKey s.kernel.devInfo nUpper :=
    (congrArg Affair.shareKey hu.quiet.keys :).trans ht.shareKey
  have hserial : u.affair.devSubserial = s.kernel.devInfo.devSubserial :=
    (congrArg Affair.devSubserial hu.quiet.keys :).trans ht.devSubserial
  have hcount : u.kernel.devAuthTypeCount.toNat ≤ 14 := by
    rw [hsame.devAuthTypeCount]
    exact hs.count
  refine (sendAuthenticationI_announced hc (hsame.devCurAuthType.trans hs.authType) hcount
    (hshare ▸ hc.shareKey _ _) hu.calm).mono fun _ v hv => ?_
  have hsame' := SameDevice.of_fixed hv.quiet.kernel
  refine ⟨hsame.trans hsame', ?_, ?_, hv.calm, ?_, ?_, ?_, hv.flag⟩
  · rw [hv.quiet.saved, hu.quiet.saved, ht.scratch.saved]
  · rw [hv.rest, hu.rest, ht.rest, hconnects]
  · rw [hv.kept Affair.shareKey fun _ => rfl, hshare]
  · rw [hv.kept Affair.devSubserial fun _ => rfl, hserial]
  · rw [hv.authType, hsame'.devCurAuthType]

theorem exchangeKeys_exchanged (hc : c.Sound cbc) (ho : o.Fits c) {nUpper : Bool} {key : Bytes}
    (hkey : c.publicKey = .ok key)
    (hanswer : KeyAnswer c (c.shareKey s.kernel.devInfo nUpper) s.kernel.devCurAuthType
      o.publicKey bs) (hs : CanExchange s) (hincoming : s.world.incoming = bs.map .ok ++ rest) :
    Yields (exchangeKeys c nUpper) s fun _ => Exchanged c (o.secret key) rest s := by
  rw [exchangeKeys_eq]
  refine (request_requested hc nUpper hs).bind fun _ t ht => ?_
  have hincoming' : t.world.incoming = bs.map .ok ++ rest :=
    (congrArg World.incoming ht.rest :).trans hincoming
  rw [← ht.shareKey, ← ht.same.devCurAuthType] at hanswer
  refine (waitAuthenticationII_learned hc hanswer ho.publicKey (ho.secret key hkey)
    (ht.same.devCurAuthType.trans hs.authType) ht.varHead ht.flag ht.calm hincoming').bind
      fun _ u hu => ?_
  refine (clearLbsAffairBuf_steady hu.calm).mono fun _ v hv => ?_
  have hall := hu.steady hv
  have hkept {β : Type} (f : Affair → β) (hf : ∀ a, f a.keys = f a) :
      f v.affair = f { t.affair.keys with masterKey := masterKeyOf c (o.secret key) } := by
    rw [← hf v.affair, hall.keys]
  exact ⟨ht.same.trans (.of_fixed hall.kernel), hall.saved.trans ht.saved,
    (hkept Affair.devSubserial fun _ => rfl).trans ht.devSubserial,
    hkept Affair.masterKey fun _ => rfl, (congrArg World.incoming hall.rest :), hall.calm⟩

/-- The keys that an offer makes, with the public key of the device. -/
def Offer.keys (c : Crypto) (o : Offer) (key : Bytes) : Keys :=
  ⟨o.devId, masterKeyOf c (o.secret key), o.sessionKey⟩

def ExchangeAnswers (c : Crypto) (kernel : SdkKernel) (nUpper : Bool) (cmd : UInt8) (o : Offer)
    (k : Keys) (bs : Bytes) : Prop :=
  ∃ x y z, bs = x ++ (y ++ z) ∧
    KeyAnswer c (c.shareKey kernel.devInfo nUpper) kernel.devCurAuthType o.publicKey x ∧
    IdAnswer c cmd kernel.devInfo.devSubserial.val k y ∧ DasAnswer c k.sessionKey o.text z

structure Started (s s' : Session) : Prop where
  same : SameDevice s.kernel s'.kernel
  saved : s'.saved = s.saved
  rest : s'.world.rest = s.world.rest
  can : CanExchange s'

theorem openEcdh_started (hs : CanExchange s) : Yields openEcdh s fun _ => Started s := by
  refine (malloc_steady _ hs.calm).bind fun _ t ht => .write ?_
  have hsame := SameDevice.of_fixed ht.quiet.kernel
  have hauth : t.kernel.devCurAuthType = authProtocolEcdh :=
    hsame.devCurAuthType.trans hs.authType
  have hcount : t.kernel.devAuthTypeCount.toNat ≤ 14 := by
    rw [hsame.devAuthTypeCount]
    exact hs.count
  have hconnects : t.world.connects ≠ [] := by
    rw [ht.connects]
    exact hs.connects
  exact ⟨⟨hsame.devInfo, hsame.devCurAuthType, hsame.devAuthTypeCount⟩, ht.quiet.saved, ht.rest,
    ⟨hauth, hcount, hconnects, ht.calm⟩⟩

theorem negotiate_granted (hc : c.Sound cbc) (ho : o.Fits c) {nUpper : Bool} {ask : Run Unit}
    {cmd : UInt8} {key : Bytes} (hkey : c.publicKey = .ok key)
    (hframed : Within Framed (negotiate c nUpper ask cmd))
    (hask : ∀ {t : Session}, t.affair.masterKey.length = 16 → t.world.Calm →
      Yields ask t fun _ => Steady t)
    (hanswer : ExchangeAnswers c s.kernel nUpper cmd o (o.keys c key) bs) (hs : CanExchange s)
    (hincoming : s.world.incoming = bs.map .ok ++ rest) :
    Yields (withEcdh (negotiate c nUpper ask cmd)) s fun _ =>
      Granted (o.keys c key) o.info rest s := by
  obtain ⟨x, y, z, rfl, hx, hy, hz⟩ := hanswer
  rw [List.map_append, List.map_append, List.append_assoc, List.append_assoc] at hincoming
  have hbody : Yields (do openEcdh; negotiate c nUpper ask cmd) s fun _ =>
      Granted (o.keys c key) o.info rest s := by
    refine (openEcdh_started hs).bind fun _ t ht => ?_
    have hsame := ht.same
    have hincoming' : t.world.incoming = _ := (congrArg World.incoming ht.rest :).trans hincoming
    rw [← hsame.devInfo, ← hsame.devCurAuthType] at hx
    rw [← hsame.devInfo] at hy
    refine Yields.mono ?_ fun _ _ h => Granted.before h hsame ht.saved
    refine (exchangeKeys_exchanged hc ho hkey hx ht.can hincoming').bind fun _ u hu => ?_
    have hlen := length_masterKeyOf hc (o.secret key)
    refine (hask (hu.masterKey ▸ hlen) hu.calm).bind fun _ v hv => ?_
    have hserial : v.affair.devSubserial = t.kernel.devInfo.devSubserial := by
      rw [hv.kept Affair.devSubserial fun _ => rfl, hu.devSubserial]
    have hmaster : v.affair.masterKey = (o.keys c key).masterKey := by
      rw [hv.kept Affair.masterKey fun _ => rfl, hu.masterKey]
      rfl
    refine (waitCreateDevId_learned hc (hserial ▸ hy) hmaster hlen ho.devId ho.sessionKey hv.calm
      (hv.incoming.trans hu.incoming)).bind fun _ w hw => ?_
    have hkept {β : Type} (f : Affair → β) (hf : ∀ a, f a.keys = f a) : f w.affair =
        f { v.affair.keys with devId := o.devId, sessionKey := o.sessionKey } := by
      rw [← hf w.affair, hw.keys]
      rfl
    refine (finishRedirect_granted hc ho hz (hkept Affair.devId fun _ => rfl)
      ((hkept Affair.masterKey fun _ => rfl).trans hmaster) (hkept Affair.sessionKey fun _ => rfl)
      ho.sessionKey hw.calm (congrArg World.incoming hw.rest :)).mono fun _ _ h => ?_
    have hsame' := (hu.same.trans (.of_fixed hv.quiet.kernel)).trans (.of_fixed hw.kernel)
    exact h.before hsame' (hw.saved.trans (hv.quiet.saved.trans hu.saved))
  obtain ⟨u, t, hrun, ht⟩ := hbody
  exact ⟨u, t, (withEcdh_eq hframed hs.authType).trans hrun, ht⟩

theorem lbsRedirect_granted (hc : c.Sound cbc) (ho : o.Fits c) {x y : Bytes}
    (hx : RandomAnswer c s.world.random o.random2 k x) (hy : DasAnswer c k.sessionKey o.text y)
    (hdevId : s.kernel.devId = k.devId) (hmaster : s.kernel.masterKey = k.masterKey)
    (hkey : k.masterKey.length = 16) (hsession : k.sessionKey.length = 16)
    (hconnects : s.world.connects ≠ []) (hs : s.world.Calm)
    (hincoming : s.world.incoming = (x ++ y).map .ok ++ rest) :
    Yields (lbsRedirect c) s fun _ => Granted k o.info rest s := by
  rw [List.map_append, List.append_assoc] at hincoming
  refine (initLbsAffair_opened c true hs).bind fun _ t ht => ?_
  have hconnects' : t.world.connects = s.world.connects := (congrArg World.connects ht.rest :)
  refine (lbsConnect_connected ht.calm (hconnects' ▸ hconnects)).bind fun _ u hu => ?_
  have hmaster' : u.affair.masterKey = k.masterKey :=
    ((congrArg Affair.masterKey hu.quiet.keys :).trans ht.masterKey).trans hmaster
  refine (sendRefreshsessionkeyI_steady hc (hmaster' ▸ hkey) hu.calm).bind fun _ v hv => ?_
  have hrandom : v.affair.random1 = s.world.random := by
    rw [hv.kept Affair.random1 fun _ => rfl]
    exact (congrArg Affair.random1 hu.quiet.keys :).trans ht.random1
  have hmaster'' : v.affair.masterKey = k.masterKey := by
    rw [hv.kept Affair.masterKey fun _ => rfl, hmaster']
  have hincoming' : v.world.incoming = x.map .ok ++ (y.map .ok ++ rest) := by
    have ht' : t.world.incoming = s.world.incoming := (congrArg World.incoming ht.rest :)
    have hu' : u.world.incoming = t.world.incoming := (congrArg World.incoming hu.rest :)
    rw [hv.incoming, hu', ht', hincoming]
  refine (waitRefreshsessionkeyII_learned hc (hrandom ▸ hx) hmaster'' hkey hsession hv.calm
    hincoming').bind fun _ w hw => ?_
  refine (clearLbsAffairBuf_steady hw.calm).bind fun _ w' hw' => ?_
  have hcleared := hw.steady hw'
  have hkept {β : Type} (f : Affair → β) (hf : ∀ a, f a.keys = f a) : f w'.affair =
      f { v.affair.keys with random2 := o.random2, sessionKey := k.sessionKey } := by
    rw [← hf w'.affair, hcleared.keys]
  have hmaster₃ : w'.affair.masterKey = k.masterKey :=
    (hkept Affair.masterKey fun _ => rfl).trans hmaster''
  refine (sendRefreshsessionkeyIII_steady hc (hmaster₃ ▸ hkey) hcleared.calm).bind fun _ z hz => ?_
  have hdevId' : w'.affair.devId = k.devId := by
    rw [hkept Affair.devId fun _ => rfl]
    calc v.affair.devId
      _ = u.affair.devId := hv.kept Affair.devId fun _ => rfl
      _ = t.affair.devId := (congrArg Affair.devId hu.quiet.keys :)
      _ = s.kernel.devId := ht.devId
      _ = k.devId := hdevId
  have hdevId'' : z.affair.devId = k.devId := (hz.kept Affair.devId fun _ => rfl).trans hdevId'
  have hmaster₄ : z.affair.masterKey = k.masterKey :=
    (hz.kept Affair.masterKey fun _ => rfl).trans hmaster₃
  have hsession' : z.affair.sessionKey = k.sessionKey :=
    (hz.kept Affair.sessionKey fun _ => rfl).trans (hkept Affair.sessionKey fun _ => rfl)
  have hincoming'' : z.world.incoming = y.map .ok ++ rest :=
    hz.incoming.trans (congrArg World.incoming hcleared.rest :)
  have hkernel : fixed z.kernel = fixed s.kernel :=
    hz.quiet.kernel.trans (hcleared.kernel.trans (hv.quiet.kernel.trans
      (hu.quiet.kernel.trans ht.scratch.kernel)))
  have hsaved : z.saved = s.saved :=
    hz.quiet.saved.trans (hcleared.saved.trans (hv.quiet.saved.trans
      (hu.quiet.saved.trans ht.scratch.saved)))
  exact (finishRedirect_granted hc ho hy hdevId'' hmaster₄ hsession' hsession hz.calm
    hincoming'').mono fun _ _ h => h.before (.of_fixed hkernel) hsaved

end Handshakes

/-! ## Rejections -/

section Rejections

variable {c : Crypto} {cbc : Bytes → Cipher} {s : Session} {code : UInt8} {fields bs : Bytes}
  {rest : List (Except NetError UInt8)}

/-- What a rejected first request leaves. -/
structure Rejected (rest : List (Except NetError UInt8)) (s s' : Session) : Prop where
  same : SameDevice s.kernel s'.kernel
  calm : s'.world.Calm
  incoming : s'.world.incoming = rest
  connects : s'.world.connects = s.world.connects.tail

theorem exchangeKeys_rejected (hc : c.Sound cbc) {nUpper : Bool}
    (hsaid : Says authenticationII [s.kernel.devCurAuthType] code fields bs)
    (hsmall : 4 + fields.length ≤ messageSizeMax) (hcode : code ≠ 0)
    (hrematch : Code.platform code ≠ Code.authTypeNeedRematch) (hs : CanExchange s)
    (hincoming : s.world.incoming = bs.map .ok ++ rest) :
    Halts (exchangeKeys c nUpper) s (.code (Code.platform code)) (Rejected rest s) := by
  rw [exchangeKeys_eq]
  refine (request_requested hc nUpper hs).bind_halts fun _ t ht => ?_
  have hincoming' : t.world.incoming = bs.map .ok ++ rest :=
    (congrArg World.incoming ht.rest :).trans hincoming
  have hwait : Halts (waitAuthenticationII c) t (.code (Code.platform code)) (Rejected rest s) := by
    refine (waitReply_heard hsaid hsmall hincoming').bind_halts fun remainLen u hu => ?_
    obtain ⟨hin, hinVar⟩ := hu.head _ rfl
    have hout : varHeadFlag (u.affair.outHead.headD 0) = 1 := by
      have heq : u.affair.outHead = t.affair.outHead :=
        (congrArg Affair.outHead hu.listens.affair :)
      rw [heq, ht.flag]
    have hsame : ¬ u.affair.inVarHead ≠ u.affair.outVarHead.headD 0 := by
      have heq : u.affair.outVarHead = t.affair.outVarHead :=
        (congrArg Affair.outVarHead hu.listens.affair :)
      rw [hinVar, heq, ht.varHead, ht.same.devCurAuthType]
      exact not_not_intro rfl
    have hparse : parseAuthenticationII c remainLen u =
        (.error (.code (Code.platform code)), u) := by
      rw [parseAuthenticationII, read_bind, hu.result, hin, hout]
      simp only [check, if_neg hsame, if_pos hcode, ne_eq, not_true_eq_false, if_false, pure_bind]
      rfl
    refine ⟨u, by simp only [rematch, hparse, if_neg hrematch], ?_, hu.calm ht.calm, ?_, ?_⟩
    · rw [hu.listens.kernel]
      exact ht.same
    · rw [hu.world]
    · rw [hu.world]
      exact (congrArg World.connects ht.rest :)
  exact hwait.bind _

theorem withEcdh_rejected (hc : c.Sound cbc) {nUpper : Bool} {ask : Run Unit} {cmd : UInt8}
    (hframed : Within Framed (negotiate c nUpper ask cmd))
    (hsaid : Says authenticationII [s.kernel.devCurAuthType] code fields bs)
    (hsmall : 4 + fields.length ≤ messageSizeMax) (hcode : code ≠ 0)
    (hrematch : Code.platform code ≠ Code.authTypeNeedRematch) (hs : CanExchange s)
    (hincoming : s.world.incoming = bs.map .ok ++ rest) :
    Halts (withEcdh (negotiate c nUpper ask cmd)) s (.code (Code.platform code))
      (Rejected rest s) := by
  have hbody : Halts (do openEcdh; negotiate c nUpper ask cmd) s
      (.code (Code.platform code)) (Rejected rest s) := by
    refine (openEcdh_started hs).bind_halts fun _ t ht => ?_
    have hincoming' : t.world.incoming = bs.map .ok ++ rest :=
      (congrArg World.incoming ht.rest :).trans hincoming
    have hconnects : t.world.connects = s.world.connects := (congrArg World.connects ht.rest :)
    rw [← ht.same.devCurAuthType] at hsaid
    obtain ⟨u, hrun, hu⟩ := (exchangeKeys_rejected hc hsaid hsmall hcode hrematch ht.can
      hincoming').bind fun _ => do
        ask
        waitReply cmd >>= parseAuthenticationCreateDevId c
        finishRedirect c
    exact ⟨u, hrun, ht.same.trans hu.same, hu.calm, hu.incoming, hconnects ▸ hu.connects⟩
  obtain ⟨t, hrun, ht⟩ := hbody
  exact ⟨t, (withEcdh_eq hframed hs.authType).trans hrun, ht⟩

theorem lbsRedirect_rejected (hc : c.Sound cbc) (hsaid : Says responseDevid [] code fields bs)
    (hsmall : 4 + fields.length ≤ messageSizeMax) (hcode : code ≠ 0)
    (hkey : s.kernel.masterKey.length = 16) (hconnects : s.world.connects ≠ [])
    (hs : s.world.Calm) (hincoming : s.world.incoming = bs.map .ok ++ rest) :
    Halts (lbsRedirect c) s (.code (Code.platform code)) fun t => SameDevice s.kernel t.kernel := by
  refine (initLbsAffair_opened c true hs).bind_halts fun _ t ht => ?_
  have hconnects' : t.world.connects = s.world.connects := (congrArg World.connects ht.rest :)
  refine (lbsConnect_connected ht.calm (hconnects' ▸ hconnects)).bind_halts fun _ u hu => ?_
  have hmaster : u.affair.masterKey.length = 16 := by
    rw [← hkey, ← ht.masterKey]
    exact congrArg (fun a => a.masterKey.length) hu.quiet.keys
  refine (sendRefreshsessionkeyI_steady hc hmaster hu.calm).bind_halts fun _ v hv => ?_
  have hincoming' : v.world.incoming = bs.map .ok ++ rest := by
    have ht' : t.world.incoming = s.world.incoming := (congrArg World.incoming ht.rest :)
    have hu' : u.world.incoming = t.world.incoming := (congrArg World.incoming hu.rest :)
    rw [hv.incoming, hu', ht', hincoming]
  have hwait : Halts (waitRefreshsessionkeyII c) v (.code (Code.platform code)) fun w =>
      w.kernel = v.kernel := by
    refine (waitReply_heard hsaid hsmall hincoming').bind_halts fun remainLen w hw => ?_
    refine ⟨w, ?_, hw.listens.kernel⟩
    have hresult := hw.result
    rw [parseRefreshsessionkeyII, read_bind, hresult]
    simp only [check, if_pos hcode]
    rfl
  have hsame : SameDevice s.kernel v.kernel :=
    .of_fixed (hv.quiet.kernel.trans (hu.quiet.kernel.trans ht.scratch.kernel))
  obtain ⟨w, hrun, hw⟩ := hwait.bind fun _ => do
    clearLbsAffairBuf
    sendRefreshsessionkeyIII c
    finishRedirect c
  refine ⟨w, hrun, ?_⟩
  show SameDevice s.kernel w.kernel
  rw [(hw : w.kernel = v.kernel)]
  exact hsame

end Rejections

/-! ## One call of the access layer -/

/-- The device has a number and a master key, so it does not ask for new ones. -/
def Equipped (kernel : SdkKernel) : Prop :=
  unset kernel.devId = false ∧ unset kernel.masterKey = false

/-- The command that the device waits for behind an exchange of keys. -/
def replyCmd (kernel : SdkKernel) : UInt8 :=
  if unset kernel.devId then responseDevid else refreshsessionkeyRsp

section Access

variable {c : Crypto} {cbc : Bytes → Cipher} {s : Session} {o : Offer} {k : Keys}
  {rest : List (Except NetError UInt8)} {bs : Bytes}

theorem redirectOnce_yields {nUpper : Bool} {Q : Unit → Session → Prop}
    (h : Yields (variant c nUpper s.kernel) s Q) : Yields (redirectOnce c nUpper) s Q := by
  obtain ⟨u, t, hrun, hq⟩ := h
  exact ⟨u, t, by rw [redirectOnce_eq, hrun], hq⟩

theorem redirectOnce_halts {nUpper : Bool} {e : Nat} {Q : Session → Prop}
    (h : Halts (variant c nUpper s.kernel) s (.code e) Q) :
    Halts (redirectOnce c nUpper) s (.code e) fun t => ∃ u, Unchanged s u ∧ Q u ∧
      t = clearRejected e u := by
  obtain ⟨u, hrun, hq⟩ := h
  exact ⟨_, by rw [redirectOnce_eq, hrun], u, (variant_error hrun).2, hq, rfl⟩

theorem cntStateLbsRedirect_yields {Q : Unit → Session → Prop}
    (h : Yields (redirectOnce c true) s Q) : Yields (cntStateLbsRedirect c) s Q := by
  obtain ⟨u, t, hrun, hq⟩ := h
  exact ⟨u, t, by simp only [cntStateLbsRedirect, hrun], hq⟩

theorem cntStateLbsRedirect_again {P : Session → Prop} {Q : Unit → Session → Prop}
    (h : Halts (redirectOnce c true) s (.code Code.lbsSigncheckError) P)
    (hagain : ∀ t, P t → Yields (redirectOnce c false) t Q) :
    Yields (cntStateLbsRedirect c) s Q := by
  obtain ⟨t, hrun, hp⟩ := h
  obtain ⟨u, t', hrun', hq⟩ := hagain t hp
  exact ⟨u, t', by simp only [cntStateLbsRedirect, hrun, if_true, hrun'], hq⟩

theorem cntStateLbsRedirect_halts {e : Nat} {Q : Session → Prop}
    (he : e ≠ Code.lbsSigncheckError) (h : Halts (redirectOnce c true) s (.code e) Q) :
    Halts (cntStateLbsRedirect c) s (.code e) Q := by
  obtain ⟨t, hrun, hq⟩ := h
  exact ⟨t, by simp only [cntStateLbsRedirect, hrun, he, if_false], hq⟩

theorem variant_exchange (c : Crypto) (cbc : Bytes → Cipher) (nUpper : Bool) (hnot : ¬ Equipped s.kernel) :
    ∃ ask, variant c nUpper s.kernel = withEcdh (negotiate c nUpper ask (replyCmd s.kernel)) ∧
      Within Framed (negotiate c nUpper ask (replyCmd s.kernel)) ∧
      (c.Sound cbc → ∀ t : Session, t.affair.masterKey.length = 16 → t.world.Calm →
        Yields ask t fun _ => Steady t) := by
  unfold variant replyCmd
  by_cases hdevId : unset s.kernel.devId = true
  · rw [if_pos hdevId, if_pos hdevId]
    exact ⟨sendAuthenticationCreatDevId c, rfl,
      negotiate_framed (sendAuthenticationCreatDevId_quiet c),
      fun hc t => sendAuthenticationCreatDevId_steady hc⟩
  · have hmaster : unset s.kernel.masterKey = true := by
      cases hm : unset s.kernel.masterKey with
      | true => rfl
      | false => exact absurd ⟨Bool.eq_false_iff.mpr hdevId, hm⟩ hnot
    rw [if_neg hdevId, if_neg hdevId, if_pos hmaster]
    exact ⟨sendUpdateSessionkeyReq c, rfl, negotiate_framed (sendUpdateSessionkeyReq_quiet c),
      fun hc t => sendUpdateSessionkeyReq_steady hc⟩

theorem variant_granted (hc : c.Sound cbc) (ho : o.Fits c) {nUpper : Bool} {key : Bytes}
    (hkey : c.publicKey = .ok key) (hnot : ¬ Equipped s.kernel)
    (hanswer : ExchangeAnswers c s.kernel nUpper (replyCmd s.kernel) o (o.keys c key) bs)
    (hs : CanExchange s) (hincoming : s.world.incoming = bs.map .ok ++ rest) :
    Yields (variant c nUpper s.kernel) s fun _ => Granted (o.keys c key) o.info rest s := by
  obtain ⟨ask, heq, hframed, hask⟩ := variant_exchange c cbc nUpper hnot
  rw [heq]
  exact negotiate_granted hc ho hkey hframed (fun hm ht => hask hc _ hm ht) hanswer hs hincoming

/-- The platform can answer every device. -/
theorem exists_exchangeAnswers (hc : c.Sound cbc) (ho : o.Fits c) (kernel : SdkKernel)
    (nUpper : Bool) (key : Bytes) :
    ∃ bs, ExchangeAnswers c kernel nUpper (replyCmd kernel) o (o.keys c key) bs := by
  have hshare : ((c.shareKey kernel.devInfo nUpper).take 16).length = 16 := by
    rw [List.length_take]
    exact Nat.min_eq_left (hc.shareKey _ _)
  have hlen := length_masterKeyOf hc (o.secret key)
  have hne {bs : Bytes} {n : Nat} (h : bs.length = n + 1) : bs ≠ [] :=
    List.ne_nil_of_length_eq_add_one h
  obtain ⟨⟨ct, tag⟩, hkey⟩ := hc.gcmEnc _ o.publicKey hshare (hne ho.publicKey)
  obtain ⟨⟨ct₁, tag₁⟩, hdevId⟩ := hc.gcmEnc _ o.devId hlen (hne ho.devId)
  obtain ⟨⟨ct₂, tag₂⟩, hsession⟩ := hc.gcmEnc _ o.sessionKey hlen (hne ho.sessionKey)
  obtain ⟨sign, hsign, -⟩ := hc.hmac (masterKeyOf c (o.secret key))
    (c.sha384 kernel.devInfo.devSubserial.val) hlen
  have htext : o.text ≠ [] := by
    intro hempty
    have hparse : jsonParseDasServerInfo [] = .error (.code Code.jsonParseError) := rfl
    have hok := ho.text
    rw [hempty, hparse] at hok
    cases hok
  have hreply : ∃ byte1, revCmdOf byte1 = replyCmd kernel ∧ 0 = varHeadCount byte1 := by
    unfold replyCmd
    split
    · exact ⟨0x80, by decide, by decide⟩
    · exact ⟨0x60, by decide, by decide⟩
  obtain ⟨byte1, hcmd, hcount⟩ := hreply
  exact ⟨_, _, _, _, rfl,
    ⟨ct, tag, hkey, 0x28, [1, 2, 0], by decide, rfl, rfl, rfl⟩,
    ⟨ct₁, tag₁, ct₂, tag₂, sign, hdevId, hsession, hsign, byte1, [1, 2, 0], hcmd, hcount, rfl, rfl⟩,
    ⟨_, hc.cbcEnc _ _ ho.sessionKey htext, 0xB0, [1, 1, 0], by decide, by decide, rfl, rfl⟩⟩

end Access

/-! ## Runs -/

/-- A meeting: the functions and the world of the device, with its public key, and the offer
of the platform and its spelling of the share key. -/
structure Meeting where
  crypto : Crypto
  world : World
  key : Bytes
  nUpper : Bool
  offer : Offer

structure Agreed (kernel : SdkKernel) (k : Keys) : Prop where
  devId : kernel.devId = k.devId
  masterKey : kernel.masterKey = k.masterKey

/-- What the platform answers to a device with this kernel, and the keys it holds then. -/
inductive Answers (m : Meeting) (kernel : SdkKernel) (k : Keys) : Keys → Bytes → Prop
  /-- Keys are exchanged. -/
  | exchange {bs : Bytes} (hnot : ¬ Equipped kernel) (hspelling : m.nUpper = true)
      (hanswer : ExchangeAnswers m.crypto kernel true (replyCmd kernel) m.offer
        (m.offer.keys m.crypto m.key) bs) :
      Answers m kernel k (m.offer.keys m.crypto m.key) bs
  /-- The first request is under the wrong share key. -/
  | respelled {fields r bs : Bytes} (hnot : ¬ Equipped kernel) (hspelling : m.nUpper = false)
      (hsaid : Says authenticationII [kernel.devCurAuthType] 1 fields r)
      (hsmall : 4 + fields.length ≤ messageSizeMax)
      (hanswer : ExchangeAnswers m.crypto kernel false (replyCmd kernel) m.offer
        (m.offer.keys m.crypto m.key) bs) :
      Answers m kernel k (m.offer.keys m.crypto m.key) (r ++ bs)
  /-- The keys are known. -/
  | refresh {x y : Bytes} (hequipped : Equipped kernel) (hagreed : Agreed kernel k)
      (hx : RandomAnswer m.crypto m.world.random m.offer.random2
        { k with sessionKey := m.offer.sessionKey } x)
      (hy : DasAnswer m.crypto m.offer.sessionKey m.offer.text y) :
      Answers m kernel k { k with sessionKey := m.offer.sessionKey } (x ++ y)
  /-- The keys are not those of the platform. -/
  | reject {code : UInt8} {fields bs : Bytes} (hequipped : Equipped kernel)
      (hother : ¬ Agreed kernel k) (hcode : code = 4 ∨ code = 10)
      (hsaid : Says responseDevid [] code fields bs)
      (hsmall : 4 + fields.length ≤ messageSizeMax) : Answers m kernel k k bs

/-- The meeting takes place between these states of the device and of the platform. -/
structure Meets (m : Meeting) (p : Session × Keys) (r : Except Stop Unit) (p' : Session × Keys) :
    Prop where
  sound : ∃ cbc, m.crypto.Sound cbc
  key : m.crypto.publicKey = .ok m.key
  fits : m.offer.Fits m.crypto
  calm : m.world.Calm
  connects : 2 ≤ m.world.connects.length
  answered : ∃ bs rest, Answers m p.1.kernel p.2 p'.2 bs ∧
    m.world.incoming = bs.map .ok ++ rest
  run : cntStateLbsRedirect m.crypto { p.1 with world := m.world } = (r, p'.1)

/-- A device as it leaves the factory, or later. -/
structure Device (kernel : SdkKernel) : Prop where
  authType : kernel.devCurAuthType = authProtocolEcdh
  count : kernel.devAuthTypeCount.toNat ≤ 14
  masterKey : kernel.masterKey.length = 16

structure Held (kernel : SdkKernel) (k : Keys) : Prop extends Agreed kernel k where
  sessionKey : kernel.sessionKey = k.sessionKey

section Runs

variable {m : Meeting} {p p' : Session × Keys} {r : Except Stop Unit}

theorem Granted.device {k : Keys} {info : DasInfo} {rest : List (Except NetError UInt8)}
    {s s' : Session} (h : Granted k info rest s s') (hs : Device s.kernel)
    (hkey : k.masterKey.length = 16) : Device s'.kernel :=
  ⟨h.same.devCurAuthType.trans hs.authType, h.same.devAuthTypeCount ▸ hs.count,
    h.masterKey ▸ hkey⟩

theorem Granted.held {k : Keys} {info : DasInfo} {rest : List (Except NetError UInt8)}
    {s s' : Session} (h : Granted k info rest s s') : Held s'.kernel k :=
  ⟨⟨h.devId, h.masterKey⟩, h.sessionKey⟩

/-- The second pass finds the device as the first one did. -/
theorem respelled_granted {c : Crypto} {cbc : Bytes → Cipher} {s : Session} {o : Offer}
    {key fields x y : Bytes} {rest : List (Except NetError UInt8)} (hc : c.Sound cbc)
    (ho : o.Fits c) (hkey : c.publicKey = .ok key) (hnot : ¬ Equipped s.kernel)
    (hsaid : Says authenticationII [s.kernel.devCurAuthType] 1 fields x)
    (hsmall : 4 + fields.length ≤ messageSizeMax)
    (hanswer : ExchangeAnswers c s.kernel false (replyCmd s.kernel) o (o.keys c key) y)
    (hs : CanExchange s) (hconnects : 2 ≤ s.world.connects.length)
    (hincoming : s.world.incoming = (x ++ y).map .ok ++ rest) :
    Yields (cntStateLbsRedirect c) s fun _ => Granted (o.keys c key) o.info rest s := by
  rw [List.map_append, List.append_assoc] at hincoming
  have hfirst : Halts (variant c true s.kernel) s (.code Code.lbsSigncheckError)
      (Rejected (y.map .ok ++ rest) s) := by
    obtain ⟨ask, heq, hframed, -⟩ := variant_exchange c cbc true hnot
    rw [heq]
    exact withEcdh_rejected hc hframed hsaid hsmall (by decide) (by decide) hs hincoming
  refine cntStateLbsRedirect_again (redirectOnce_halts hfirst) fun t ht => ?_
  obtain ⟨u, hunchanged, hrejected, ht⟩ := ht
  -- the rejection clears nothing
  rw [(ht : t = u)]
  have hsame := hrejected.same
  have hdevId := hunchanged.devId
  have hmaster := hunchanged.masterKey
  have hnot' : ¬ Equipped u.kernel := by
    rw [Equipped, hdevId, hmaster]
    exact hnot
  have hmore : u.world.connects ≠ [] := by
    rw [hrejected.connects]
    intro hnil
    have hlen := congrArg List.length hnil
    rw [List.length_tail, List.length_nil] at hlen
    omega
  have hcan : CanExchange u :=
    ⟨hsame.devCurAuthType.trans hs.authType, hsame.devAuthTypeCount ▸ hs.count, hmore,
      hrejected.calm⟩
  rw [ExchangeAnswers, ← hsame.devInfo, ← hsame.devCurAuthType, replyCmd, ← hdevId] at hanswer
  exact (redirectOnce_yields (variant_granted hc ho hkey hnot' hanswer hcan
    hrejected.incoming)).mono fun _ _ h => h.before hsame hunchanged.saved

theorem answered_cases {c : Crypto} {cbc : Bytes → Cipher} {s s' : Session} {k k' : Keys}
    {bs : Bytes} {rest : List (Except NetError UInt8)} (hm : m.crypto = c) (hc : c.Sound cbc)
    (ho : m.offer.Fits c) (hkey : c.publicKey = .ok m.key) (hdevice : Device s.kernel)
    (hworld : m.world = s.world) (hcalm : s.world.Calm) (htwo : 2 ≤ s.world.connects.length)
    (hanswers : Answers m s.kernel k k' bs) (hincoming : s.world.incoming = bs.map .ok ++ rest)
    (hrun : cntStateLbsRedirect c s = (r, s')) :
    Device s'.kernel ∧
      (r = .ok () ∧ Held s'.kernel k' ∧ s'.kernel.redirectDasInfo = m.offer.info ∨
        Equipped s.kernel ∧ ¬ Agreed s.kernel k ∧ ¬ Equipped s'.kernel) := by
  subst hm
  have hmore : s.world.connects ≠ [] := by
    intro hnil
    rw [hnil] at htwo
    cases htwo
  have hcan : CanExchange s := ⟨hdevice.authType, hdevice.count, hmore, hcalm⟩
  have hvariant (hequipped : Equipped s.kernel) :
      variant m.crypto true s.kernel = lbsRedirect m.crypto := by
    rw [variant, hequipped.1, hequipped.2]
    rfl
  cases hanswers with
  | exchange hnot hspelling hanswer =>
      have hyields := cntStateLbsRedirect_yields (redirectOnce_yields
        (variant_granted hc ho hkey hnot hanswer hcan hincoming))
      obtain ⟨_, rfl, hgranted⟩ := hyields.apply hrun
      exact ⟨hgranted.device hdevice (length_masterKeyOf hc _),
        .inl ⟨rfl, hgranted.held, hgranted.das⟩⟩
  | respelled hnot hspelling hsaid hsmall hanswer =>
      have hyields := respelled_granted hc ho hkey hnot hsaid hsmall hanswer hcan htwo hincoming
      obtain ⟨_, rfl, hgranted⟩ := hyields.apply hrun
      exact ⟨hgranted.device hdevice (length_masterKeyOf hc _),
        .inl ⟨rfl, hgranted.held, hgranted.das⟩⟩
  | refresh hequipped hagreed hx hy =>
      have hlen : k.masterKey.length = 16 := hagreed.masterKey ▸ hdevice.masterKey
      rw [hworld] at hx
      have hgrant := lbsRedirect_granted hc ho hx hy hagreed.devId hagreed.masterKey hlen
        ho.sessionKey hmore hcalm hincoming
      rw [← hvariant hequipped] at hgrant
      obtain ⟨_, rfl, hgranted⟩ :=
        (cntStateLbsRedirect_yields (redirectOnce_yields hgrant)).apply hrun
      exact ⟨hgranted.device hdevice hlen, .inl ⟨rfl, hgranted.held, hgranted.das⟩⟩
  | @reject code fields _ hequipped hother hcode hsaid hsmall =>
      have hne : code ≠ 0 ∧ Code.platform code ≠ Code.lbsSigncheckError := by
        rcases hcode with rfl | rfl <;> decide
      have hreject := lbsRedirect_rejected hc hsaid hsmall hne.1 hdevice.masterKey hmore hcalm
        hincoming
      rw [← hvariant hequipped] at hreject
      obtain ⟨u, hunchanged, hsame, rfl⟩ :=
        (cntStateLbsRedirect_halts hne.2 (redirectOnce_halts hreject)).apply hrun
      have hlen : u.kernel.masterKey.length = 16 := by
        rw [hunchanged.masterKey]
        exact hdevice.masterKey
      have hauth := hsame.devCurAuthType.trans hdevice.authType
      have hcount : u.kernel.devAuthTypeCount.toNat ≤ 14 := by
        rw [hsame.devAuthTypeCount]
        exact hdevice.count
      rcases hcode with rfl | rfl
      · exact ⟨⟨hauth, hcount, hlen⟩,
          .inr ⟨hequipped, hother, fun h => Bool.false_ne_true h.1.symm⟩⟩
      · exact ⟨⟨hauth, hcount, rfl⟩,
          .inr ⟨hequipped, hother, fun h => Bool.false_ne_true h.2.symm⟩⟩

theorem Meets.cases (h : Meets m p r p') (hdevice : Device p.1.kernel) :
    Device p'.1.kernel ∧
      (r = .ok () ∧ Held p'.1.kernel p'.2 ∧ p'.1.kernel.redirectDasInfo = m.offer.info ∨
        Equipped p.1.kernel ∧ ¬ Agreed p.1.kernel p.2 ∧ ¬ Equipped p'.1.kernel) := by
  obtain ⟨⟨cbc, hc⟩, hkey, ho, hcalm, htwo, ⟨bs, rest, hanswers, hincoming⟩, hrun⟩ := h
  generalize hstart : ({ p.1 with world := m.world } : Session) = s at hrun
  have hkernel : s.kernel = p.1.kernel := by rw [← hstart]
  have hworld : m.world = s.world := by rw [← hstart]
  rw [hworld] at hcalm htwo hincoming
  rw [← hkernel] at hanswers hdevice ⊢
  exact answered_cases rfl hc ho hkey hdevice hworld hcalm htwo hanswers hincoming hrun

/-- Meetings one after the other, with their results. -/
inductive Meetings : Session × Keys → List (Except Stop Unit) → Session × Keys → Prop
  | nil (p : Session × Keys) : Meetings p [] p
  | cons {m : Meeting} {p q p' : Session × Keys} {r : Except Stop Unit}
      {rs : List (Except Stop Unit)} : Meets m p r q → Meetings q rs p' → Meetings p (r :: rs) p'

/-- Once the ends agree, or the device has no keys, every meeting succeeds. -/
theorem Meetings.succeed {rs : List (Except Stop Unit)} (h : Meetings p rs p')
    (hdevice : Device p.1.kernel) (hready : Equipped p.1.kernel → Agreed p.1.kernel p.2) :
    (∀ r ∈ rs, r = .ok ()) ∧ (rs ≠ [] → Held p'.1.kernel p'.2) := by
  induction h with
  | nil p => exact ⟨nofun, fun h => absurd rfl h⟩
  | @cons m p q p' r rs hmeets hrest ih =>
      obtain ⟨hdevice', ⟨rfl, hheld, -⟩ | ⟨hequipped, hother, -⟩⟩ := hmeets.cases hdevice
      · obtain ⟨hall, hlast⟩ := ih hdevice' fun _ => hheld.toAgreed
        refine ⟨List.forall_mem_cons.mpr ⟨rfl, hall⟩, fun _ => ?_⟩
        cases rs with
        | nil =>
            cases hrest
            exact hheld
        | cons r' rs' => exact hlast (List.cons_ne_nil _ _)
      · exact absurd (hready hequipped) hother

/-- Whatever the device and the platform hold at first: of all meetings only the first one can
fail, and after two of them both ends hold the same keys. -/
theorem meetings_agree {rs : List (Except Stop Unit)} (h : Meetings p rs p')
    (hdevice : Device p.1.kernel) :
    (∀ r ∈ rs.tail, r = .ok ()) ∧ (2 ≤ rs.length → Held p'.1.kernel p'.2) := by
  cases h with
  | nil => exact ⟨nofun, fun h => absurd h (by decide)⟩
  | @cons m p q p' r rs hmeets hrest =>
      obtain ⟨hdevice', hcases⟩ := hmeets.cases hdevice
      have hready : Equipped q.1.kernel → Agreed q.1.kernel q.2 := by
        rcases hcases with ⟨-, hheld, -⟩ | ⟨-, -, hnot⟩
        · exact fun _ => hheld.toAgreed
        · exact fun h => absurd h hnot
      obtain ⟨hall, hlast⟩ := hrest.succeed hdevice' hready
      refine ⟨hall, fun htwo => hlast ?_⟩
      intro hnil
      rw [hnil, List.length_singleton] at htwo
      omega

end Runs

/-- Cryptography that hides nothing. -/
def openCrypto : Crypto where
  shareKey _ _ := List.replicate 32 0
  publicKey := .ok (List.replicate 97 4)
  calcSecret peerPubkey := .ok peerPubkey
  gcmEnc _ plain := .ok (plain, List.replicate 16 0)
  gcmDec _ out _ := .ok out
  cbcEnc _ plain := .ok (plain ++ padding plain)
  cbcDec _ out := (cbcDecPadding plainCipher out).map Prod.fst
  md5 _ := List.replicate 16 0
  sha384 text := text
  hmac384 _ _ := .ok (List.replicate 48 0)

theorem openCrypto_sound : openCrypto.Sound fun _ => plainCipher where
  publicKey := ⟨_, rfl, by decide⟩
  shareKey _ _ := (by decide : 16 ≤ (List.replicate 32 (0 : UInt8)).length)
  gcmEnc _ _ _ _ := ⟨_, rfl⟩
  gcmDec _ plain ct tag h := by
    cases h
    exact ⟨rfl, rfl, by decide⟩
  cbcEnc _ _ _ _ := rfl
  cbcDec _ _ := rfl
  md5 _ := (by decide : (List.replicate 16 (0 : UInt8)).length = 16)
  hmac _ _ _ := ⟨_, rfl, by decide⟩

def sampleOffer : Offer where
  publicKey := List.replicate 97 7
  secret _ := List.replicate 97 7
  devId := List.replicate 32 65
  sessionKey := List.replicate 16 66
  random2 := 3
  text := ascii ("\x7b\"Type\":\"DAS\",\"DasInfo\":\x7b\"Port\":1,\"UdpPort\":2,\"Address\":\"a\"," ++
    "\"Domain\":\"d\",\"ServerID\":\"s\"\x7d\x7d")
  info := ⟨1, 2, .strncpy (.lit "a"), .strncpy (.lit "d"), .strncpy (.lit "s")⟩

theorem sampleOffer_fits : sampleOffer.Fits openCrypto where
  publicKey := by decide
  secret _ _ := rfl
  devId := by decide
  sessionKey := by decide
  text := by decide +kernel
  size := by decide

/-- A world with an answer on the way and two connections. -/
def answering (bs : Bytes) : World :=
  { (quietSession (bs.map .ok)).world with
    connects := List.replicate 2 (.ok (.strncpy (.lit "10.0.0.1"))) }

theorem answering_calm (bs : Bytes) : (answering bs).Calm where
  writes := nofun
  allocs := nofun
  creates := nofun
  connects _ hr := ⟨_, List.eq_of_mem_replicate hr⟩

def sampleMeeting (bs : Bytes) : Meeting :=
  ⟨openCrypto, answering bs, List.replicate 97 4, true, sampleOffer⟩

/-- A device with keys of its own. -/
def equippedDevice : Session :=
  { quietSession [] with
    kernel := { factoryKernel with devId := List.replicate 32 1, masterKey := List.replicate 16 1 } }

/-- The platform refuses the master key, and gives a new one in the next meeting. -/
theorem meetings_agree_refused : ∃ r p', Meetings
    (equippedDevice, ⟨List.replicate 32 1, List.replicate 16 2, []⟩) [r, .ok ()] p' ∧
      Held p'.1.kernel p'.2 := by
  have hdevice : Device equippedDevice.kernel := ⟨by decide, by decide, by decide⟩
  have hcode : Says responseDevid [] 10 [] (message 0x80 [] ([1, 1, 0] ++ 10 :: [])) :=
    ⟨0x80, [1, 1, 0], by decide, by decide, rfl, rfl⟩
  have hfirst : Meets (sampleMeeting (message 0x80 [] ([1, 1, 0] ++ 10 :: [])))
      (equippedDevice, ⟨List.replicate 32 1, List.replicate 16 2, []⟩)
      (cntStateLbsRedirect openCrypto { equippedDevice with
        world := answering (message 0x80 [] ([1, 1, 0] ++ 10 :: [])) }).1
      ((cntStateLbsRedirect openCrypto { equippedDevice with
        world := answering (message 0x80 [] ([1, 1, 0] ++ 10 :: [])) }).2,
        ⟨List.replicate 32 1, List.replicate 16 2, []⟩) :=
    ⟨⟨_, openCrypto_sound⟩, rfl, sampleOffer_fits, answering_calm _, by decide,
      ⟨_, [], .reject ⟨by decide, by decide⟩ (fun h => absurd h.masterKey (by decide)) (.inr rfl)
        hcode (by decide), (List.append_nil _).symm⟩, rfl⟩
  have hkernel : (cntStateLbsRedirect openCrypto { equippedDevice with
      world := answering (message 0x80 [] ([1, 1, 0] ++ 10 :: [])) }).2.kernel =
        { equippedDevice.kernel with
          masterKey := List.replicate 16 0
          serverInfo := { equippedDevice.kernel.serverInfo with
            serverIp := .strncpy (.lit "10.0.0.1") } } := by decide +kernel
  generalize (cntStateLbsRedirect openCrypto { equippedDevice with
    world := answering (message 0x80 [] ([1, 1, 0] ++ 10 :: [])) }).1 = r at hfirst
  generalize (cntStateLbsRedirect openCrypto { equippedDevice with
    world := answering (message 0x80 [] ([1, 1, 0] ++ 10 :: [])) }).2 = t at hfirst hkernel
  obtain ⟨bs, hbs⟩ := exists_exchangeAnswers openCrypto_sound sampleOffer_fits t.kernel true
    (List.replicate 97 4)
  have hnot : ¬ Equipped t.kernel := by
    rw [hkernel]
    exact fun h => absurd h.2 (by decide)
  have hsecond : Meets (sampleMeeting bs) (t, ⟨List.replicate 32 1, List.replicate 16 2, []⟩)
      (cntStateLbsRedirect openCrypto { t with world := answering bs }).1
      ((cntStateLbsRedirect openCrypto { t with world := answering bs }).2,
        sampleOffer.keys openCrypto (List.replicate 97 4)) :=
    ⟨⟨_, openCrypto_sound⟩, rfl, sampleOffer_fits, answering_calm _, Nat.le_refl 2,
      ⟨bs, [], .exchange hnot rfl hbs, (List.append_nil _).symm⟩, rfl⟩
  have hrun := Meetings.cons hfirst (.cons hsecond (.nil _))
  obtain ⟨htail, hheld⟩ := meetings_agree hrun hdevice
  have hok := htail _ List.mem_cons_self
  rw [hok] at hrun
  exact ⟨r, _, hrun, hheld (Nat.le_refl 2)⟩

end EzIot.Lbs
