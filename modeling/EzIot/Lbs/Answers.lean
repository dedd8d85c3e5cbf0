import EzIot.Lbs.Platform

/-! # The answers of the platform

The answers of a handshake, in the keys that the platform holds, and what the device takes from
them. Keys that are the same at both ends are what makes an answer readable.
-/

namespace EzIot.Lbs

open CText CJson Kernel Program Base128 Das

/-! ## What the platform answers -/

/-- The keys of one device, as the platform holds them. -/
structure Keys where
  devId : Bytes
  masterKey : Bytes
  sessionKey : Bytes

section Answers

variable (c : Crypto)

/-- The public key of the platform under the share key. -/
def KeyAnswer (shareKey : Bytes) (authType : UInt8) (publicKey bs : Bytes) : Prop :=
  ∃ ct tag, c.gcmEnc (shareKey.take 16) publicKey = .ok (ct, tag) ∧
    Says authenticationII [authType] 0 (tag ++ ct) bs

/-- The device number and the session key under the master key, and the signature. -/
def IdAnswer (cmd : UInt8) (serial : Bytes) (k : Keys) (bs : Bytes) : Prop :=
  ∃ ct tag ct' tag' sign, c.gcmEnc k.masterKey k.devId = .ok (ct, tag) ∧
    c.gcmEnc k.masterKey k.sessionKey = .ok (ct', tag') ∧
    c.hmac384 k.masterKey (c.sha384 serial) = .ok sign ∧
    Says cmd [] 0 (tag ++ 32 :: (ct ++ (tag' ++ 16 :: (ct' ++ sign)))) bs

/-- Both random numbers and the session key under the master key. -/
def RandomAnswer (random1 random2 : UInt8) (k : Keys) (bs : Bytes) : Prop :=
  ∃ ct, c.cbcEnc k.masterKey (random1 :: random2 :: k.sessionKey) = .ok ct ∧
    Says responseDevid [] 0 ct bs

/-- The address of the DAS under the session key. -/
def DasAnswer (sessionKey text bs : Bytes) : Prop :=
  ∃ ct, c.cbcEnc sessionKey text = .ok ct ∧ Says cryptoDataRsp [] 0 ct bs

end Answers

/-! ## Reading an answer -/

theorem range_getD_append (pre mid post : Bytes) :
    (List.range mid.length).map (fun i => (pre ++ (mid ++ post)).getD (pre.length + i) 0) = mid := by
  apply List.ext_getElem
  · rw [List.length_map, List.length_range]
  · intro i h₁ h₂
    have hmid : i < (mid ++ post).length := by
      rw [List.length_append]
      omega
    rw [List.getElem_map, List.getElem_range, List.getD_append_right _ _ _ _ (by omega),
      Nat.add_sub_cancel_left, List.getD_eq_getElem _ _ hmid, List.getElem_append_left h₂]

theorem payloadBytes_eq {a : Affair} {pre mid post : Bytes}
    (h : a.inPayload = pre ++ (mid ++ post)) : a.payloadBytes pre.length mid.length = mid := by
  simp only [Affair.payloadBytes, Affair.payloadByte, h]
  exact range_getD_append pre mid post

section Heard

variable {head fields : Bytes} {code : UInt8} {rest : List (Except NetError UInt8)}
  {remainLen : UInt32} {s s' : Session}

theorem Heard.result (h : Heard head code fields rest remainLen s s') :
    s'.affair.payloadByte 3 = code := by
  obtain ⟨version, hversion, hpayload⟩ := h.payload
  rw [Affair.payloadByte, hpayload, List.getD_append_right _ _ _ _ (by omega), hversion]
  rfl

/-- A field, by the place where it begins. -/
theorem Heard.field (h : Heard head code fields rest remainLen s s') {pre mid post : Bytes}
    {start len : Nat} (hfields : fields = pre ++ (mid ++ post)) (hstart : start = 4 + pre.length)
    (hlen : len = mid.length) : s'.affair.payloadBytes start len = mid := by
  obtain ⟨version, hversion, hpayload⟩ := h.payload
  have hsplit : s'.affair.inPayload = (version ++ code :: pre) ++ (mid ++ post) := by
    rw [hpayload, hfields, List.append_assoc, List.cons_append]
  have hpre : (version ++ code :: pre).length = start := by
    rw [List.length_append, List.length_cons, hversion]
    omega
  rw [hlen, ← hpre]
  exact payloadBytes_eq hsplit

theorem Heard.byte (h : Heard head code fields rest remainLen s s') {pre post : Bytes} {b : UInt8}
    {i : Nat} (hfields : fields = pre ++ b :: post) (hi : i = 4 + pre.length) :
    s'.affair.payloadByte i = b := by
  have hfield : s'.affair.payloadBytes i 1 = [b] := h.field hfields hi rfl
  simpa [Affair.payloadBytes] using hfield

end Heard

/-- An answer was taken in, and the affair knows more than before. -/
structure Learned (f : Affair → Affair) (rest : List (Except NetError UInt8)) (s s' : Session) :
    Prop where
  kernel : fixed s'.kernel = fixed s.kernel
  saved : s'.saved = s.saved
  keys : s'.affair.keys = f s.affair.keys
  rest : s'.world.rest = { s.world.rest with incoming := rest }
  calm : s'.world.Calm

theorem World.Calm.arriving {w : World} (h : w.Calm) (incoming : List (Except NetError UInt8)) :
    World.Calm { w with incoming := incoming } := ⟨h.writes, h.allocs, h.creates, h.connects⟩

theorem Heard.calm {head fields : Bytes} {code : UInt8} {rest : List (Except NetError UInt8)}
    {remainLen : UInt32} {s s' : Session} (h : Heard head code fields rest remainLen s s')
    (hs : s.world.Calm) : s'.world.Calm := by
  rw [h.world]
  exact hs.arriving rest

theorem Heard.learned {head fields : Bytes} {code : UInt8} {rest : List (Except NetError UInt8)}
    {remainLen : UInt32} {s s' : Session} (h : Heard head code fields rest remainLen s s')
    (hs : s.world.Calm) {f : Affair → Affair} (hf : ∀ a, (f a).keys = f a.keys) :
    Learned f rest s { s' with affair := f s'.affair } := by
  have hkeys : s'.affair.keys = s.affair.keys := h.listens.quiet.keys
  refine ⟨congrArg fixed h.listens.kernel, h.listens.saved, ?_, ?_, h.calm hs⟩
  · rw [← hkeys]
    exact hf _
  · show s'.world.rest = _
    rw [h.world]
    rfl

theorem Learned.steady {f : Affair → Affair} {rest : List (Except NetError UInt8)}
    {s t u : Session} (h : Learned f rest s t) (h' : Steady t u) : Learned f rest s u :=
  ⟨h'.quiet.kernel.trans h.kernel, h'.quiet.saved.trans h.saved, h'.quiet.keys.trans h.keys,
    h'.rest.trans h.rest, h'.calm⟩

theorem Steady.learned {f : Affair → Affair} {rest : List (Except NetError UInt8)}
    {s t u : Session} (h : Steady s t) (h' : Learned f rest t u) : Learned f rest s u :=
  ⟨h'.kernel.trans h.quiet.kernel, h'.saved.trans h.quiet.saved,
    h'.keys.trans (congrArg f h.quiet.keys), h'.rest.trans (by rw [h.rest]), h'.calm⟩

section Parsing

variable {c : Crypto} {cbc : Bytes → Cipher} {s : Session}
  {rest : List (Except NetError UInt8)} {bs : Bytes}

theorem eq_of_toNat {n : UInt32} {k : Nat} (h : n.toNat = k) : n = UInt32.ofNat k := by
  rw [← h, UInt32.ofNat_toNat]

theorem rematch_yields {x : Run Unit} {Q : Unit → Session → Prop} (h : Yields x s Q) :
    Yields (rematch x) s Q := by
  obtain ⟨u, t, hrun, hq⟩ := h
  exact ⟨u, t, by rw [rematch, hrun], hq⟩

/-- The public key of the platform arrives, and the secret is the same at both ends. -/
theorem waitAuthenticationII_learned (hc : c.Sound cbc) {publicKey secret : Bytes}
    (hanswer : KeyAnswer c s.affair.shareKey s.kernel.devCurAuthType publicKey bs)
    (hlength : publicKey.length = 97) (hsecret : c.calcSecret publicKey = .ok secret)
    (htype : s.kernel.devCurAuthType = authProtocolEcdh)
    (hvar : s.affair.outVarHead.headD 0 = s.kernel.devCurAuthType)
    (hflag : varHeadFlag (s.affair.outHead.headD 0) = 1)
    (hs : s.world.Calm) (hincoming : s.world.incoming = bs.map .ok ++ rest) :
    Yields (waitAuthenticationII c) s fun _ =>
      Learned (fun a => { a with masterKey := masterKeyOf c secret }) rest s := by
  obtain ⟨ct, tag, henc, hsaid⟩ := hanswer
  obtain ⟨hdec, hct, htag⟩ := hc.gcmDec _ _ _ _ henc
  have hfields : (tag ++ ct).length = 113 := by rw [List.length_append, htag, hct, hlength]
  have hsmall : 4 + (tag ++ ct).length ≤ messageSizeMax := by
    rw [hfields]
    decide
  refine (waitReply_heard hsaid hsmall hincoming).bind fun remainLen t ht => ?_
  refine rematch_yields (.read_bind ?_)
  obtain ⟨hin, hinVar⟩ := ht.head _ rfl
  have hkernel := ht.listens.kernel
  have hout : t.affair.outHead = s.affair.outHead := (congrArg Affair.outHead ht.listens.affair :)
  have houtVar : t.affair.outVarHead = s.affair.outVarHead :=
    (congrArg Affair.outVarHead ht.listens.affair :)
  have hshare : t.affair.shareKey = s.affair.shareKey :=
    (congrArg Affair.shareKey ht.listens.affair :)
  have hremain : remainLen = 117 := eq_of_toNat (ht.length.trans (by rw [hfields]))
  have hsame : ¬ t.affair.inVarHead ≠ t.affair.outVarHead.headD 0 := by
    rw [hinVar, houtVar, hvar]
    exact not_not_intro rfl
  have htype' : t.kernel.devCurAuthType = authProtocolEcdh := by rw [hkernel, htype]
  have hct' : t.affair.payloadBytes 20 97 = ct :=
    ht.field (List.append_nil (tag ++ ct) ▸ List.append_assoc tag ct []) (by rw [htag]) (by omega)
  have htag' : t.affair.payloadBytes 4 16 = tag := ht.field (List.nil_append _).symm rfl htag.symm
  subst hremain
  refine check_yields (not_not_intro (by rw [hout, hflag])) ?_
  refine check_yields (not_not_intro hin) ?_
  rw [if_neg hsame]
  refine check_yields (not_not_intro ht.result) (.read_bind ?_)
  rw [if_pos htype']
  have hplain : Yields (decryptPeerPubkey c 117) t fun a u => a = publicKey ∧ u = t := by
    have hlen : ((117 : UInt32) - 20).toUInt8.toNat = 97 := by decide
    have hfits : ¬ 128 < ((117 : UInt32) - 20).toUInt8 := by decide
    refine .read_bind (check_yields (by decide) ?_)
    simp only [hlen, hct', htag', hshare, hdec, if_neg hfits]
    exact .lift rfl ⟨rfl, rfl⟩
  refine hplain.bind fun a u hu => ?_
  obtain ⟨rfl, rfl⟩ := hu
  have hmaster : Yields (generateMasterkey c a) u fun b v => b = secret ∧ v = u :=
    check_yields (not_not_intro hlength) (.lift (by rw [hsecret]) ⟨rfl, rfl⟩)
  refine hmaster.bind fun b v hv => ?_
  obtain ⟨rfl, rfl⟩ := hv
  exact .write (ht.learned hs fun _ => rfl)

/-- The device number and the session key of the platform arrive under the common key. -/
theorem waitCreateDevId_learned (hc : c.Sound cbc) {cmd : UInt8} {k : Keys}
    (hanswer : IdAnswer c cmd s.affair.devSubserial.val k bs)
    (hmaster : s.affair.masterKey = k.masterKey) (hkey : k.masterKey.length = 16)
    (hdevId : k.devId.length = 32) (hsession : k.sessionKey.length = 16)
    (hs : s.world.Calm) (hincoming : s.world.incoming = bs.map .ok ++ rest) :
    Yields (waitReply cmd >>= parseAuthenticationCreateDevId c) s fun _ =>
      Learned (fun a => { a with devId := k.devId, sessionKey := k.sessionKey }) rest s := by
  obtain ⟨ct, tag, ct', tag', sign, henc, henc', hsign, hsaid⟩ := hanswer
  obtain ⟨hdec, hct, htag⟩ := hc.gcmDec _ _ _ _ henc
  obtain ⟨hdec', hct', htag'⟩ := hc.gcmDec _ _ _ _ henc'
  obtain ⟨sign', hsign', hlength⟩ := hc.hmac k.masterKey (c.sha384 s.affair.devSubserial.val) hkey
  obtain rfl : sign = sign' := Except.ok.inj (hsign.symm.trans hsign')
  generalize hfields : tag ++ 32 :: (ct ++ (tag' ++ 16 :: (ct' ++ sign))) = fields at hsaid
  have hlen : fields.length = 130 := by
    rw [← hfields]
    simp only [List.length_append, List.length_cons, htag, hct, htag', hct', hlength, hdevId,
      hsession]
  have hsmall : 4 + fields.length ≤ messageSizeMax := by
    rw [hlen]
    decide
  refine (waitReply_heard hsaid hsmall hincoming).bind fun remainLen t ht => ?_
  have hremain : remainLen = 134 := eq_of_toNat (ht.length.trans (by rw [hlen]))
  subst hremain
  have hserial : t.affair.devSubserial = s.affair.devSubserial :=
    (congrArg Affair.devSubserial ht.listens.affair :)
  have hmaster' : t.affair.masterKey = k.masterKey :=
    (congrArg Affair.masterKey ht.listens.affair :).trans hmaster
  -- the fields, in their order
  have hf₁ : t.affair.payloadBytes 4 16 = tag :=
    ht.field (hfields.symm.trans (List.nil_append _).symm) rfl htag.symm
  have hf₂ : t.affair.payloadByte 20 = 32 := ht.byte hfields.symm (by omega)
  have hf₃ : t.affair.payloadBytes 21 32 = ct := by
    have hsplit : fields = (tag ++ [32]) ++ (ct ++ (tag' ++ 16 :: (ct' ++ sign))) := by
      simp [← hfields]
    exact ht.field hsplit (by simp [htag]) (by omega)
  have hf₄ : t.affair.payloadBytes 53 16 = tag' := by
    have hsplit : fields = (tag ++ 32 :: ct) ++ (tag' ++ 16 :: (ct' ++ sign)) := by
      simp [← hfields]
    exact ht.field hsplit (by simp [htag, hct, hdevId]) htag'.symm
  have hf₅ : t.affair.payloadByte 69 = 16 := by
    have hsplit : fields = (tag ++ 32 :: (ct ++ tag')) ++ 16 :: (ct' ++ sign) := by
      simp [← hfields]
    exact ht.byte hsplit (by simp [htag, hct, hdevId, htag'])
  have hf₆ : t.affair.payloadBytes 70 16 = ct' := by
    have hsplit : fields = (tag ++ 32 :: (ct ++ (tag' ++ [16]))) ++ (ct' ++ sign) := by
      simp [← hfields]
    exact ht.field hsplit (by simp [htag, hct, hdevId, htag']) (by omega)
  have hf₇ : t.affair.payloadBytes 86 48 = sign := by
    have hsplit : fields = (tag ++ 32 :: (ct ++ (tag' ++ 16 :: ct'))) ++ (sign ++ []) := by
      simp [← hfields]
    exact ht.field hsplit (by simp [htag, hct, hdevId, htag', hct', hsession]) hlength.symm
  refine .read_bind (check_yields (not_not_intro ht.result) ?_)
  refine check_yields (not_not_intro hf₂) ?_
  rw [hmaster', hf₁, hf₃]
  refine crypto_yields hdec (check_yields (not_not_intro hdevId) ?_)
  refine .bind (.write rfl : Yields _ _ fun _ u => u = _) fun _ u hu => ?_
  refine check_yields (not_not_intro hf₅) ?_
  rw [hf₄, hf₆]
  refine crypto_yields hdec' (check_yields (not_not_intro hsession) ?_)
  refine .bind (.write rfl : Yields _ _ fun _ v => v = _) fun _ v hv => ?_
  subst hu hv
  refine check_yields (by decide) (.read_bind ?_)
  have hsigned : serialSign c { t.affair with devId := k.devId, sessionKey := k.sessionKey } =
      .ok sign := by
    rw [serialSign, hmaster', hserial, hsign]
  refine crypto_yields hsigned ?_
  have htake : sign.take 48 = sign := List.take_of_length_le (Nat.le_of_eq hlength)
  rw [check, if_neg (not_not_intro (by rw [hf₇, htake]))]
  exact .pure (ht.learned hs fun _ => rfl)

theorem Crypto.Sound.cbcDec_enc (hc : c.Sound cbc) {key plain ct : Bytes} (hkey : key.length = 16)
    (hne : plain ≠ []) (hsize : plain.length + 16 < 2 ^ 32) (henc : c.cbcEnc key plain = .ok ct) :
    ct.length = plain.length + (16 - plain.length % 16) ∧
      c.cbcDec key ct = .ok (plain ++ padding plain) := by
  obtain rfl : ct = (cbc key).enc (plain ++ padding plain) :=
    Except.ok.inj (henc.symm.trans (hc.cbcEnc key plain hkey hne))
  constructor
  · rw [(cbc key).length_enc _ (dvd_length_padded plain), List.length_append, length_padding]
  · rw [hc.cbcDec, cbcDecPadding, aesCbc128DecPadding_enc (cbc key) plain hsize]
    rfl

/-- Both random numbers and the session key arrive under the common key. -/
theorem waitRefreshsessionkeyII_learned (hc : c.Sound cbc) {random2 : UInt8} {k : Keys}
    (hanswer : RandomAnswer c s.affair.random1 random2 k bs)
    (hmaster : s.affair.masterKey = k.masterKey) (hkey : k.masterKey.length = 16)
    (hsession : k.sessionKey.length = 16) (hs : s.world.Calm)
    (hincoming : s.world.incoming = bs.map .ok ++ rest) :
    Yields (waitRefreshsessionkeyII c) s fun _ =>
      Learned (fun a => { a with random2 := random2, sessionKey := k.sessionKey }) rest s := by
  obtain ⟨ct, henc, hsaid⟩ := hanswer
  obtain ⟨hct, hdec⟩ := hc.cbcDec_enc hkey (List.cons_ne_nil _ _)
    (by simp only [List.length_cons, hsession]; decide) henc
  simp only [List.length_cons, hsession] at hct
  have hsmall : 4 + ct.length ≤ messageSizeMax := by
    rw [hct]
    decide
  refine (waitReply_heard hsaid hsmall hincoming).bind fun remainLen t ht => ?_
  have hremain : remainLen = 36 := eq_of_toNat (ht.length.trans (by rw [hct]))
  subst hremain
  have hmaster' : t.affair.masterKey = k.masterKey :=
    (congrArg Affair.masterKey ht.listens.affair :).trans hmaster
  have hrandom : t.affair.random1 = s.affair.random1 :=
    (congrArg Affair.random1 ht.listens.affair :)
  have hfield : t.affair.payloadBytes 4 32 = ct := by
    have hsplit : ct = [] ++ (ct ++ []) := by simp
    exact ht.field hsplit rfl hct.symm
  have hkeyBytes : (List.range 16).map (fun i => (s.affair.random1 :: random2 ::
      k.sessionKey ++ padding (s.affair.random1 :: random2 :: k.sessionKey)).getD (i + 2) 0) =
        k.sessionKey := by
    have hrange := range_getD_append [s.affair.random1, random2] k.sessionKey
      (padding (s.affair.random1 :: random2 :: k.sessionKey))
    rw [hsession] at hrange
    simpa [Nat.add_comm] using hrange
  refine .read_bind (check_yields (not_not_intro ht.result) ?_)
  refine check_yields (by decide) ?_
  rw [hmaster', hfield]
  refine crypto_yields hdec (check_yields (not_not_intro hrandom.symm) ?_)
  rw [hkeyBytes]
  exact .write (ht.learned hs fun _ => rfl)

/-- An address that is found in a text is found in whatever begins with it. -/
theorem jsonParseDasServerInfo_append {text : Bytes} {info : DasInfo}
    (h : jsonParseDasServerInfo text = .ok info) (more : Bytes) :
    jsonParseDasServerInfo (text ++ more) = .ok info := by
  unfold jsonParseDasServerInfo at h ⊢
  cases hparse : cJSONParse text with
  | none =>
      rw [hparse] at h
      cases h
  | some root =>
      rw [hparse] at h
      cases root with
      | object members =>
          rw [cJSONParse_append hparse more]
          exact h
      | null | bool | number | string | array => cases h

/-- The address arrives under the session key. -/
theorem waitCryptoDataRspDas_learned (hc : c.Sound cbc) {text : Bytes} {info : DasInfo}
    (hanswer : DasAnswer c s.affair.sessionKey text bs) (hkey : s.affair.sessionKey.length = 16)
    (htext : jsonParseDasServerInfo text = .ok info) (hsize : 20 + text.length ≤ messageSizeMax)
    (hs : s.world.Calm) (hincoming : s.world.incoming = bs.map .ok ++ rest) :
    Yields (waitCryptoDataRspDas c) s fun a t => a = info ∧ Learned id rest s t := by
  obtain ⟨ct, henc, hsaid⟩ := hanswer
  have hne : text ≠ [] := by
    intro hempty
    have hparse : jsonParseDasServerInfo [] = .error (.code Code.jsonParseError) := rfl
    rw [hempty, hparse] at htext
    cases htext
  change 20 + text.length ≤ 16384 at hsize
  obtain ⟨hct, hdec⟩ := hc.cbcDec_enc hkey hne (by omega) henc
  have hsmall : 4 + ct.length ≤ messageSizeMax := by
    change 4 + ct.length ≤ 16384
    omega
  refine (waitReply_heard hsaid hsmall hincoming).bind fun remainLen t ht => ?_
  have hremain : (remainLen - 4).toNat = ct.length := by
    have hlen := ht.length
    rw [UInt32.toNat_sub]
    change (2 ^ 32 - 4 + remainLen.toNat) % 2 ^ 32 = ct.length
    omega
  have hblocks : ct.length % 16 = 0 := by omega
  have hpos : 0 < ct.length := by omega
  have hlen : ¬ (remainLen - 4 = 0 ∨ (remainLen - 4) % 16 ≠ 0) := by
    rw [not_or, not_not, ← UInt32.toNat_inj, ← UInt32.toNat_inj, UInt32.toNat_mod, hremain]
    exact ⟨Nat.ne_of_gt hpos, hblocks⟩
  have hfield : t.affair.payloadBytes 4 (remainLen - 4).toNat = ct := by
    have hsplit : ct = [] ++ (ct ++ []) := by simp
    exact ht.field hsplit rfl hremain
  have hsession : t.affair.sessionKey = s.affair.sessionKey :=
    (congrArg Affair.sessionKey ht.listens.affair :)
  have hheard : Learned id rest s t := ht.learned hs fun _ => rfl
  refine .read_bind (check_yields (not_not_intro ht.result) ?_)
  refine (malloc_steady _ (ht.calm hs)).bind fun _ u hu => check_yields hlen ?_
  rw [hfield, hsession]
  refine crypto_yields hdec (.read_bind (.lift ?_ ⟨rfl, hheard.steady hu⟩))
  rw [List.append_assoc]
  exact jsonParseDasServerInfo_append htext _

end Parsing

end EzIot.Lbs
