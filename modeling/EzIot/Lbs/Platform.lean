import EzIot.Lbs.Bounds

/-! # The platform at the other end

What the platform sends in a handshake when it keeps to the protocol, and what the steps of
the device make of it, as long as nothing on the device fails. The keys of the platform are its
own: it encrypts and signs with what it holds itself.
-/

namespace EzIot.Lbs

open CText CJson Kernel Program Base128 Das

/-! ## A world in which nothing fails -/

/-- Writes, allocations and connections succeed. -/
structure World.Calm (w : World) : Prop where
  writes : ∀ r ∈ w.writes, r = none
  allocs : ∀ b ∈ w.allocs, b = true
  creates : ∀ b ∈ w.creates, b = true
  connects : ∀ r ∈ w.connects, ∃ ip, r = .ok ip

/-- What is left in the world when only its answers to writes and allocations are used up. -/
def World.rest (w : World) : World := { w with writes := [], allocs := [], creates := [] }

/-- A quiet step in a calm world that neither reads nor connects. -/
structure Steady (s s' : Session) : Prop where
  quiet : Quiet s s'
  rest : s'.world.rest = s.world.rest
  calm : s'.world.Calm

theorem Steady.trans {s s' s'' : Session} (h : Steady s s') (h' : Steady s' s'') : Steady s s'' :=
  ⟨Trans.trans h.quiet h'.quiet, h'.rest.trans h.rest, h'.calm⟩

theorem Steady.refl {s : Session} (h : s.world.Calm) : Steady s s := ⟨Std.Refl.refl s, rfl, h⟩

theorem Steady.incoming {s s' : Session} (h : Steady s s') :
    s'.world.incoming = s.world.incoming := (congrArg World.incoming h.rest :)

theorem Steady.kept {β : Type} {s s' : Session} (h : Steady s s') (f : Affair → β)
    (hf : ∀ a, f a.keys = f a) : f s'.affair = f s.affair := by
  rw [← hf s'.affair, ← hf s.affair, h.quiet.keys]

theorem Steady.connects {s s' : Session} (h : Steady s s') :
    s'.world.connects = s.world.connects := (congrArg World.connects h.rest :)

section Steps

variable {α β : Type} {s : Session}

theorem Steady.bind {x : Run α} {f : α → Run Unit} (hx : Yields x s fun _ => Steady s)
    (hf : ∀ a t, Steady s t → Yields (f a) t fun _ => Steady t) :
    Yields (x >>= f) s fun _ => Steady s :=
  hx.bind fun a t ht => (hf a t ht).mono fun _ _ ht' => ht.trans ht'

theorem setAffair_steady {f : Affair → Affair} (hf : ∀ a, (f a).keys = a.keys)
    (hs : s.world.Calm) : Yields (setAffair f) s fun _ => Steady s :=
  .write ⟨⟨rfl, rfl, hf s.affair, .rfl⟩, rfl, hs⟩

theorem appendPayload_steady (b : Bytes) (hs : s.world.Calm) :
    Yields (appendPayload b) s fun _ => Steady s := setAffair_steady (fun _ => rfl) hs

theorem clearLbsAffairBuf_steady (hs : s.world.Calm) :
    Yields clearLbsAffairBuf s fun _ => Steady s := setAffair_steady (fun _ => rfl) hs

theorem malloc_steady (e : Nat) (hs : s.world.Calm) : Yields (malloc e) s fun _ => Steady s := by
  rcases s with ⟨kernel, affair, ⟨incoming, writes, allocs, creates, connects, random, heap⟩, saved⟩
  cases allocs with
  | nil => exact ⟨(), _, rfl, .refl hs⟩
  | cons b rest =>
      obtain rfl : b = true := hs.allocs b List.mem_cons_self
      have hrest : ∀ b ∈ rest, b = true := fun b hb => hs.allocs b (List.mem_cons_of_mem _ hb)
      exact ⟨(), _, rfl, ⟨rfl, rfl, rfl, ⟨List.suffix_rfl, rfl, rfl⟩⟩, rfl,
        ⟨hs.writes, hrest, hs.creates, hs.connects⟩⟩

theorem crypto_yields {x : Except CryptoError α} {a : α} (hx : x = .ok a) {f : α → Run β}
    {Q : β → Session → Prop} (h : Yields (f a) s Q) : Yields (crypto x >>= f) s Q := by
  subst hx
  exact h

theorem check_yields {bad : Prop} [Decidable bad] (hbad : ¬ bad) {e : Nat} {f : Unit → Run β}
    {Q : β → Session → Prop} (h : Yields (f ()) s Q) : Yields (check bad e >>= f) s Q := by
  rw [check, if_neg hbad]
  exact h

theorem netWrite_steady (hs : s.world.Calm) :
    Yields netWrite s fun _ t => Steady s t ∧ t.affair = s.affair := by
  rcases s with ⟨kernel, affair, ⟨incoming, writes, allocs, creates, connects, random, heap⟩, saved⟩
  cases writes with
  | nil => exact ⟨(), _, rfl, .refl hs, rfl⟩
  | cons r rest =>
      obtain rfl : r = none := hs.writes r List.mem_cons_self
      have hrest : ∀ r ∈ rest, r = none := fun r hr => hs.writes r (List.mem_cons_of_mem _ hr)
      exact ⟨(), _, rfl, ⟨⟨rfl, rfl, rfl, ⟨List.suffix_rfl, rfl, rfl⟩⟩, rfl,
        ⟨hrest, hs.allocs, hs.creates, hs.connects⟩⟩, rfl⟩

theorem sendLbsMsg_steady (hs : s.world.Calm) :
    Yields sendLbsMsg s fun _ t => Steady s t ∧ t.affair = s.affair := by
  have hlast {t : Session} (ht : Steady s t ∧ t.affair = s.affair) :
      Yields netWrite t fun _ t' => Steady s t' ∧ t'.affair = s.affair :=
    (netWrite_steady ht.1.calm).mono fun _ _ ht' => ⟨ht.1.trans ht'.1, ht'.2.trans ht.2⟩
  refine (netWrite_steady hs).bind fun _ t ht => .read_bind ?_
  split
  · exact (hlast ht).bind fun _ _ ht' => hlast ht'
  · exact hlast ht

/-- Most messages are sent without a look at the result. -/
theorem ignored_send_steady (hs : s.world.Calm) :
    Yields (ignore sendLbsMsg) s fun _ => Steady s :=
  ((sendLbsMsg_steady hs).mono fun _ _ ht => ht.1).ignore

theorem headerSerializeOld_steady (cmd : UInt8) (hs : s.world.Calm) :
    Yields (headerSerializeOld cmd) s fun _ => Steady s := setAffair_steady (fun _ => rfl) hs

/-- Requests behind the first one have no variable header. -/
theorem headerSerialize_steady {cmd : UInt8} (hcmd : cmd ≠ authenticationI) (hs : s.world.Calm) :
    Yields (headerSerialize cmd) s fun _ => Steady s := by
  refine .read_bind ?_
  rw [if_neg hcmd]
  exact setAffair_steady (fun _ => rfl) hs

end Steps

/-! ## Cryptography that works -/

/-- What the functions of mbedTLS do when nothing in them fails. The block cipher is `cbc`. -/
structure Crypto.Sound (c : Crypto) (cbc : Bytes → Cipher) : Prop where
  publicKey : ∃ key, c.publicKey = .ok key ∧ key ≠ []
  shareKey : ∀ info nUpper, 16 ≤ (c.shareKey info nUpper).length
  gcmEnc : ∀ key plain : Bytes, key.length = 16 → plain ≠ [] → ∃ out, c.gcmEnc key plain = .ok out
  gcmDec : ∀ key plain ct tag, c.gcmEnc key plain = .ok (ct, tag) →
    c.gcmDec key ct tag = .ok plain ∧ ct.length = plain.length ∧ tag.length = 16
  cbcEnc : ∀ key plain : Bytes, key.length = 16 → plain ≠ [] →
    c.cbcEnc key plain = .ok ((cbc key).enc (plain ++ padding plain))
  cbcDec : Padded c cbc
  md5 : ∀ text, (c.md5 text).length = 16
  hmac : ∀ key text : Bytes, key.length = 16 →
    ∃ sign, c.hmac384 key text = .ok sign ∧ sign.length = 48

/-- The master key of a secret. -/
def masterKeyOf (c : Crypto) (secret : Bytes) : Bytes := ((c.md5 secret).take 8).flatMap hexByte

section Sending

variable {c : Crypto} {cbc : Bytes → Cipher} {s : Session}

theorem length_masterKeyOf (hc : c.Sound cbc) (secret : Bytes) :
    (masterKeyOf c secret).length = 16 := by
  have hdigest : ((c.md5 secret).take 8).length = 8 := by
    rw [List.length_take, hc.md5]
    rfl
  have hhex (bs : Bytes) : (bs.flatMap hexByte).length = 2 * bs.length := by
    induction bs with
    | nil => rfl
    | cons b bs ih =>
        rw [List.flatMap_cons, List.length_append, ih, List.length_cons]
        change 2 + 2 * bs.length = _
        omega
  rw [masterKeyOf, hhex, hdigest]

theorem signSerialize_steady (hc : c.Sound cbc) (hkey : s.affair.masterKey.length = 16)
    (hs : s.world.Calm) : Yields (signSerialize c) s fun _ => Steady s := by
  obtain ⟨sign, hsign, -⟩ := hc.hmac s.affair.masterKey (c.sha384 s.affair.devSubserial.val) hkey
  exact .read_bind (crypto_yields hsign (appendPayload_steady _ hs))

theorem appendRandom_steady (hc : c.Sound cbc) (random : Affair → UInt8)
    (hkey : s.affair.masterKey.length = 16) (hs : s.world.Calm) :
    Yields (appendRandom c random) s fun _ => Steady s :=
  .read_bind (crypto_yields (hc.cbcEnc _ _ hkey (List.cons_ne_nil _ _))
    (appendPayload_steady _ hs))

theorem appendPubkey_steady (hc : c.Sound cbc) (hkey : 16 ≤ s.affair.shareKey.length)
    (hs : s.world.Calm) : Yields (appendPubkey c) s fun _ => Steady s := by
  obtain ⟨key, hpublic, hne⟩ := hc.publicKey
  refine crypto_yields hpublic (Steady.bind (malloc_steady _ hs) fun _ t ht => .read_bind ?_)
  have hlen : (t.affair.shareKey.take 16).length = 16 := by
    rw [ht.kept Affair.shareKey fun _ => rfl, List.length_take]
    omega
  obtain ⟨out, henc⟩ := hc.gcmEnc _ key hlen hne
  exact crypto_yields henc (appendPayload_steady _ ht.calm)

theorem sendUpdateSessionkeyReq_steady (hc : c.Sound cbc) (hkey : s.affair.masterKey.length = 16)
    (hs : s.world.Calm) : Yields (sendUpdateSessionkeyReq c) s fun _ => Steady s := by
  refine Steady.bind (appendPayload_steady _ hs) fun _ t ht => .read_bind ?_
  refine Steady.bind (appendPayload_steady _ ht.calm) fun _ u hu => ?_
  have hkey' : u.affair.masterKey.length = 16 := by
    rw [(ht.trans hu).kept Affair.masterKey fun _ => rfl, hkey]
  refine Steady.bind (signSerialize_steady hc hkey' hu.calm) fun _ v hv => ?_
  exact Steady.bind (headerSerialize_steady (by decide) hv.calm) fun _ w hw =>
    ignored_send_steady hw.calm

theorem sendAuthenticationCreatDevId_steady (hc : c.Sound cbc)
    (hkey : s.affair.masterKey.length = 16) (hs : s.world.Calm) :
    Yields (sendAuthenticationCreatDevId c) s fun _ => Steady s := by
  refine Steady.bind (appendPayload_steady _ hs) fun _ t ht => ?_
  have hkey' : t.affair.masterKey.length = 16 := by
    rw [ht.kept Affair.masterKey fun _ => rfl, hkey]
  refine Steady.bind (signSerialize_steady hc hkey' ht.calm) fun _ u hu => ?_
  exact Steady.bind (headerSerialize_steady (by decide) hu.calm) fun _ v hv =>
    ignored_send_steady hv.calm

theorem sendRefreshsessionkeyI_steady (hc : c.Sound cbc) (hkey : s.affair.masterKey.length = 16)
    (hs : s.world.Calm) : Yields (sendRefreshsessionkeyI c) s fun _ => Steady s := by
  refine Steady.bind (appendPayload_steady _ hs) fun _ t ht => .read_bind ?_
  refine Steady.bind (appendPayload_steady _ ht.calm) fun _ u hu => ?_
  have hkey' : u.affair.masterKey.length = 16 := by
    rw [(ht.trans hu).kept Affair.masterKey fun _ => rfl, hkey]
  refine Steady.bind (appendRandom_steady hc _ hkey' hu.calm) fun _ v hv => ?_
  exact Steady.bind (headerSerializeOld_steady _ hv.calm) fun _ w hw =>
    ignored_send_steady hw.calm

theorem sendRefreshsessionkeyIII_steady (hc : c.Sound cbc) (hkey : s.affair.masterKey.length = 16)
    (hs : s.world.Calm) : Yields (sendRefreshsessionkeyIII c) s fun _ => Steady s := by
  refine Steady.bind (appendPayload_steady _ hs) fun _ t ht => ?_
  have hkey' : t.affair.masterKey.length = 16 := by
    rw [ht.kept Affair.masterKey fun _ => rfl, hkey]
  refine Steady.bind (appendRandom_steady hc _ hkey' ht.calm) fun _ u hu => ?_
  exact Steady.bind (headerSerializeOld_steady _ hu.calm) fun _ v hv =>
    ignored_send_steady hv.calm

theorem sendCryptoDataReq_steady (hc : c.Sound cbc) (hkey : s.affair.sessionKey.length = 16)
    (hs : s.world.Calm) : Yields (sendCryptoDataReq c) s fun _ => Steady s := by
  refine Steady.bind (appendPayload_steady _ hs) fun _ t ht => ?_
  refine Steady.bind (malloc_steady _ ht.calm) fun _ u hu => .read_bind ?_
  refine Steady.bind (malloc_steady _ hu.calm) fun _ v hv => ?_
  refine Steady.bind (malloc_steady _ hv.calm) fun _ w hw => ?_
  have hkey' : u.affair.sessionKey.length = 16 := by
    rw [(ht.trans hu).kept Affair.sessionKey fun _ => rfl, hkey]
  refine crypto_yields (hc.cbcEnc _ _ hkey' (List.cons_ne_nil _ _)) ?_
  refine Steady.bind (appendPayload_steady _ hw.calm) fun _ x hx => ?_
  exact Steady.bind (headerSerializeOld_steady _ hx.calm) fun _ y hy => ignored_send_steady hy.calm

structure Announced (s s' : Session) : Prop extends Steady s s' where
  authType : s'.affair.outVarHead.headD 0 = s.kernel.devCurAuthType
  flag : varHeadFlag (s'.affair.outHead.headD 0) = 1

theorem sendAuthenticationI_announced (hc : c.Sound cbc)
    (htype : s.kernel.devCurAuthType = authProtocolEcdh)
    (hcount : s.kernel.devAuthTypeCount.toNat ≤ 14) (hkey : 16 ≤ s.affair.shareKey.length)
    (hs : s.world.Calm) : Yields (sendAuthenticationI c) s fun _ => Announced s := by
  refine (appendPayload_steady _ hs).bind fun _ t ht => .read_bind ?_
  refine (appendPayload_steady _ ht.calm).bind fun _ u hu => .read_bind ?_
  have hfirst := ht.trans hu
  have hu' : u.kernel.devCurAuthType = s.kernel.devCurAuthType :=
    (congrArg SdkKernel.devCurAuthType hfirst.quiet.kernel :)
  have hkey' : 16 ≤ u.affair.shareKey.length := by
    rw [hfirst.kept Affair.shareKey fun _ => rfl]
    exact hkey
  rw [if_pos (hu'.trans htype)]
  refine (appendPubkey_steady hc hkey' hu.calm).ignore.bind fun _ v hv => ?_
  have hv' := hfirst.trans hv
  have hcount' : ¬ 14 < v.kernel.devAuthTypeCount.toNat := by
    have heq : v.kernel.devAuthTypeCount = s.kernel.devAuthTypeCount :=
      (congrArg SdkKernel.devAuthTypeCount hv'.quiet.kernel :)
    rw [heq]
    omega
  -- the header is written, and sent as it is
  have hheader : Yields (headerSerialize authenticationI) v fun _ w => Steady v w ∧
      w.affair.outVarHead.headD 0 = v.kernel.devCurAuthType ∧
      varHeadFlag (w.affair.outHead.headD 0) = 1 := by
    refine .read_bind ?_
    rw [if_pos rfl, if_neg hcount']
    have hflag : varHeadFlag (((authenticationI &&& 0x0F) <<< 4) ||| 0x2 ||| 0x8) = 1 := by decide
    exact .write ⟨⟨⟨rfl, rfl, rfl, .rfl⟩, rfl, hv.calm⟩, rfl, hflag⟩
  refine hheader.bind fun _ w hw => (sendLbsMsg_steady hw.1.calm).mono fun _ x hx => ?_
  have hcur : v.kernel.devCurAuthType = s.kernel.devCurAuthType :=
    (congrArg SdkKernel.devCurAuthType hv'.quiet.kernel :)
  refine ⟨hv'.trans (hw.1.trans hx.1), ?_, ?_⟩
  · rw [hx.2, hw.2.1, hcur]
  · rw [hx.2]
    exact hw.2.2

end Sending

/-! ## Connecting -/

/-- A connection was made, and nothing else has happened. -/
structure Connected (s s' : Session) : Prop where
  quiet : Quiet s s'
  rest : s'.world.rest = { s.world.rest with connects := s.world.connects.tail }
  calm : s'.world.Calm

theorem netCreate_steady {s : Session} (hs : s.world.Calm) :
    Yields netCreate s fun _ => Steady s := by
  rcases s with ⟨kernel, affair, ⟨incoming, writes, allocs, creates, connects, random, heap⟩, saved⟩
  cases creates with
  | nil => exact ⟨(), _, rfl, .refl hs⟩
  | cons b rest =>
      obtain rfl : b = true := hs.creates b List.mem_cons_self
      have hrest : ∀ b ∈ rest, b = true := fun b hb => hs.creates b (List.mem_cons_of_mem _ hb)
      exact ⟨(), _, rfl, ⟨rfl, rfl, rfl, ⟨List.suffix_rfl, rfl, rfl⟩⟩, rfl,
        ⟨hs.writes, hs.allocs, hrest, hs.connects⟩⟩

theorem lbsConnect_connected {s : Session} (hs : s.world.Calm) (hmore : s.world.connects ≠ []) :
    Yields lbsConnect s fun _ => Connected s := by
  have hfirst : Yields lbsConnect s fun _ t =>
      t.world.rest = { s.world.rest with connects := s.world.connects.tail } ∧ t.world.Calm := by
    refine (netCreate_steady hs).bind fun _ t ht => ?_
    have hconnects := ht.connects
    rw [← hconnects, ← ht.rest]
    have hcalm := ht.calm
    rcases t with
      ⟨kernel, affair, ⟨incoming, writes, allocs, creates, connects, random, heap⟩, saved⟩
    cases connects with
    | nil => exact absurd hconnects.symm hmore
    | cons r rest =>
        obtain ⟨ip, rfl⟩ := hcalm.connects r List.mem_cons_self
        have hrest : ∀ r ∈ rest, ∃ ip, r = .ok ip := fun r hr =>
          hcalm.connects r (List.mem_cons_of_mem _ hr)
        exact ⟨(), _, rfl, rfl, ⟨hcalm.writes, hcalm.allocs, hcalm.creates, hrest⟩⟩
  exact (hfirst.and fun _ _ hrun => lbsConnect_quiet.run hrun).mono fun _ _ ht =>
    ⟨ht.1, ht.2.1, ht.2.2⟩

/-- A fresh affair. -/
structure Opened (c : Crypto) (nUpper : Bool) (s s' : Session) : Prop where
  scratch : Scratch s s'
  rest : s'.world.rest = s.world.rest
  calm : s'.world.Calm
  shareKey : s'.affair.shareKey = c.shareKey s.kernel.devInfo nUpper
  devSubserial : s'.affair.devSubserial = s.kernel.devInfo.devSubserial
  masterKey : s'.affair.masterKey = s.kernel.masterKey
  devId : s'.affair.devId = s.kernel.devId
  random1 : s'.affair.random1 = s.world.random

theorem initLbsAffair_opened (c : Crypto) (nUpper : Bool) {s : Session} (hs : s.world.Calm) :
    Yields (initLbsAffair c nUpper) s fun _ => Opened c nUpper s := by
  have hfirst : Yields (initLbsAffair c nUpper) s fun _ t =>
      t.world.rest = s.world.rest ∧ t.world.Calm := by
    refine (malloc_steady _ hs).bind fun _ t ht => ?_
    refine (malloc_steady _ ht.calm).bind fun _ u hu => ?_
    refine (malloc_steady _ hu.calm).bind fun _ v hv => ?_
    refine (malloc_steady _ hv.calm).bind fun _ w hw => ?_
    have hall := ((ht.trans hu).trans hv).trans hw
    exact .write ⟨hall.rest, hall.calm⟩
  refine (hfirst.and fun _ _ hrun => initLbsAffair_returns hrun).mono fun _ t ht => ?_
  obtain ⟨⟨hscratch, hshare, hserial, hmaster, hdev, hrandom⟩, hrest, hcalm⟩ := ht
  exact ⟨hscratch, hrest, hcalm, hshare, hserial, hmaster, hdev, hrandom⟩

/-! ## Messages of the platform -/

/-- The bytes of a message: the length field counts the variable header, too. -/
def message (byte1 : UInt8) (head body : Bytes) : Bytes :=
  byte1 :: (lengthBytes 4 (head.length + body.length) ++ (head ++ body))

/-- A message with a command, a variable header, a result and the fields behind it. -/
def Says (cmd : UInt8) (head : Bytes) (result : UInt8) (fields bs : Bytes) : Prop :=
  ∃ (byte1 : UInt8) (version : Bytes), revCmdOf byte1 = cmd ∧ head.length = varHeadCount byte1 ∧
    version.length = 3 ∧ bs = message byte1 head (version ++ result :: fields)

/-- A message was heard, up to the bytes `rest` behind it. -/
structure Heard (head : Bytes) (result : UInt8) (fields : Bytes)
    (rest : List (Except NetError UInt8)) (remainLen : UInt32) (s s' : Session) : Prop where
  listens : Listens s s'
  world : s'.world = { s.world with incoming := rest }
  length : remainLen.toNat = 4 + fields.length
  payload : ∃ version, version.length = 3 ∧ s'.affair.inPayload = version ++ result :: fields
  head : ∀ b, head = [b] → varHeadFlag s'.affair.inHead = 1 ∧ s'.affair.inVarHead = b

theorem readPayload_yields (cmd : UInt8) {remainLen : UInt32} (s : Session) {body : Bytes}
    (hlen : remainLen.toNat = body.length) (hpos : 0 < body.length)
    (rest : List (Except NetError UInt8)) :
    Yields (readPayload cmd remainLen) (s.arriving (body.map .ok ++ rest)) fun r t =>
      r = (cmd, remainLen) ∧
        t = { s.arriving rest with affair := { s.affair with inPayload := body } } := by
  unfold readPayload
  rw [hlen]
  exact ⟨_, _, bind_returns.mpr ⟨body, _, netRead_arriving s hpos rest, rfl⟩, rfl, rfl⟩

theorem readRest_yields {byte1 : UInt8} {head body : Bytes} {remainLen : UInt32} (s : Session)
    (hhead : head.length = varHeadCount byte1) (hpos : 0 < body.length)
    (hsmall : body.length ≤ messageSizeMax) (hlen : remainLen.toNat = head.length + body.length)
    (rest : List (Except NetError UInt8)) :
    Yields (readRest byte1 remainLen) (s.arriving (head.map .ok ++ (body.map .ok ++ rest)))
      fun r t => r.1 = revCmdOf byte1 ∧ r.2.toNat = body.length ∧
        t = { s.arriving rest with affair := { s.affair with
          inHead := byte1, inVarHead := head.headD s.affair.inVarHead, inPayload := body } } := by
  change body.length ≤ 16384 at hsmall
  unfold readRest
  by_cases hflag : varHeadFlag byte1 = 1 ∧ revCmdOf byte1 = authenticationII
  · rw [varHeadCount, if_pos hflag] at hhead
    obtain ⟨b, rfl⟩ := List.length_eq_one_iff.mp hhead
    rw [List.length_singleton] at hlen
    have hsub : (remainLen - 1).toNat = body.length := by
      rw [UInt32.toNat_sub]
      change (2 ^ 32 - 1 + remainLen.toNat) % 2 ^ 32 = _
      omega
    have hboth := not_bothBufLen_lt.mpr (show remainLen.toNat ≤ 16400 by omega)
    have hfits := not_payloadBufLen_lt.mpr (show (remainLen - 1).toNat ≤ 16384 by omega)
    have hread := readPayload_yields (revCmdOf byte1)
      { s with affair := { s.affair with inHead := byte1, inVarHead := b } } hsub hpos rest
    rw [if_pos hflag]
    simp only [check, if_neg hboth, if_neg hfits, pure_bind]
    refine hread.mono fun r t ht => ?_
    obtain ⟨rfl, rfl⟩ := ht
    exact ⟨rfl, hsub, rfl⟩
  · rw [varHeadCount, if_neg hflag] at hhead
    rw [List.eq_nil_of_length_eq_zero hhead] at hlen ⊢
    have hlen' : remainLen.toNat = body.length := by
      rw [hlen, List.length_nil, Nat.zero_add]
    have hfits := not_payloadBufLen_lt.mpr (show remainLen.toNat ≤ 16384 by omega)
    have hread := readPayload_yields (revCmdOf byte1)
      { s with affair := { s.affair with inHead := byte1 } } hlen' hpos rest
    rw [if_neg hflag]
    simp only [check, if_neg hfits, pure_bind]
    refine hread.mono fun r t ht => ?_
    obtain ⟨rfl, rfl⟩ := ht
    exact ⟨rfl, hlen', rfl⟩

theorem varHeadCount_eq_one {byte1 : UInt8} (h : varHeadCount byte1 = 1) :
    varHeadFlag byte1 = 1 := by
  unfold varHeadCount at h
  split at h
  next hflag => exact hflag.1
  next => cases h

theorem waitReply_heard {s : Session} {cmd result : UInt8} {head fields bs : Bytes}
    {rest : List (Except NetError UInt8)} (hsaid : Says cmd head result fields bs)
    (hsmall : 4 + fields.length ≤ messageSizeMax)
    (hincoming : s.world.incoming = bs.map .ok ++ rest) :
    Yields (waitReply cmd) s fun remainLen => Heard head result fields rest remainLen s := by
  obtain ⟨byte1, version, hcmd, hhead, hversion, rfl⟩ := hsaid
  have hbody : (version ++ result :: fields).length = 4 + fields.length := by
    rw [List.length_append, hversion, List.length_cons]
    omega
  generalize hb : version ++ result :: fields = body at hincoming hbody
  have hone : head.length ≤ 1 := by
    rw [hhead, varHeadCount]
    split <;> omega
  have hlength : head.length + body.length < 128 ^ 4 := by
    have hmax : messageSizeMax = 16384 := rfl
    omega
  obtain ⟨hfield, hvalue⟩ := lengthBytes_field 3 hlength
  have hs : s = s.arriving (.ok byte1 :: ((lengthBytes 4 (head.length + body.length)).map .ok ++
      (head.map .ok ++ (body.map .ok ++ rest)))) := by
    have heq : s.world.incoming = .ok byte1 ::
        ((lengthBytes 4 (head.length + body.length)).map .ok ++
          (head.map .ok ++ (body.map .ok ++ rest))) := by
      rw [hincoming, message, List.map_cons, List.map_append, List.map_append]
      simp only [List.cons_append, List.append_assoc]
    rw [← heq]
    rfl
  have hheader := readHeader_arriving s byte1 hfield (head.map .ok ++ (body.map .ok ++ rest))
  rw [← hs, hvalue] at hheader
  have hlen : (UInt32.ofNat (head.length + body.length)).toNat = head.length + body.length := by
    rw [UInt32.toNat_ofNat']
    omega
  have hrest := readRest_yields s hhead (by omega) (hbody ▸ hsmall) hlen rest
  have hwait : Yields waitAssignResponse s fun r t => r.1 = revCmdOf byte1 ∧
      r.2.toNat = body.length ∧ t = { s.arriving rest with affair := { s.affair with
        inHead := byte1, inVarHead := head.headD s.affair.inVarHead, inPayload := body } } := by
    obtain ⟨r, t, hrun, hr⟩ := hrest
    refine ⟨r, t, ?_, hr⟩
    rw [waitAssignResponse_eq]
    exact bind_returns.mpr ⟨_, _, hheader, hrun⟩
  have hreply : Yields (waitReply cmd) s fun len t => len.toNat = body.length ∧
      t = { s.arriving rest with affair := { s.affair with
        inHead := byte1, inVarHead := head.headD s.affair.inVarHead, inPayload := body } } :=
    hwait.bind fun r t ht => check_yields (not_not_intro (ht.1.trans hcmd)) (.pure ht.2)
  refine (hreply.and fun _ _ hrun => (waitReply_listens cmd).run hrun).mono fun len t ht => ?_
  obtain ⟨hlistens, hlen', rfl⟩ := ht
  refine ⟨hlistens, rfl, hlen'.trans hbody, ⟨version, hversion, hb.symm⟩, fun b hb => ?_⟩
  subst hb
  exact ⟨varHeadCount_eq_one hhead.symm, rfl⟩

end EzIot.Lbs
