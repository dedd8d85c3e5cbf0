import EzIot.Das.Aes
import EzIot.Lbs.Length
import EzIot.Lib.Logged

/-! # Where the parsers of replies read

`parse_authentication_ii` with `aes_128_decrypt_peer_pubkey`, `parse_refreshsessionkey_ii`
and `parse_crypto_data_rsp_das` once more, with a log of what they read from the reply,
what they give to the ciphers and what they take from the decrypted text. An offset is
subtracted from the length of the reply into 8 or 32 bits, and nothing compares the two.
-/

namespace EzIot.Lbs

open CText CJson Kernel Program Das

/-- What a parser touches. -/
inductive Access
  /-- Bytes of the payload. -/
  | field (off len : Nat)
  /-- The input of a cipher, from an offset of the payload. -/
  | ciphertext (off len : Nat)
  /-- What the cipher writes to a buffer. -/
  | output (len room : Nat)
  /-- Bytes of a decrypted text, which is so long without its padding. -/
  | plain (off len textLen : Nat)

/-- An access that stays inside, for a payload of so many bytes. The input of a cipher
is the whole rest of the payload. -/
def Access.Sound (received : Nat) : Access → Prop
  | .field off len => off + len ≤ received
  | .ciphertext off len => off + len = received
  | .output len room => len ≤ room
  | .plain off len textLen => off + len ≤ textLen

/-! ## The parsers -/

/-- `aes_cbc_128_dec_padding` under the errors of a handshake. -/
def cbcDecPadding (cipher : Cipher) (input : Bytes) : Except CryptoError (Bytes × UInt32) :=
  match aesCbc128DecPadding cipher input with
  | .ok r => .ok r
  | .error .aesInputLen => .error .aesInputLen
  | .error _ => .error .paddingUnmatched

/-- The length without the padding. -/
def textLen : Except CryptoError (Bytes × UInt32) → Nat
  | .ok (_, len) => len.toNat
  | .error _ => 0

variable (c : Crypto) (cbc : Bytes → Cipher)

/-- `aes_128_decrypt_peer_pubkey`. -/
def decryptPeerPubkeyLog (remainLen : UInt32) : Logged Session Access Stop Bytes := do
  let a ← beside (read Session.affair)
  let recvPlatKeyLen := (remainLen - 20).toUInt8
  log (.ciphertext 20 recvPlatKeyLen.toNat)
  beside (check (recvPlatKeyLen = 0) Code.aesInputLen)
  let plain := c.gcmDec (a.shareKey.take 16) (a.payloadBytes 20 recvPlatKeyLen.toNat)
    (a.payloadBytes 4 16)
  match plain with
  | .error .setdeckey => stop (.code Code.setdeckeyError)
  | _ =>
      log (.output recvPlatKeyLen.toNat 128)
      if 128 < recvPlatKeyLen then stop .fault else beside (crypto plain)

/-- `parse_authentication_ii`. -/
def parseAuthenticationIILog (remainLen : UInt32) : Logged Session Access Stop Unit := do
  let a ← beside (read Session.affair)
  beside (check (varHeadFlag (a.outHead.headD 0) ≠ 1) Code.internalErr)
  beside (check (varHeadFlag a.inHead ≠ 1) Code.platformInvalidData)
  if a.inVarHead ≠ a.outVarHead.headD 0 then
    beside (if findAuthType a.outVarHead a.inVarHead then stop (.code Code.authTypeNeedRematch)
      else stop (.code Code.authTypeMatchFail))
  else
    log (.field 3 1)
    beside (check (a.payloadByte 3 ≠ 0) (Code.platform (a.payloadByte 3)))
    let curAuthType ← beside (read fun s => s.kernel.devCurAuthType)
    if curAuthType = authProtocolEcdh then
      log (.field 4 16)
      let peerPubkey ← decryptPeerPubkeyLog c remainLen
      let masterkey ← beside (generateMasterkey c peerPubkey)
      beside (setAffair fun a => { a with masterKey := ((c.md5 masterkey).take 8).flatMap hexByte })
    else stop (.code Code.internalErr)

/-- `parse_refreshsessionkey_ii`. -/
def parseRefreshsessionkeyIILog (remainLen : UInt32) : Logged Session Access Stop Unit := do
  let a ← beside (read Session.affair)
  log (.field 3 1)
  beside (check (a.payloadByte 3 ≠ 0) (Code.platform (a.payloadByte 3)))
  beside (check ((remainLen - 4).toUInt8 ≠ 32) Code.platformAppointError)
  log (.ciphertext 4 32)
  log (.output 32 32)
  let dec := cbcDecPadding (cbc a.masterKey) (a.payloadBytes 4 32)
  let aseDst ← beside (crypto (dec.map Prod.fst))
  log (.plain 0 1 (textLen dec))
  beside (check (aseDst.getD 0 0 ≠ a.random1) Code.random1CheckError)
  log (.plain 1 1 (textLen dec))
  log (.plain 2 16 (textLen dec))
  beside (setAffair fun a => { a with
    random2 := aseDst.getD 1 0
    sessionKey := (List.range 16).map fun i => aseDst.getD (i + 2) 0 })

def parseCryptoDataRspDasLog (remainLen : UInt32) : Logged Session Access Stop DasInfo := do
  let a ← beside (read Session.affair)
  log (.field 3 1)
  beside (check (a.payloadByte 3 ≠ 0) (Code.platform (a.payloadByte 3)))
  let enSrcLen := remainLen - 4
  beside (malloc Code.mallocError)
  log (.ciphertext 4 enSrcLen.toNat)
  beside (check (enSrcLen = 0 ∨ enSrcLen % 16 ≠ 0) Code.aesInputLen)
  log (.output enSrcLen.toNat enSrcLen.toNat)
  let dec := cbcDecPadding (cbc a.sessionKey) (a.payloadBytes 4 enSrcLen.toNat)
  let deDst ← beside (crypto (dec.map Prod.fst))
  let heap ← beside (read fun s => s.world.heap)
  beside (lift (jsonParseDasServerInfo (deDst ++ heap)))

/-! ## They are the parsers of the handshake -/

/-- The cipher of the handshake is CBC mode with padding. -/
def Padded : Prop :=
  ∀ key input, c.cbcDec key input = (cbcDecPadding (cbc key) input).map Prod.fst

theorem decryptPeerPubkeyLog_forgets (remainLen : UInt32) :
    Forgets (decryptPeerPubkeyLog c remainLen) (decryptPeerPubkey c remainLen) := by
  refine (Forgets.beside _).bind fun a => ?_
  refine .log_bind _ ((Forgets.beside _).bind fun _ => ?_)
  generalize c.gcmDec _ _ _ = plain
  have hwrite (plain : Except CryptoError Bytes) :
      Forgets (do
        log (Access.output (remainLen - 20).toUInt8.toNat 128)
        if 128 < (remainLen - 20).toUInt8 then stop .fault else beside (crypto plain))
        (if 128 < (remainLen - 20).toUInt8 then stop .fault else crypto plain) :=
    .log_bind _ (.ite (.stop _) (.beside _))
  cases plain with
  | ok b => exact hwrite (.ok b)
  | error e =>
      cases e
      case setdeckey => exact .stop _
      all_goals exact hwrite _

theorem parseAuthenticationIILog_forgets (remainLen : UInt32) :
    Forgets (parseAuthenticationIILog c remainLen) (parseAuthenticationII c remainLen) := by
  refine (Forgets.beside _).bind fun a => ?_
  refine (Forgets.beside _).bind fun _ => (Forgets.beside _).bind fun _ => ?_
  refine .ite (.beside _) (.log_bind _ ((Forgets.beside _).bind fun _ => ?_))
  refine (Forgets.beside _).bind fun _ => .ite (.log_bind _ ?_) (.stop _)
  refine (decryptPeerPubkeyLog_forgets c remainLen).bind fun _ => ?_
  exact (Forgets.beside _).bind fun _ => .beside _

variable {c cbc}

theorem parseRefreshsessionkeyIILog_forgets (hpad : Padded c cbc) (remainLen : UInt32) :
    Forgets (parseRefreshsessionkeyIILog cbc remainLen) (parseRefreshsessionkeyII c remainLen) := by
  refine (Forgets.beside _).bind fun a => .log_bind _ ?_
  refine (Forgets.beside _).bind fun _ => (Forgets.beside _).bind fun _ => ?_
  rw [hpad]
  refine .log_bind _ (.log_bind _ ((Forgets.beside _).bind fun aseDst => .log_bind _ ?_))
  exact (Forgets.beside _).bind fun _ => .log_bind _ (.log_bind _ (.beside _))

theorem parseCryptoDataRspDasLog_forgets (hpad : Padded c cbc) (remainLen : UInt32) :
    Forgets (parseCryptoDataRspDasLog cbc remainLen) (parseCryptoDataRspDas c remainLen) := by
  refine (Forgets.beside _).bind fun a => .log_bind _ ((Forgets.beside _).bind fun _ => ?_)
  refine (Forgets.beside _).bind fun _ => .log_bind _ ((Forgets.beside _).bind fun _ => ?_)
  rw [hpad]
  refine .log_bind _ ((Forgets.beside _).bind fun deDst => ?_)
  exact (Forgets.beside _).bind fun _ => .beside _

/-! ## What they touch -/

/-- Everything that a parser touches lies inside the received payload. -/
def AllSound {α : Type} (x : Logged Session Access Stop α) (s : Session) : Prop :=
  ∀ e ∈ x.events s, e.Sound s.affair.inPayload.length

/-- The branch of `parse_authentication_ii` that reads the payload. -/
def Answered (a : Affair) : Prop :=
  varHeadFlag (a.outHead.headD 0) = 1 ∧ varHeadFlag a.inHead = 1 ∧
    a.inVarHead = a.outVarHead.headD 0

variable (c cbc)

/-- The cipher refuses its key and writes nothing. -/
def GcmSetkeyFails (a : Affair) (len : Nat) : Prop :=
  c.gcmDec (a.shareKey.take 16) (a.payloadBytes 20 len) (a.payloadBytes 4 16) = .error .setdeckey

/-- What `parse_authentication_ii` needs of a reply of `n` bytes: the result code, the
tag, and a key of at most 255 bytes; the buffer for the key has 128. -/
def PubkeyFits (s : Session) : Prop :=
  let n := s.affair.inPayload.length
  Answered s.affair → 4 ≤ n ∧ (s.affair.payloadByte 3 = 0 →
    s.kernel.devCurAuthType = authProtocolEcdh →
      20 ≤ n ∧ n - 20 < 256 ∧ (n - 20 ≤ 128 ∨ GcmSetkeyFails c s.affair (n - 20)))

/-- What `parse_refreshsessionkey_ii` needs: the result code, and behind it nothing
that has 32 bytes modulo 256 except 32 bytes; of these, 18 are left without padding when
the random number is the right one. -/
def SessionKeyFits (s : Session) : Prop :=
  let n := s.affair.inPayload.length
  4 ≤ n ∧ (s.affair.payloadByte 3 = 0 → (n - 4) % 256 = 32 →
    n - 4 = 32 ∧ ∀ plain len,
      aesCbc128DecPadding (cbc s.affair.masterKey) (s.affair.payloadBytes 4 32) =
        .ok (plain, len) → plain.getD 0 0 = s.affair.random1 → 18 ≤ len.toNat)

/-- What `parse_crypto_data_rsp_das` needs: the result code. -/
def ServerInfoFits (s : Session) : Prop := 4 ≤ s.affair.inPayload.length

theorem beside_check_bind {α : Type} {bad : Prop} [Decidable bad] (e : Nat)
    (f : Unit → Logged Session Access Stop α) (s : Session) (l : List Access) :
    (beside (check bad e) >>= f) (s, l) =
      if bad then (.error (.code e), (s, l)) else f () (s, l) := by
  unfold check
  split <;> rfl

/-- An offset taken off a length in 32 bits and then cut to 8 bits. -/
theorem toNat_sub_toUInt8 {remainLen : UInt32} {n k : Nat} (hlen : remainLen.toNat = n)
    (off : UInt32) (hoff : off.toNat = k) (hk : k ≤ n) :
    (remainLen - off).toUInt8.toNat = (n - k) % 256 := by
  have hlt := remainLen.toNat_lt
  rw [UInt32.toNat_toUInt8, UInt32.toNat_sub, hlen, hoff]
  omega

theorem events_decryptPeerPubkeyLog (remainLen : UInt32) (s : Session) (l : List Access) :
    ∃ l', ((decryptPeerPubkeyLog c remainLen) (s, l)).2.2 =
        (l ++ [.ciphertext 20 (remainLen - 20).toUInt8.toNat]) ++ l' ∧
      (l' = [] ∧ ((remainLen - 20).toUInt8 = 0 ∨
          GcmSetkeyFails c s.affair (remainLen - 20).toUInt8.toNat) ∨
        l' = [.output (remainLen - 20).toUInt8.toNat 128] ∧
          ¬ GcmSetkeyFails c s.affair (remainLen - 20).toUInt8.toNat) := by
  unfold decryptPeerPubkeyLog GcmSetkeyFails
  rw [beside_read_bind, log_bind, beside_check_bind]
  generalize (remainLen - 20).toUInt8 = len
  by_cases hzero : len = 0
  · rw [if_pos hzero]
    exact ⟨[], (List.append_nil _).symm, .inl ⟨rfl, .inl hzero⟩⟩
  · rw [if_neg hzero]
    generalize c.gcmDec _ _ _ = plain
    -- both ends of the branch that writes have logged the same
    have hwrite (plain : Except CryptoError Bytes) (l₀ : List Access) :
        ((do
          log (Access.output len.toNat 128)
          if 128 < len then stop .fault else beside (crypto plain) :
          Logged Session Access Stop Bytes) (s, l₀)).2.2 = l₀ ++ [.output len.toNat 128] := by
      rw [log_bind]
      split <;> rfl
    cases plain with
    | ok b => exact ⟨_, hwrite (.ok b) _, .inr ⟨rfl, fun h => nomatch h⟩⟩
    | error e =>
        cases e
        case setdeckey => exact ⟨[], (List.append_nil _).symm, .inl ⟨rfl, .inr rfl⟩⟩
        all_goals exact ⟨_, hwrite _ _, .inr ⟨rfl, fun h => nomatch h⟩⟩

theorem decryptPeerPubkeyLog_sound_iff {s : Session} {remainLen : UInt32}
    (hlen : remainLen.toNat = s.affair.inPayload.length) (l : List Access) :
    (∀ e ∈ ((decryptPeerPubkeyLog c remainLen) (s, l)).2.2,
        e.Sound s.affair.inPayload.length) ↔
      (∀ e ∈ l, e.Sound s.affair.inPayload.length) ∧
        20 ≤ s.affair.inPayload.length ∧ s.affair.inPayload.length - 20 < 256 ∧
          (s.affair.inPayload.length - 20 ≤ 128 ∨
            GcmSetkeyFails c s.affair (s.affair.inPayload.length - 20)) := by
  rcases events_decryptPeerPubkeyLog c remainLen s l with ⟨l', hevents, hcases⟩
  have hbyte : (remainLen - 20).toUInt8 = 0 ↔ (remainLen - 20).toUInt8.toNat = 0 := by
    rw [← UInt8.toNat_inj]
    rfl
  rw [hevents, List.forall_mem_append, List.forall_mem_append, List.forall_mem_singleton]
  change (_ ∧ 20 + (remainLen - 20).toUInt8.toNat = s.affair.inPayload.length) ∧ _ ↔ _
  rw [hbyte] at hcases
  by_cases hshort : 20 ≤ s.affair.inPayload.length
  · have hcut := toNat_sub_toUInt8 hlen 20 (show (20 : UInt32).toNat = 20 from rfl) hshort
    have hlt := Nat.mod_lt (s.affair.inPayload.length - 20) (show 0 < 256 by omega)
    generalize (remainLen - 20).toUInt8.toNat = len at hcut hcases ⊢
    constructor
    · intro h
      have hwhole : len = s.affair.inPayload.length - 20 := by omega
      rw [hwhole] at hcases
      refine ⟨h.1.1, hshort, by omega, ?_⟩
      rcases hcases with ⟨_, hzero | hset⟩ | ⟨hwrite, _⟩
      · exact .inl (by omega)
      · exact .inr hset
      · rw [hwrite, List.forall_mem_singleton] at h
        have hroom : s.affair.inPayload.length - 20 ≤ 128 := h.2
        exact .inl hroom
    · intro h
      have hwhole : len = s.affair.inPayload.length - 20 := by omega
      rw [← hwhole] at h
      refine ⟨⟨h.1, by omega⟩, ?_⟩
      rcases hcases with ⟨hnone, _⟩ | ⟨hwrite, hset⟩
      · rw [hnone]
        intro e he
        cases he
      · rw [hwrite, List.forall_mem_singleton]
        rcases h.2.2.2 with hfits | hfails
        · exact hfits
        · exact absurd hfails hset
  · exact iff_of_false (fun h => hshort (by omega)) fun h => hshort h.2.1

theorem pubkey_allSound_iff {s : Session} {remainLen : UInt32}
    (hlen : remainLen.toNat = s.affair.inPayload.length) :
    AllSound (parseAuthenticationIILog c remainLen) s ↔ PubkeyFits c s := by
  unfold AllSound PubkeyFits Answered
  dsimp only
  unfold events parseAuthenticationIILog
  rw [beside_read_bind, beside_check_bind]
  by_cases hout : varHeadFlag (s.affair.outHead.headD 0) = 1
  · rw [if_neg (not_not.mpr hout), beside_check_bind]
    by_cases hin : varHeadFlag s.affair.inHead = 1
    · rw [if_neg (not_not.mpr hin)]
      by_cases hsame : s.affair.inVarHead = s.affair.outVarHead.headD 0
      · rw [if_neg (not_not.mpr hsame), log_bind, beside_check_bind]
        have hsilent (peerPubkey : Bytes) : Silent (do
            let masterkey ← beside (generateMasterkey c peerPubkey)
            beside (setAffair fun a =>
              { a with masterKey := ((c.md5 masterkey).take 8).flatMap hexByte }) :
              Logged Session Access Stop Unit) :=
          (Silent.beside _).bind fun _ => .beside _
        by_cases hcode : s.affair.payloadByte 3 = 0
        · rw [if_neg (not_not.mpr hcode), beside_read_bind]
          by_cases hecdh : s.kernel.devCurAuthType = authProtocolEcdh
          · rw [if_pos hecdh, log_bind, Silent.log_of_bind hsilent,
              decryptPeerPubkeyLog_sound_iff c hlen]
            constructor
            · intro h _
              have hfour : 3 + 1 ≤ s.affair.inPayload.length :=
                h.1 (.field 3 1) (by simp)
              exact ⟨hfour, fun _ _ => h.2⟩
            · intro h
              have hbody := (h ⟨hout, hin, hsame⟩).2 hcode hecdh
              have htwenty := hbody.1
              refine ⟨?_, hbody⟩
              intro e he
              rcases List.mem_pair.mp he with rfl | rfl
              · change 3 + 1 ≤ s.affair.inPayload.length
                omega
              · exact htwenty
          · rw [if_neg hecdh]
            change (∀ e ∈ [Access.field 3 1], _) ↔ _
            rw [List.forall_mem_singleton]
            constructor
            · intro h _
              exact ⟨h, fun _ h => absurd h hecdh⟩
            · intro h
              exact (h ⟨hout, hin, hsame⟩).1
        · rw [if_pos hcode]
          change (∀ e ∈ [Access.field 3 1], _) ↔ _
          rw [List.forall_mem_singleton]
          constructor
          · intro h _
            exact ⟨h, fun h => absurd h hcode⟩
          · intro h
            exact (h ⟨hout, hin, hsame⟩).1
      · rw [if_pos hsame]
        refine iff_of_true ?_ fun h => absurd h.2.2 hsame
        intro e he
        cases he
    · rw [if_pos hin]
      refine iff_of_true ?_ fun h => absurd h.2.1 hin
      intro e he
      cases he
  · rw [if_pos hout]
    refine iff_of_true ?_ fun h => absurd h.1 hout
    intro e he
    cases he

theorem cbcDecPadding_ok_iff {cipher : Cipher} {input : Bytes} {r : Bytes × UInt32} :
    cbcDecPadding cipher input = .ok r ↔ aesCbc128DecPadding cipher input = .ok r := by
  unfold cbcDecPadding
  split
  · next h => simp [h]
  · next h => simp [h]
  · next h => simp [h]

theorem sixteen_le_textLen {cipher : Cipher} {input plain : Bytes} {len : UInt32}
    (hinput : input.length = 32) (h : aesCbc128DecPadding cipher input = .ok (plain, len)) :
    16 ≤ len.toNat := by
  rcases aesCbc128DecPadding_eq_ok h (by omega) with ⟨hplain, data, hdata, hlen⟩
  have hpad := length_padding data
  rw [hdata, List.length_append] at hplain
  omega

/-- What is taken from the decrypted random numbers and session key. -/
def plainAccesses (random1 : UInt8) : Except CryptoError (Bytes × UInt32) → List Access
  | .error _ => []
  | .ok (plain, len) =>
      .plain 0 1 len.toNat ::
        if plain.getD 0 0 ≠ random1 then []
        else [.plain 1 1 len.toNat, .plain 2 16 len.toNat]

/-- The part of `parse_refreshsessionkey_ii` behind the checks of the length. -/
theorem events_refresh_tail (s : Session) (l : List Access)
    (dec : Except CryptoError (Bytes × UInt32)) :
    ((do
      let aseDst ← beside (crypto (dec.map Prod.fst))
      log (Access.plain 0 1 (textLen dec))
      beside (check (aseDst.getD 0 0 ≠ s.affair.random1) Code.random1CheckError)
      log (.plain 1 1 (textLen dec))
      log (.plain 2 16 (textLen dec))
      beside (setAffair fun a => { a with
        random2 := aseDst.getD 1 0
        sessionKey := (List.range 16).map fun i => aseDst.getD (i + 2) 0 }) :
      Logged Session Access Stop Unit) (s, l)).2.2 =
      l ++ plainAccesses s.affair.random1 dec := by
  cases dec with
  | error e => exact (List.append_nil l).symm
  | ok r =>
      have hcrypto : crypto ((Except.ok r : Except CryptoError (Bytes × UInt32)).map Prod.fst) s =
        (.ok r.1, s) := rfl
      rw [beside_bind_ok hcrypto, log_bind, beside_check_bind]
      by_cases hrandom : r.1.getD 0 0 ≠ s.affair.random1
      · rw [if_pos hrandom, plainAccesses, if_pos hrandom]
        rfl
      · rw [if_neg hrandom, plainAccesses, if_neg hrandom, log_bind, log_bind]
        simp only [List.append_assoc, List.cons_append, List.nil_append]
        rfl

theorem plainAccesses_sound_iff (cipher : Cipher) {input : Bytes} (hinput : input.length = 32)
    (random1 : UInt8) (received : Nat) :
    (∀ e ∈ plainAccesses random1 (cbcDecPadding cipher input), e.Sound received) ↔
      ∀ plain len, aesCbc128DecPadding cipher input = .ok (plain, len) →
        plain.getD 0 0 = random1 → 18 ≤ len.toNat := by
  cases hdec : cbcDecPadding cipher input with
  | error e =>
      constructor
      · intro _ plain len h
        rw [← cbcDecPadding_ok_iff, hdec] at h
        cases h
      · intro _ e he
        cases he
  | ok r =>
      rw [cbcDecPadding_ok_iff] at hdec
      have hlong := sixteen_le_textLen hinput hdec
      rw [plainAccesses]
      constructor
      · intro h plain len heq hrandom
        rw [hdec] at heq
        cases heq
        rw [if_neg (fun hne => hne hrandom)] at h
        exact h (.plain 2 16 len.toNat) (by simp)
      · intro h e he
        rcases List.mem_cons.mp he with rfl | he
        · change 0 + 1 ≤ r.2.toNat
          omega
        · split at he
          · cases he
          · next hrandom =>
              have hkey := h r.1 r.2 hdec (not_not.mp hrandom)
              rcases List.mem_pair.mp he with rfl | rfl
              · change 1 + 1 ≤ r.2.toNat
                omega
              · change 2 + 16 ≤ r.2.toNat
                omega

/-- What `parse_refreshsessionkey_ii` touches. -/
theorem events_parseRefreshsessionkeyIILog (remainLen : UInt32) (s : Session) :
    (parseRefreshsessionkeyIILog cbc remainLen).events s =
      .field 3 1 ::
        if s.affair.payloadByte 3 ≠ 0 ∨ (remainLen - 4).toUInt8 ≠ 32 then []
        else .ciphertext 4 32 :: .output 32 32 ::
          plainAccesses s.affair.random1
            (cbcDecPadding (cbc s.affair.masterKey) (s.affair.payloadBytes 4 32)) := by
  unfold events parseRefreshsessionkeyIILog
  rw [beside_read_bind, log_bind, beside_check_bind]
  by_cases hcode : s.affair.payloadByte 3 ≠ 0
  · rw [if_pos hcode, if_pos (.inl hcode)]
    rfl
  · rw [if_neg hcode, beside_check_bind]
    by_cases hlen : (remainLen - 4).toUInt8 ≠ 32
    · rw [if_pos hlen, if_pos (.inr hlen)]
      rfl
    · rw [if_neg hlen, if_neg (not_or.mpr ⟨hcode, hlen⟩), log_bind, log_bind]
      exact events_refresh_tail s _ _

theorem length_payloadBytes (a : Affair) (off len : Nat) : (a.payloadBytes off len).length = len := by
  rw [Affair.payloadBytes, List.length_map, List.length_range]

theorem sessionKey_allSound_iff {s : Session} {remainLen : UInt32}
    (hlen : remainLen.toNat = s.affair.inPayload.length) :
    AllSound (parseRefreshsessionkeyIILog cbc remainLen) s ↔ SessionKeyFits cbc s := by
  unfold AllSound SessionKeyFits
  rw [events_parseRefreshsessionkeyIILog]
  have hplain := plainAccesses_sound_iff (cbc s.affair.masterKey)
    (length_payloadBytes s.affair 4 32) s.affair.random1 s.affair.inPayload.length
  by_cases hfour : 4 ≤ s.affair.inPayload.length
  · have hcut := toNat_sub_toUInt8 hlen 4 (show (4 : UInt32).toNat = 4 from rfl) hfour
    have hbyte : (remainLen - 4).toUInt8 = 32 ↔ (s.affair.inPayload.length - 4) % 256 = 32 := by
      rw [← UInt8.toNat_inj, hcut]
      rfl
    rw [List.forall_mem_cons]
    by_cases hcode : s.affair.payloadByte 3 = 0
    · by_cases hmod : (s.affair.inPayload.length - 4) % 256 = 32
      · rw [if_neg (not_or.mpr ⟨not_not.mpr hcode, not_not.mpr (hbyte.mpr hmod)⟩),
          List.forall_mem_cons, List.forall_mem_cons, hplain]
        constructor
        · intro h
          have hcipher : 4 + 32 = s.affair.inPayload.length := h.2.1
          exact ⟨hfour, fun _ _ => ⟨by omega, h.2.2.2⟩⟩
        · intro h
          have hbody := h.2 hcode hmod
          refine ⟨hfour, ?_, Nat.le_refl 32, hbody.2⟩
          change 4 + 32 = s.affair.inPayload.length
          omega
      · rw [if_pos (.inr fun h => hmod (hbyte.mp h))]
        exact iff_of_true ⟨hfour, by simp⟩ ⟨hfour, fun _ h => absurd h hmod⟩
    · rw [if_pos (.inl hcode)]
      exact iff_of_true ⟨hfour, by simp⟩ ⟨hfour, fun h => absurd h hcode⟩
  · refine iff_of_false (fun h => hfour ?_) fun h => hfour h.1
    exact h _ List.mem_cons_self

theorem events_parseCryptoDataRspDasLog (remainLen : UInt32) (s : Session) :
    ∃ l, (parseCryptoDataRspDasLog cbc remainLen).events s = .field 3 1 :: l ∧
      ∀ e ∈ l, e = .ciphertext 4 (remainLen - 4).toNat ∨
        e = .output (remainLen - 4).toNat (remainLen - 4).toNat := by
  unfold events parseCryptoDataRspDasLog
  rw [beside_read_bind, log_bind, beside_check_bind]
  by_cases hcode : s.affair.payloadByte 3 ≠ 0
  · rw [if_pos hcode]
    exact ⟨[], rfl, by simp⟩
  · rw [if_neg hcode]
    cases hmalloc : malloc Code.mallocError s with
    | mk r t =>
        cases r with
        | error e =>
            rw [beside_bind_error hmalloc]
            exact ⟨[], rfl, by simp⟩
        | ok u =>
            rw [beside_bind_ok hmalloc, log_bind, beside_check_bind]
            by_cases hbad : remainLen - 4 = 0 ∨ (remainLen - 4) % 16 ≠ 0
            · rw [if_pos hbad]
              exact ⟨[.ciphertext 4 (remainLen - 4).toNat], rfl, by simp⟩
            · rw [if_neg hbad, log_bind]
              have hsilent (deDst : Bytes) : Silent (do
                  let heap ← beside (read fun s => s.world.heap)
                  beside (lift (jsonParseDasServerInfo (deDst ++ heap))) :
                    Logged Session Access Stop DasInfo) :=
                (Silent.beside _).bind fun _ => .beside _
              rw [Silent.log_of_bind hsilent]
              exact ⟨[.ciphertext 4 (remainLen - 4).toNat,
                .output (remainLen - 4).toNat (remainLen - 4).toNat], rfl, by simp⟩

theorem serverInfo_allSound_iff {s : Session} {remainLen : UInt32}
    (hlen : remainLen.toNat = s.affair.inPayload.length) :
    AllSound (parseCryptoDataRspDasLog cbc remainLen) s ↔ ServerInfoFits s := by
  rcases events_parseCryptoDataRspDasLog cbc remainLen s with ⟨l, hevents, hrest⟩
  unfold AllSound ServerInfoFits
  rw [hevents]
  constructor
  · intro h
    exact h _ List.mem_cons_self
  · intro hfour e he
    have hsub : (remainLen - 4).toNat = s.affair.inPayload.length - 4 := by
      have hlt := remainLen.toNat_lt
      rw [UInt32.toNat_sub, hlen]
      change (2 ^ 32 - 4 + s.affair.inPayload.length) % 2 ^ 32 = _
      omega
    rcases List.mem_cons.mp he with rfl | he
    · exact hfour
    · rcases hrest e he with rfl | rfl
      · change 4 + (remainLen - 4).toNat = s.affair.inPayload.length
        omega
      · exact Nat.le_refl _

/-- When the parsers of an accepted reply stay inside it. -/
theorem response_lengths_iff {s t : Session} {cmd : UInt8} {remainLen : UInt32}
    (h : waitAssignResponse s = (.ok (cmd, remainLen), t)) :
    (AllSound (parseAuthenticationIILog c remainLen) t ↔ PubkeyFits c t) ∧
      (AllSound (parseRefreshsessionkeyIILog cbc remainLen) t ↔ SessionKeyFits cbc t) ∧
      (AllSound (parseCryptoDataRspDasLog cbc remainLen) t ↔ ServerInfoFits t) := by
  rcases waitAssignResponse_ok h with ⟨_, _, _, _, _, hlen, _⟩
  exact ⟨pubkey_allSound_iff c hlen, sessionKey_allSound_iff cbc hlen,
    serverInfo_allSound_iff cbc hlen⟩

/-- A cipher that changes nothing. -/
def plainCipher : Cipher where
  enc := id
  dec := id
  length_enc _ _ := rfl
  length_dec _ _ := rfl
  dec_enc _ _ := rfl

/-- A refusal with the result code 1. -/
def refusal : Session := quietSession ([0x80, 0x04, 0x00, 0x00, 0x00, 0x01].map .ok)

theorem response_lengths_refusal :
    AllSound (parseAuthenticationIILog plainCrypto 4) (waitAssignResponse refusal).2 ∧
      AllSound (parseRefreshsessionkeyIILog (fun _ => plainCipher) 4)
        (waitAssignResponse refusal).2 ∧
      AllSound (parseCryptoDataRspDasLog (fun _ => plainCipher) 4)
        (waitAssignResponse refusal).2 := by
  have hrun : waitAssignResponse refusal = (.ok (8, 4), (waitAssignResponse refusal).2) :=
    Prod.ext rfl rfl
  have hcode : (waitAssignResponse refusal).2.affair.payloadByte 3 ≠ 0 := by decide +kernel
  have hfour : 4 ≤ (waitAssignResponse refusal).2.affair.inPayload.length := by decide +kernel
  obtain ⟨hpubkey, hsession, hserver⟩ :=
    response_lengths_iff plainCrypto (fun _ => plainCipher) hrun
  exact ⟨hpubkey.mpr fun _ => ⟨hfour, fun hzero => absurd hzero hcode⟩,
    hsession.mpr ⟨hfour, fun hzero => absurd hzero hcode⟩, hserver.mpr hfour⟩

/-- An answer of one byte. -/
def shortAnswer : Session := quietSession ([0xB0, 0x01, 0x00].map .ok)

/-- It is accepted; its result code is read behind its end, and the length of the
encrypted address is `2 ^ 32 - 3`. -/
theorem short_answer_not_sound :
    (waitAssignResponse shortAnswer).1 = .ok (cryptoDataRsp, 1) ∧
      ¬ AllSound (parseCryptoDataRspDasLog (fun _ => plainCipher) 1)
        (waitAssignResponse shortAnswer).2 := by
  have hone : ¬ 4 ≤ (waitAssignResponse shortAnswer).2.affair.inPayload.length := by
    decide +kernel
  refine ⟨rfl, fun h => hone ?_⟩
  exact (serverInfo_allSound_iff _ rfl).mp h

end EzIot.Lbs
