import EzIot.Lbs.Credentials

/-! # The authentication type over many handshakes

The server may name another authentication type than the current one. The device
looks for it in the buffer of its request, padding included.
-/

namespace EzIot.Lbs

open CText CJson Kernel Program

variable {c : Crypto} {s s' : Session}

/-! ## The request -/

/-- The variable header of the first request. -/
def requestVarHead (k : SdkKernel) : Bytes :=
  let varHead := [k.devCurAuthType, k.devAuthTypeCount] ++
    k.devAuthTypeGroup.take k.devAuthTypeCount.toNat
  varHead ++ List.replicate (16 - varHead.length) 0

theorem headerSerialize_returns {u : Unit} (h : headerSerialize authenticationI s = (.ok u, s')) :
    s'.affair.outVarHead = requestVarHead s.kernel ∧
      varHeadFlag (s'.affair.outHead.headD 0) = 1 := by
  simp only [headerSerialize, read_bind, if_true] at h
  split at h
  · cases h
  · obtain rfl := write_returns.mp h
    refine ⟨rfl, ?_⟩
    show varHeadFlag (((authenticationI &&& 0x0F) <<< 4) ||| 0x2 ||| 0x8) = 1
    decide

theorem sendAuthenticationI_returns {u : Unit} (h : sendAuthenticationI c s = (.ok u, s')) :
    s'.affair.outVarHead = requestVarHead (fixed s.kernel) ∧
      varHeadFlag (s'.affair.outHead.headD 0) = 1 := by
  obtain ⟨_, s₁, h₁, h⟩ := bind_returns.mp h
  rw [read_bind] at h
  obtain ⟨_, s₂, h₂, h⟩ := bind_returns.mp h
  rw [read_bind] at h
  split at h
  · obtain ⟨_, s₃, h₃, h⟩ := bind_returns.mp h
    obtain ⟨_, s₄, hheader, hsend⟩ := bind_returns.mp h
    have hquiet : Quiet s s₃ := Trans.trans (Trans.trans ((commonSerialize_quiet _).run h₁)
      ((appendPayload_quiet _).run h₂)) ((appendPubkey_quiet c).ignore.run h₃)
    obtain ⟨hvar, hflag⟩ := headerSerialize_returns hheader
    have hsent := (sendLbsMsg_listens.run hsend).affair
    have hvar' : s'.affair.outVarHead = s₄.affair.outVarHead :=
      (congrArg Affair.outVarHead hsent :)
    have hhead : s'.affair.outHead = s₄.affair.outHead := (congrArg Affair.outHead hsent :)
    rw [hvar', hhead, hvar]
    exact ⟨(congrArg requestVarHead hquiet.kernel :), hflag⟩
  · cases h

/-- Everything up to the reply to the first request. -/
def awaitReply (c : Crypto) (nUpper : Bool) : Run UInt32 := do
  initLbsAffair c nUpper
  lbsConnect
  sendAuthenticationI c
  waitReply authenticationII

theorem awaitReply_scratch (nUpper : Bool) : Within Scratch (awaitReply c nUpper) := by
  refine .bind (initLbsAffair_scratch c _) fun _ => .bind (quietly lbsConnect_quiet) fun _ => ?_
  exact .bind (quietly (sendAuthenticationI_quiet c)) fun _ => quietly (waitReply_quiet _)

theorem awaitReply_returns {nUpper : Bool} {len : UInt32}
    (h : awaitReply c nUpper s = (.ok len, s')) :
    s'.affair.outVarHead = requestVarHead (fixed s.kernel) ∧
      varHeadFlag (s'.affair.outHead.headD 0) = 1 := by
  obtain ⟨_, s₁, h₁, h⟩ := bind_returns.mp h
  obtain ⟨_, s₂, h₂, h⟩ := bind_returns.mp h
  obtain ⟨_, s₃, hsend, hwait⟩ := bind_returns.mp h
  have hscratch : Scratch s s₂ :=
    Trans.trans ((initLbsAffair_scratch c _).run h₁) (lbsConnect_quiet.run h₂).scratch
  obtain ⟨hvar, hflag⟩ := sendAuthenticationI_returns hsend
  have hwaited := ((waitReply_listens _).run hwait).affair
  have hvar' : s'.affair.outVarHead = s₃.affair.outVarHead :=
    (congrArg Affair.outVarHead hwaited :)
  have hhead : s'.affair.outHead = s₃.affair.outHead := (congrArg Affair.outHead hwaited :)
  rw [hvar', hhead, hvar]
  exact ⟨(congrArg requestVarHead hscratch.kernel :), hflag⟩

/-! ## The reply -/

/-- The reply to the first request carries the authentication type `t`. -/
def Offers (c : Crypto) (nUpper : Bool) (s : Session) (t : UInt8) : Prop :=
  ∃ len s', (do openEcdh; awaitReply c nUpper) s = (.ok len, s') ∧
    varHeadFlag s'.affair.inHead = 1 ∧ s'.affair.inVarHead = t

/-- The members for the authentication type as `ez_kernel_init` sets them. -/
structure Ecdh (k : SdkKernel) : Prop where
  cur : k.devCurAuthType = authProtocolEcdh
  count : k.devAuthTypeCount = 1
  group : k.devAuthTypeGroup = authProtocolEcdh :: List.replicate 63 0

theorem Ecdh.requestVarHead_eq {k : SdkKernel} (h : Ecdh k) :
    requestVarHead k = [1, 1, 1] ++ List.replicate 13 0 := by
  simp only [requestVarHead, h.cur, h.count, h.group]
  decide

/-- The padding counts as a type. -/
theorem findAuthType_padded (t : UInt8) :
    findAuthType ([1, 1, 1] ++ List.replicate 13 0) t = true ↔ t = 1 ∨ t = 0 := by
  have hrange : List.range 13 = 0 :: (List.range 12).map (· + 1) := by decide
  simp only [findAuthType, hrange, List.any_cons, List.any_map, Bool.or_eq_true, List.any_eq_true,
    List.mem_range, Function.comp_apply, beq_iff_eq]
  constructor
  · rintro (h | ⟨i, hi, h⟩)
    · exact .inl h.symm
    · refine .inr (h.symm.trans ?_)
      show (List.replicate 13 (0 : UInt8)).getD i 0 = 0
      rw [List.getD_eq_getElem?_getD, List.getElem?_replicate]
      split <;> rfl
  · rintro (rfl | rfl)
    · exact .inl rfl
    · exact .inr ⟨0, by decide, rfl⟩

theorem rematch_cur (x : Run Unit) (s : Session) :
    (rematch x s).2.kernel.devCurAuthType =
      if (x s).1 = .error (.code Code.authTypeNeedRematch) then (x s).2.affair.inVarHead
      else (x s).2.kernel.devCurAuthType := by
  rcases hx : x s with ⟨(e | _) | u, t⟩
  · by_cases he : e = Code.authTypeNeedRematch
    · simp [rematch, hx, he]
    · simp [rematch, hx, he]
  · simp [rematch, hx]
  · simp [rematch, hx]

def SameVarHead (s s' : Session) : Prop := s'.affair.inVarHead = s.affair.inVarHead

instance : Std.Refl SameVarHead := ⟨fun _ => rfl⟩

instance : IsTrans Session SameVarHead := ⟨fun _ _ _ h h' => Eq.trans h' h⟩

theorem parseAuthenticationII_sameVarHead (remainLen : UInt32) :
    Within SameVarHead (parseAuthenticationII c remainLen) := by
  have hcheck (bad : Prop) [Decidable bad] (e : Nat) : Within SameVarHead (check bad e) :=
    .ite (.stop _) (.pure _)
  refine .bind (.read _) fun a => .bind (hcheck _ _) fun _ => .bind (hcheck _ _) fun _ => ?_
  refine .ite (.ite (.stop _) (.stop _)) (.bind (hcheck _ _) fun _ => .bind (.read _) fun _ => ?_)
  refine .ite (.bind ?_ fun _ => .bind ?_ fun _ => .write fun _ => rfl) (.stop _)
  · refine .bind (.read _) fun a => .bind (hcheck _ _) fun _ => ?_
    dsimp only
    split
    · exact .stop _
    · exact .ite (.stop _) (.lift _)
  · exact .bind (hcheck _ _) fun _ => .lift _

theorem check_false {α : Type} {bad : Prop} [Decidable bad] {e : Nat} {f : Unit → Run α}
    (h : ¬ bad) : (check bad e >>= f) s = f () s := by
  simp only [check, if_neg h]
  rfl

theorem check_true {α : Type} {bad : Prop} [Decidable bad] {e : Nat} {f : Unit → Run α}
    (h : bad) : (check bad e >>= f) s = (.error (.code e), s) := by
  simp only [check, if_pos h]
  rfl

theorem parseAuthenticationII_flagless {len : UInt32}
    (hout : varHeadFlag (s.affair.outHead.headD 0) = 1) (hin : varHeadFlag s.affair.inHead ≠ 1) :
    parseAuthenticationII c len s = (.error (.code Code.platformInvalidData), s) := by
  rw [parseAuthenticationII, read_bind, check_false (not_not.mpr hout), check_true hin]

theorem parseAuthenticationII_other {len : UInt32}
    (hout : varHeadFlag (s.affair.outHead.headD 0) = 1) (hin : varHeadFlag s.affair.inHead = 1)
    (htype : s.affair.inVarHead ≠ s.affair.outVarHead.headD 0) :
    parseAuthenticationII c len s =
      (.error (.code (if findAuthType s.affair.outVarHead s.affair.inVarHead
        then Code.authTypeNeedRematch else Code.authTypeMatchFail)), s) := by
  rw [parseAuthenticationII, read_bind, check_false (not_not.mpr hout),
    check_false (not_not.mpr hin), if_pos htype]
  split <;> rfl

theorem parse_rematch_cur {len : UInt32} (hecdh : Ecdh s.kernel)
    (hvar : s.affair.outVarHead = [1, 1, 1] ++ List.replicate 13 0)
    (hout : varHeadFlag (s.affair.outHead.headD 0) = 1) :
    (rematch (parseAuthenticationII c len) s).2.kernel.devCurAuthType = authProtocolEcdh ↔
      ¬ (varHeadFlag s.affair.inHead = 1 ∧ s.affair.inVarHead = 0) := by
  have hkept : (parseAuthenticationII c len s).2.kernel.devCurAuthType = authProtocolEcdh :=
    (congrArg SdkKernel.devCurAuthType (parseAuthenticationII_scratch c len s).kernel :).trans
      hecdh.cur
  have hsame := parseAuthenticationII_sameVarHead (c := c) len s
  rw [rematch_cur, hsame]
  by_cases hin : varHeadFlag s.affair.inHead = 1
  · by_cases hcur : s.affair.inVarHead = authProtocolEcdh
    · have hzero : ¬ authProtocolEcdh = 0 := by decide
      rw [hkept, hcur, ite_self]
      simp [hzero]
    · have hother : s.affair.inVarHead ≠ s.affair.outVarHead.headD 0 := by
        rw [hvar]
        exact hcur
      rw [parseAuthenticationII_other hout hin hother, hvar]
      by_cases hzero : s.affair.inVarHead = 0
      · rw [if_pos ((findAuthType_padded _).mpr (.inr hzero))]
        simp [hin, hzero, authProtocolEcdh]
      · have hmiss : ¬ findAuthType ([1, 1, 1] ++ List.replicate 13 0) s.affair.inVarHead = true := by
          rw [findAuthType_padded]
          rintro (h | h)
          · exact hcur h
          · exact hzero h
        rw [if_neg hmiss, if_neg (by simp [Code.authTypeMatchFail, Code.authTypeNeedRematch])]
        simp [hecdh.cur, hzero]
  · rw [parseAuthenticationII_flagless hout hin,
      if_neg (by simp [Code.platformInvalidData, Code.authTypeNeedRematch])]
    simp [hecdh.cur, hin]

/-! ## One handshake -/

/-- The members that the types of a request are read from. -/
def authTypes (k : SdkKernel) : UInt8 × UInt8 × List UInt8 :=
  (k.devCurAuthType, k.devAuthTypeCount, k.devAuthTypeGroup)

def SameTypes (s s' : Session) : Prop := authTypes s'.kernel = authTypes s.kernel

instance : IsTrans Session SameTypes := ⟨fun _ _ _ h h' => Eq.trans h' h⟩

theorem Kept.sameTypes (h : Kept s s') : SameTypes s s' := (congrArg authTypes h :)

theorem Ecdh.of_sameTypes (hecdh : Ecdh s.kernel) (h : SameTypes s s') : Ecdh s'.kernel :=
  ⟨(congrArg Prod.fst h :).trans hecdh.cur, (congrArg (·.2.1) h :).trans hecdh.count,
    (congrArg (·.2.2) h :).trans hecdh.group⟩

theorem awaitReply_sameTypes (nUpper : Bool) :
    Within SameTypes (do openEcdh; awaitReply c nUpper) :=
  .bind (openEcdh_within (fun _ _ h => h.scratch.kept.sameTypes) fun _ => rfl) fun _ =>
    (awaitReply_scratch nUpper).mono fun _ _ h => h.kept.sameTypes

/-- What follows the reply. -/
def afterReply (c : Crypto) (ask : Run Unit) (cmd : UInt8) (len : UInt32) : Run Unit := do
  rematch (parseAuthenticationII c len)
  clearLbsAffairBuf
  ask
  waitReply cmd >>= parseAuthenticationCreateDevId c
  finishRedirect c

theorem open_negotiate_eq (nUpper : Bool) (ask : Run Unit) (cmd : UInt8) :
    (do openEcdh; negotiate c nUpper ask cmd) =
      (do openEcdh; awaitReply c nUpper) >>= afterReply c ask cmd := by
  delta afterReply
  simp only [negotiate, exchangeKeys, waitAuthenticationII, awaitReply, bind_assoc]

theorem afterReply_cur {ask : Run Unit} {cmd : UInt8} {len : UInt32} (hask : Within Quiet ask) :
    (afterReply c ask cmd len s).2.kernel.devCurAuthType =
      (rematch (parseAuthenticationII c len) s).2.kernel.devCurAuthType := by
  have hrest : Within Kept (do
      clearLbsAffairBuf
      ask
      waitReply cmd >>= parseAuthenticationCreateDevId c
      finishRedirect c) :=
    .bind (keeping (quietly clearLbsAffairBuf_quiet)) fun _ => negotiated_kept hask
  rw [afterReply, bind_run]
  rcases hparse : rematch (parseAuthenticationII c len) s with ⟨e | u, t⟩
  · rfl
  · exact (congrArg SdkKernel.devCurAuthType (hrest t) :)

theorem negotiate_cur {nUpper : Bool} {ask : Run Unit} {cmd : UInt8} (hask : Within Quiet ask)
    (hecdh : Ecdh s.kernel) :
    (withEcdh (negotiate c nUpper ask cmd) s).2.kernel.devCurAuthType = authProtocolEcdh ↔
      ¬ Offers c nUpper s 0 := by
  rw [withEcdh_eq (negotiate_framed hask) hecdh.cur, open_negotiate_eq, bind_run]
  rcases hawait : (do openEcdh; awaitReply c nUpper) s with ⟨e | len, t⟩ <;> rw [hawait]
  · have hsame := (awaitReply_sameTypes nUpper).run hawait
    have hnone : ¬ Offers c nUpper s 0 := by
      rintro ⟨len, t', h, -⟩
      rw [hawait] at h
      cases h
    exact iff_of_true (hecdh.of_sameTypes hsame).cur hnone
  · have hsame := (awaitReply_sameTypes nUpper).run hawait
    obtain ⟨_, t₁, hopen, hwait⟩ := bind_returns.mp hawait
    obtain ⟨hvar, hout⟩ := awaitReply_returns hwait
    have hopened : Ecdh t₁.kernel := hecdh.of_sameTypes
      ((openEcdh_within (fun _ _ h => h.scratch.kept.sameTypes) fun _ => rfl).run hopen)
    have hfixed : Ecdh (fixed t₁.kernel) := ⟨hopened.cur, hopened.count, hopened.group⟩
    rw [hfixed.requestVarHead_eq] at hvar
    show (afterReply c ask cmd len t).2.kernel.devCurAuthType = authProtocolEcdh ↔ _
    rw [afterReply_cur hask, parse_rematch_cur (hecdh.of_sameTypes hsame) hvar hout]
    refine not_congr ⟨fun ⟨hflag, hzero⟩ => ⟨len, t, hawait, hflag, hzero⟩, ?_⟩
    rintro ⟨len', t', h, hflag, hzero⟩
    rw [hawait] at h
    cases h
    exact ⟨hflag, hzero⟩

/-! ## Many handshakes -/

inductive Variant
  | createdevidWithAuth
  | withAuth
  | refresh
deriving DecidableEq

def Variant.program (c : Crypto) (nUpper : Bool) : Variant → Run Unit
  | .createdevidWithAuth => lbsRedirectCreatedevidWithAuth c nUpper
  | .withAuth => lbsRedirectWithAuth c nUpper
  | .refresh => lbsRedirect c

/-- One handshake, in any world. Since the one before, everything but the members for
the authentication type may have changed. -/
structure Attempt where
  variant : Variant
  nUpper : Bool
  crypto : Crypto
  world : World
  affair : Affair
  saved : List (KeyValue × Bytes)
  meanwhile : SdkKernel

def Attempt.start (a : Attempt) (k : SdkKernel) : Session where
  kernel := { a.meanwhile with
    devCurAuthType := k.devCurAuthType
    devDefAuthType := k.devDefAuthType
    devAuthTypeCount := k.devAuthTypeCount
    devLastAuthType := k.devLastAuthType
    devAuthTypeGroup := k.devAuthTypeGroup }
  affair := a.affair
  world := a.world
  saved := a.saved

def Attempt.after (a : Attempt) (k : SdkKernel) : SdkKernel :=
  (a.variant.program a.crypto a.nUpper (a.start k)).2.kernel

/-- The kernels of a run of handshakes. -/
def kernels : SdkKernel → List Attempt → List SdkKernel
  | k, [] => [k]
  | k, a :: as => k :: kernels (a.after k) as

/-- The `switch` over the current type at the start of both variants with a key
exchange ends in its `default`. -/
def takesDefault (k : SdkKernel) : Prop := k.devCurAuthType ≠ authProtocolEcdh

theorem takesDefault_refuses (c : Crypto) (nUpper : Bool) (h : takesDefault s.kernel) :
    lbsRedirectWithAuth c nUpper s = (.error (.code Code.internalErr), s) ∧
      lbsRedirectCreatedevidWithAuth c nUpper s = (.error (.code Code.internalErr), s) :=
  ⟨withEcdh_default _ h, withEcdh_default _ h⟩

structure Supported (k : SdkKernel) : Prop where
  listed : k.devCurAuthType ∈ k.devAuthTypeGroup.take k.devAuthTypeCount.toNat
  contacts : ¬ takesDefault k

/-- The reply of the server carries the byte that pads the request. -/
def Attempt.OffersPadding (a : Attempt) (k : SdkKernel) : Prop :=
  a.variant ≠ .refresh ∧ Offers a.crypto a.nUpper (a.start k) 0

def NoPadding : SdkKernel → List Attempt → Prop
  | _, [] => True
  | k, a :: as => ¬ a.OffersPadding k ∧ NoPadding (a.after k) as

theorem Ecdh.supported {k : SdkKernel} (h : Ecdh k) : Supported k := by
  constructor
  · rw [h.cur, h.count, h.group]
    decide
  · exact not_not.mpr h.cur

theorem Ecdh.start {k : SdkKernel} (h : Ecdh k) (a : Attempt) : Ecdh (a.start k).kernel :=
  ⟨h.cur, h.count, h.group⟩

/-- The types that are supported. -/
def SameGroup (s s' : Session) : Prop :=
  s'.kernel.devAuthTypeCount = s.kernel.devAuthTypeCount ∧
    s'.kernel.devAuthTypeGroup = s.kernel.devAuthTypeGroup

instance : IsTrans Session SameGroup := ⟨fun _ _ _ h h' => ⟨h'.1.trans h.1, h'.2.trans h.2⟩⟩

theorem Framed.sameGroup (h : Framed s s') : SameGroup s s' :=
  ⟨(congrArg SdkKernel.devAuthTypeCount h :), (congrArg SdkKernel.devAuthTypeGroup h :)⟩

theorem negotiate_sameGroup {nUpper : Bool} {ask : Run Unit} {cmd : UInt8}
    (hask : Within Quiet ask) (hecdh : Ecdh s.kernel) :
    SameGroup s (withEcdh (negotiate c nUpper ask cmd) s).2 := by
  rw [withEcdh_eq (negotiate_framed hask) hecdh.cur]
  have hopen : Within SameGroup openEcdh :=
    openEcdh_within (fun _ _ h => h.scratch.kept.framed.sameGroup) fun _ => ⟨rfl, rfl⟩
  exact hopen.bind (fun _ => (negotiate_framed hask).mono fun _ _ => Framed.sameGroup) s

/-- One handshake keeps the type iff the server does not offer the padding. -/
theorem after_cur {k : SdkKernel} (hecdh : Ecdh k) (a : Attempt) :
    (a.after k).devCurAuthType = authProtocolEcdh ↔ ¬ a.OffersPadding k := by
  have hstart := hecdh.start a
  cases hv : a.variant with
  | createdevidWithAuth =>
      have hcur : (lbsRedirectCreatedevidWithAuth a.crypto a.nUpper
          (a.start k)).2.kernel.devCurAuthType = authProtocolEcdh ↔
          ¬ Offers a.crypto a.nUpper (a.start k) 0 :=
        negotiate_cur (sendAuthenticationCreatDevId_quiet a.crypto) hstart
      simpa [Attempt.after, Attempt.OffersPadding, Variant.program, hv] using hcur
  | withAuth =>
      have hcur : (lbsRedirectWithAuth a.crypto a.nUpper
          (a.start k)).2.kernel.devCurAuthType = authProtocolEcdh ↔
          ¬ Offers a.crypto a.nUpper (a.start k) 0 :=
        negotiate_cur (sendUpdateSessionkeyReq_quiet a.crypto) hstart
      simpa [Attempt.after, Attempt.OffersPadding, Variant.program, hv] using hcur
  | refresh =>
      have hcur : (a.after k).devCurAuthType = authProtocolEcdh := by
        rw [Attempt.after, hv]
        exact (hstart.of_sameTypes (lbsRedirect_kept (a.start k)).sameTypes).cur
      simp [hcur, Attempt.OffersPadding, hv]

theorem after_sameGroup {k : SdkKernel} (hecdh : Ecdh k) (a : Attempt) :
    (a.after k).devAuthTypeCount = 1 ∧
      (a.after k).devAuthTypeGroup = authProtocolEcdh :: List.replicate 63 0 := by
  have hstart := hecdh.start a
  have hsame : SameGroup (a.start k) (a.variant.program a.crypto a.nUpper (a.start k)).2 := by
    cases a.variant with
    | createdevidWithAuth =>
        exact negotiate_sameGroup (sendAuthenticationCreatDevId_quiet a.crypto) hstart
    | withAuth => exact negotiate_sameGroup (sendUpdateSessionkeyReq_quiet a.crypto) hstart
    | refresh => exact (lbsRedirect_kept (a.start k)).framed.sameGroup
  exact ⟨hsame.1.trans hstart.count, hsame.2.trans hstart.group⟩

theorem after_ecdh {k : SdkKernel} (hecdh : Ecdh k) {a : Attempt} (h : ¬ a.OffersPadding k) :
    Ecdh (a.after k) :=
  ⟨(after_cur hecdh a).mpr h, (after_sameGroup hecdh a).1, (after_sameGroup hecdh a).2⟩

theorem supported_iff_noPadding {k : SdkKernel} (hecdh : Ecdh k) (as : List Attempt) :
    (∀ k' ∈ kernels k as, Supported k') ↔ NoPadding k as := by
  induction as generalizing k with
  | nil =>
      simp only [kernels, List.mem_singleton, forall_eq, NoPadding, iff_true]
      exact hecdh.supported
  | cons a as ih =>
      simp only [kernels, List.forall_mem_cons, NoPadding]
      constructor
      · rintro ⟨-, hrest⟩
        have hnext : Supported (a.after k) := by
          apply hrest
          cases as <;> simp [kernels]
        have hnone : ¬ a.OffersPadding k := (after_cur hecdh a).mp (not_not.mp hnext.contacts)
        exact ⟨hnone, (ih (after_ecdh hecdh hnone)).mp hrest⟩
      · rintro ⟨hnone, hrest⟩
        exact ⟨hecdh.supported, (ih (after_ecdh hecdh hnone)).mpr hrest⟩

theorem kernelInit_ecdh (serverName : CString) (serverPort : Int16) (devInfo : DevInfo)
    (devid masterKey : Bytes) : Ecdh (kernelInit serverName serverPort devInfo devid masterKey) :=
  ⟨rfl, rfl, rfl⟩

/-- From the start of the kernel the current type stays a supported one iff no reply to
a first request carries the padding as its type. -/
theorem auth_type_supported_iff (serverName : CString) (serverPort : Int16) (devInfo : DevInfo)
    (devid masterKey : Bytes) (as : List Attempt) :
    (∀ k ∈ kernels (kernelInit serverName serverPort devInfo devid masterKey) as, Supported k) ↔
      NoPadding (kernelInit serverName serverPort devInfo devid masterKey) as :=
  supported_iff_noPadding (kernelInit_ecdh _ _ _ _ _) as

/-- Cryptography that changes nothing. -/
def plainCrypto : Crypto where
  shareKey _ _ := List.replicate 32 0
  publicKey := .ok (List.replicate 97 4)
  calcSecret peerPubkey := .ok peerPubkey
  gcmEnc _ plain := .ok (plain, List.replicate 16 0)
  gcmDec _ out _ := .ok out
  cbcEnc _ plain := .ok plain
  cbcDec _ out := .ok out
  md5 text := text.take 16
  sha384 text := text
  hmac384 _ text := .ok text

def emptyAffair : Affair :=
  ⟨0, 0, 0, .sap, .strncpy (.lit ""), [], [], [], [], [], [], [], 0, 0, []⟩

def factoryKernel : SdkKernel :=
  kernelInit (.lit "lbs") 8666 ⟨0, .sap, .strncpy (.lit "D1"), .strncpy (.lit "ABCDEF")⟩ [] []

/-- A first handshake; the server answers with the authentication type zero. -/
def zeroTypeAttempt : Attempt where
  variant := .createdevidWithAuth
  nUpper := true
  crypto := plainCrypto
  world :=
    { incoming := [.ok 0x28, .ok 2, .ok 0, .ok 0]
      writes := []
      allocs := []
      creates := []
      connects := [.ok (.strncpy (.lit "10.0.0.1"))]
      random := 7
      heap := [] }
  affair := emptyAffair
  saved := []
  meanwhile := factoryKernel

theorem zero_type_not_supported :
    ¬ ∀ (serverName : CString) (serverPort : Int16) (devInfo : DevInfo) (devid masterKey : Bytes)
      (as : List Attempt),
      ∀ k ∈ kernels (kernelInit serverName serverPort devInfo devid masterKey) as, Supported k := by
  intro h
  have hzero : (zeroTypeAttempt.after factoryKernel).devCurAuthType = 0 := by decide +kernel
  have hsupported := h (.lit "lbs") 8666
    ⟨0, .sap, .strncpy (.lit "D1"), .strncpy (.lit "ABCDEF")⟩ [] [] [zeroTypeAttempt]
    (zeroTypeAttempt.after factoryKernel) (by simp [kernels, factoryKernel])
  exact hsupported.contacts (by rw [takesDefault, hzero]; decide)

end EzIot.Lbs
