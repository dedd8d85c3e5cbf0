import EzIot.Lbs.Length
import EzIot.Lib.Line

/-! # Sending a message of the handshake

`net_write` makes one call of `ezos_send` and hands out how much was taken; nobody
looks at it. `send_lbs_msg` writes the header, the variable header and the payload,
and all steps but the first one return success whatever came of it.
-/

namespace EzIot.Lbs

open CText CJson Kernel Program

/-- A program on a session and the line to the server. -/
abbrev Wire := Program (Session × Line NetError) Stop

/-- An operation on the line. -/
def onLine (x : Program (Line NetError) NetError Unit) : Wire Unit := fun p =>
  ((x p.2).1.mapError fun e => .code e.code, (p.1, (x p.2).2))

/-- `net_write`. A failed `ezos_poll` and a failed `ezos_send` are socket errors, and
`ezos_poll` may time out. -/
def netWriteWire (buf : Bytes) : Wire Unit := onLine (Line.write buf)

/-- The test for a variable header in `send_lbs_msg`. -/
def HasVarHead (a : Affair) : Prop :=
  (a.outHead.headD 0 &&& 0xF0) >>> 4 = authenticationI ∧ varHeadFlag (a.outHead.headD 0) = 1

instance (a : Affair) : Decidable (HasVarHead a) := inferInstanceAs (Decidable (_ ∧ _))

/-- The variable header, up to `var_head_buf_off`. -/
def outVarHeadBytes (s : Session) : Bytes :=
  s.affair.outVarHead.take (s.kernel.devAuthTypeCount.toNat + 2)

def sendLbsMsgWire : Wire Unit := do
  let s ← read Prod.fst
  netWriteWire s.affair.outHead
  if HasVarHead s.affair then netWriteWire (outVarHeadBytes s) else pure ()
  netWriteWire s.affair.outPayload

/-! ## The steps -/

/-- The messages of the handshakes. -/
inductive SendStep
  | authenticationI
  | updateSessionkeyReq
  | authenticationCreatDevId
  | refreshsessionkeyI
  | refreshsessionkeyIII
  | cryptoDataReq
deriving DecidableEq

variable (c : Crypto)

def SendStep.build : SendStep → Run Unit
  | .authenticationI => do
      commonSerialize 2
      let a ← read Session.affair
      appendPayload
        ([authModeByte a.devAuthMode, a.devSubserial.length.toUInt8] ++ a.devSubserial.val)
      let curAuthType ← read fun s => s.kernel.devCurAuthType
      if curAuthType = authProtocolEcdh then
        ignore (appendPubkey c)
        headerSerialize Lbs.authenticationI
      else stop (.code Code.internalErr)
  | .updateSessionkeyReq => do
      commonSerialize 1
      let a ← read Session.affair
      appendPayload (32 :: a.devId)
      signSerialize c
      headerSerialize refreshsessionkeyReq
  | .authenticationCreatDevId => do
      commonSerialize 1
      signSerialize c
      headerSerialize requestDevid
  | .refreshsessionkeyI => do
      commonSerialize 1
      let a ← read Session.affair
      appendPayload (a.devSubserial.length.toUInt8 :: a.devSubserial.val ++ 32 :: a.devId)
      appendRandom c Affair.random1
      headerSerializeOld requestDevid
  | .refreshsessionkeyIII => do
      commonSerialize 1
      appendRandom c Affair.random2
      headerSerializeOld applyDevidCfm
  | .cryptoDataReq => do
      commonSerialize 1
      malloc Code.mallocError
      let a ← read Session.affair
      let json := printUnformatted [(ascii "DevSerial", .string a.devSubserial.val),
        (ascii "Type", .string (ascii "DAS")), (ascii "Mode", .number a.devAccessMode.toNat)]
      malloc Code.jsonFormatError
      malloc Code.mallocError
      let out ← crypto (c.cbcEnc a.sessionKey json)
      appendPayload out
      headerSerializeOld Lbs.cryptoDataReq

/-- The step whose result is that of `send_lbs_msg`. -/
def SendStep.Checked (step : SendStep) : Prop := step = .authenticationI

instance (step : SendStep) : Decidable step.Checked := inferInstanceAs (Decidable (_ = _))

def SendStep.wire (step : SendStep) : Wire Unit := do
  beside (step.build c)
  if step.Checked then sendLbsMsgWire else ignore sendLbsMsgWire

def SendStep.run : SendStep → Run Unit
  | .authenticationI => sendAuthenticationI c
  | .updateSessionkeyReq => sendUpdateSessionkeyReq c
  | .authenticationCreatDevId => sendAuthenticationCreatDevId c
  | .refreshsessionkeyI => sendRefreshsessionkeyI c
  | .refreshsessionkeyIII => sendRefreshsessionkeyIII c
  | .cryptoDataReq => sendCryptoDataReq c

theorem SendStep.run_eq (step : SendStep) :
    step.run c = step.build c >>= fun _ =>
      if step.Checked then sendLbsMsg else ignore sendLbsMsg := by
  cases step with
  | authenticationI =>
      simp only [run, build, sendAuthenticationI, bind_assoc]
      refine bind_congr fun _ => bind_congr fun a => bind_congr fun _ => bind_congr fun t => ?_
      by_cases ht : t = authProtocolEcdh
      · simp only [if_pos ht, bind_assoc]
        rfl
      · simp only [if_neg ht]
        rfl
  | updateSessionkeyReq => simp only [run, build, sendUpdateSessionkeyReq, bind_assoc]; rfl
  | authenticationCreatDevId => simp only [run, build, sendAuthenticationCreatDevId, bind_assoc]; rfl
  | refreshsessionkeyI => simp only [run, build, sendRefreshsessionkeyI, bind_assoc]; rfl
  | refreshsessionkeyIII => simp only [run, build, sendRefreshsessionkeyIII, bind_assoc]; rfl
  | cryptoDataReq => simp only [run, build, sendCryptoDataReq, bind_assoc]; rfl

/-! ## What goes over the line -/

/-- The pieces of the message: the header, the variable header behind its flag, and
the payload. -/
def outPieces (s : Session) : List Bytes :=
  (s.affair.outHead :: if HasVarHead s.affair then [outVarHeadBytes s] else []) ++
    [s.affair.outPayload]

theorem onLine_bind (x y : Program (Line NetError) NetError Unit) :
    (onLine x >>= fun _ => onLine y) = onLine (x >>= fun _ => y) := by
  funext p
  simp only [bind_run, onLine]
  cases x p.2 with
  | mk r line =>
      cases r with
      | error e => rfl
      | ok u => rfl

/-- Three writes are the writes of the pieces. -/
theorem sendLbsMsgWire_eq (s : Session) (line : Line NetError) :
    sendLbsMsgWire (s, line) = onLine (Line.writeAll (outPieces s)) (s, line) := by
  have hlast (piece : Bytes) : (Line.write piece >>= fun _ => pure ()) =
      (Line.write piece : Program (Line NetError) NetError Unit) := bind_pure _
  unfold sendLbsMsgWire netWriteWire outPieces
  rw [read_bind]
  by_cases hvar : HasVarHead s.affair
  · simp only [if_pos hvar, onLine_bind, List.cons_append, List.nil_append, Line.writeAll, hlast]
  · simp only [if_neg hvar, onLine_bind, List.cons_append, List.nil_append,
      Line.writeAll, hlast]

theorem sendLbsMsgWire_run (s : Session) (line : Line NetError) :
    (sendLbsMsgWire (s, line)).2.1 = s ∧
      (sendLbsMsgWire (s, line)).2.2.sent =
        line.sent ++ Line.taken line.results (outPieces s) ∧
      ((sendLbsMsgWire (s, line)).1 = .ok () ↔
        ¬ Line.Fails line.results (outPieces s).length) := by
  have hrun := Line.writeAll_run line (outPieces s)
  rw [sendLbsMsgWire_eq]
  refine ⟨rfl, hrun.1, ?_⟩
  rw [← hrun.2]
  unfold onLine
  cases (Line.writeAll (outPieces s) line).1 with
  | error e =>
      refine iff_of_false ?_ ?_
      · intro h
        cases h
      · intro h
        cases h
  | ok u => exact iff_of_true rfl rfl

/-! ## The payload is never empty -/

/-- The payload is only appended to. -/
def Grows (s s' : Session) : Prop := s.affair.outPayload.length ≤ s'.affair.outPayload.length

instance : Std.Refl Grows := ⟨fun _ => Nat.le_refl _⟩

instance : IsTrans Session Grows := ⟨fun _ _ _ h h' => Nat.le_trans h h'⟩

theorem appendPayload_grows (b : Bytes) : Within Grows (appendPayload b) := by
  refine .write fun s => ?_
  change _ ≤ (s.affair.outPayload ++ b).length
  rw [List.length_append]
  exact Nat.le_add_right _ _

theorem malloc_grows (e : Nat) : Within Grows (malloc e) := by
  intro s
  simp only [malloc]
  split <;> exact Nat.le_refl _

theorem crypto_grows {α : Type} (x : Except CryptoError α) : Within Grows (crypto x) := .lift _

theorem headerSerialize_grows (cmd : UInt8) : Within Grows (headerSerialize cmd) := by
  refine (Within.read _).bind fun kernel => .ite ?_ (.write fun _ => Nat.le_refl _)
  exact .ite (.stop _) (.write fun _ => Nat.le_refl _)

theorem headerSerializeOld_grows (cmd : UInt8) : Within Grows (headerSerializeOld cmd) :=
  .write fun _ => Nat.le_refl _

theorem signSerialize_grows : Within Grows (signSerialize c) :=
  (Within.read _).bind fun _ => (crypto_grows _).bind fun _ => appendPayload_grows _

theorem appendRandom_grows (random : Affair → UInt8) : Within Grows (appendRandom c random) :=
  (Within.read _).bind fun _ => (crypto_grows _).bind fun _ => appendPayload_grows _

theorem appendPubkey_grows : Within Grows (appendPubkey c) :=
  (crypto_grows _).bind fun _ => (malloc_grows _).bind fun _ => (Within.read _).bind fun _ =>
    (crypto_grows _).bind fun _ => appendPayload_grows _

theorem SendStep.build_eq (step : SendStep) :
    ∃ v rest, step.build c = (commonSerialize v >>= fun _ => rest) ∧ Within Grows rest := by
  cases step with
  | authenticationI =>
      refine ⟨2, _, rfl, (Within.read _).bind fun _ => (appendPayload_grows _).bind fun _ => ?_⟩
      refine (Within.read _).bind fun _ => .ite ?_ (.stop _)
      exact (appendPubkey_grows c).ignore.bind fun _ => headerSerialize_grows _
  | updateSessionkeyReq =>
      exact ⟨1, _, rfl, (Within.read _).bind fun _ => (appendPayload_grows _).bind fun _ =>
        (signSerialize_grows c).bind fun _ => headerSerialize_grows _⟩
  | authenticationCreatDevId =>
      exact ⟨1, _, rfl, (signSerialize_grows c).bind fun _ => headerSerialize_grows _⟩
  | refreshsessionkeyI =>
      exact ⟨1, _, rfl, (Within.read _).bind fun _ => (appendPayload_grows _).bind fun _ =>
        (appendRandom_grows c _).bind fun _ => headerSerializeOld_grows _⟩
  | refreshsessionkeyIII =>
      exact ⟨1, _, rfl, (appendRandom_grows c _).bind fun _ => headerSerializeOld_grows _⟩
  | cryptoDataReq =>
      refine ⟨1, _, rfl, (malloc_grows _).bind fun _ => (Within.read _).bind fun _ => ?_⟩
      refine (malloc_grows _).bind fun _ => (malloc_grows _).bind fun _ => ?_
      exact (crypto_grows _).bind fun _ => (appendPayload_grows _).bind fun _ =>
        headerSerializeOld_grows _

theorem SendStep.outPayload_ne_nil {step : SendStep} {s t : Session}
    (h : step.build c s = (.ok (), t)) : t.affair.outPayload ≠ [] := by
  rcases step.build_eq c with ⟨v, rest, heq, hgrows⟩
  rw [heq] at h
  rcases bind_returns.mp h with ⟨_, s₁, hcommon, h⟩
  have hs₁ : (commonSerialize v s).2 = s₁ := congrArg Prod.snd hcommon
  have hle : s₁.affair.outPayload.length ≤ t.affair.outPayload.length := hgrows.run h
  rw [← hs₁] at hle
  change (s.affair.outPayload ++ [1, v, 0]).length ≤ _ at hle
  rw [List.length_append] at hle
  intro hnil
  rw [hnil] at hle
  simp at hle

/-! ## When success means delivery -/

/-- If the step returns success, the other end has received the message. -/
def Delivers (step : SendStep) (s : Session) (line : Line NetError) : Prop :=
  ∀ t line', step.wire c (s, line) = (.ok (), (t, line')) →
    line'.sent = line.sent ++ (outPieces t).flatten

theorem send_step_delivers_iff (step : SendStep) (s : Session) (line : Line NetError) :
    Delivers c step s line ↔
      ∀ t, step.build c s = (.ok (), t) →
        step.Checked ∧ Line.Fails line.results (outPieces t).length ∨
          Line.TakesAll line.results (outPieces t) := by
  unfold Delivers SendStep.wire
  cases hbuild : step.build c s with
  | mk r t =>
      cases r with
      | error e =>
          rw [beside_bind_error hbuild]
          refine iff_of_true ?_ ?_
          · intro t line' h
            cases h
          · intro t h
            cases h
      | ok u =>
          have htaken : Line.taken line.results (outPieces t) = (outPieces t).flatten ↔
              Line.TakesAll line.results (outPieces t) :=
            Line.taken_eq_flatten_iff (SendStep.outPayload_ne_nil c hbuild)
          have hsend := sendLbsMsgWire_run t line
          rw [beside_bind_ok hbuild]
          by_cases hchecked : step.Checked
          · rw [if_pos hchecked]
            constructor
            · intro h t' ht'
              cases ht'
              by_cases hfails : Line.Fails line.results (outPieces t).length
              · exact .inl ⟨hchecked, hfails⟩
              · have hok := hsend.2.2.mpr hfails
                have hdelivered := h t (sendLbsMsgWire (t, line)).2.2
                  (Prod.ext hok (Prod.ext hsend.1 rfl))
                rw [hsend.2.1] at hdelivered
                exact .inr (htaken.mp (List.append_cancel_left hdelivered))
            · intro h t' line' hrun
              rw [hrun] at hsend
              have hsent := hsend.2.1
              have ht' : t' = t := hsend.1
              rcases h t rfl with hfails | htakes
              · exact absurd hfails.2 (hsend.2.2.mp rfl)
              · rw [ht', hsent, htaken.mpr htakes]
          · rw [if_neg hchecked]
            constructor
            · intro h t' ht'
              cases ht'
              have hdelivered := h t (sendLbsMsgWire (t, line)).2.2
                (Prod.ext rfl (Prod.ext hsend.1 rfl))
              rw [hsend.2.1] at hdelivered
              exact .inr (htaken.mp (List.append_cancel_left hdelivered))
            · intro h t' line' hrun
              have hstate : (sendLbsMsgWire (t, line)).2 = (t', line') :=
                congrArg Prod.snd hrun
              rw [hstate] at hsend
              have ht' : t' = t := hsend.1
              rcases h t rfl with hfails | htakes
              · exact absurd hfails.1 hchecked
              · rw [ht', hsend.2.1, htaken.mpr htakes]

/-- The socket fails at once; the last request of the handshake reports success. -/
theorem failed_send_reports_success :
    ¬ Delivers plainCrypto .refreshsessionkeyIII (quietSession [])
      ⟨[.error .socketError], []⟩ := by
  have hresult : (SendStep.wire plainCrypto .refreshsessionkeyIII
      (quietSession [], ⟨[.error .socketError], []⟩)).1 = .ok () := rfl
  intro h
  have hsent := congrArg List.length (h _ _ (Prod.ext hresult rfl))
  exact absurd hsent (by decide +kernel)

/-! ## The same steps in the model of the handshakes -/

def Session.writing (s : Session) (writes : List (Option NetError)) : Session :=
  { s with world := { s.world with writes := writes } }

/-- What the model of the handshakes keeps of a result. -/
def failure : Except NetError Nat → Option NetError
  | .ok _ => none
  | .error e => some e

/-- A program that neither looks at the results of writes nor changes them. -/
def KeepsWrites {α : Type} (x : Run α) : Prop :=
  ∀ s w, x (s.writing w) = ((x s).1, (x s).2.writing w)

namespace KeepsWrites

variable {α β : Type}

theorem bind {x : Run α} {f : α → Run β} (hx : KeepsWrites x) (hf : ∀ a, KeepsWrites (f a)) :
    KeepsWrites (x >>= f) := by
  intro s w
  rw [bind_run, bind_run, hx]
  cases x s with
  | mk r t =>
      cases r with
      | error e => rfl
      | ok a => exact hf a t w

theorem read {f : Session → α} (h : ∀ s w, f (s.writing w) = f s) :
    KeepsWrites (Program.read f) := by
  intro s w
  change (Except.ok (f (s.writing w)), s.writing w) = (Except.ok (f s), s.writing w)
  rw [h]

theorem setAffair (f : Affair → Affair) : KeepsWrites (Lbs.setAffair f) := fun _ _ => rfl

theorem stop (e : Stop) : KeepsWrites (Program.stop e : Run α) := fun _ _ => rfl

theorem crypto (x : Except CryptoError α) : KeepsWrites (Lbs.crypto x) := fun _ _ => rfl

theorem malloc (e : Nat) : KeepsWrites (Lbs.malloc e) := by
  intro s w
  simp only [Lbs.malloc, Session.writing]
  split
  · simp only
  · simp only
  · simp only

theorem ite {p : Prop} [Decidable p] {x y : Run α} (hx : KeepsWrites x) (hy : KeepsWrites y) :
    KeepsWrites (if p then x else y) := by
  split
  · exact hx
  · exact hy

theorem ignore {x : Run Unit} (hx : KeepsWrites x) : KeepsWrites (Program.ignore x) := by
  intro s w
  unfold Program.ignore
  rw [hx]

end KeepsWrites

theorem affair_keepsWrites : KeepsWrites (read Session.affair) := .read fun _ _ => rfl

theorem appendPayload_keepsWrites (b : Bytes) : KeepsWrites (appendPayload b) := .setAffair _

theorem commonSerialize_keepsWrites (v : UInt8) : KeepsWrites (commonSerialize v) :=
  appendPayload_keepsWrites _

theorem headerSerialize_keepsWrites (cmd : UInt8) : KeepsWrites (headerSerialize cmd) := by
  have hkernel : KeepsWrites (read Session.kernel) := .read fun _ _ => rfl
  exact hkernel.bind fun _ => .ite (.ite (.stop _) (.setAffair _)) (.setAffair _)

theorem headerSerializeOld_keepsWrites (cmd : UInt8) : KeepsWrites (headerSerializeOld cmd) :=
  .setAffair _

theorem signSerialize_keepsWrites : KeepsWrites (signSerialize c) :=
  affair_keepsWrites.bind fun _ => (KeepsWrites.crypto _).bind fun _ => appendPayload_keepsWrites _

theorem appendRandom_keepsWrites (random : Affair → UInt8) : KeepsWrites (appendRandom c random) :=
  affair_keepsWrites.bind fun _ => (KeepsWrites.crypto _).bind fun _ => appendPayload_keepsWrites _

theorem appendPubkey_keepsWrites : KeepsWrites (appendPubkey c) :=
  (KeepsWrites.crypto _).bind fun _ => (KeepsWrites.malloc _).bind fun _ =>
    affair_keepsWrites.bind fun _ => (KeepsWrites.crypto _).bind fun _ =>
      appendPayload_keepsWrites _

theorem SendStep.build_keepsWrites (step : SendStep) : KeepsWrites (step.build c) := by
  have hcommon := commonSerialize_keepsWrites
  have hpayload := appendPayload_keepsWrites
  have hold := headerSerializeOld_keepsWrites
  cases step with
  | authenticationI =>
      have htype : KeepsWrites (read fun s => s.kernel.devCurAuthType) := .read fun _ _ => rfl
      refine (hcommon 2).bind fun _ => affair_keepsWrites.bind fun _ => (hpayload _).bind fun _ => ?_
      refine htype.bind fun _ => .ite ?_ (.stop _)
      exact (appendPubkey_keepsWrites c).ignore.bind fun _ => headerSerialize_keepsWrites _
  | updateSessionkeyReq =>
      refine (hcommon 1).bind fun _ => affair_keepsWrites.bind fun _ => (hpayload _).bind fun _ => ?_
      exact (signSerialize_keepsWrites c).bind fun _ => headerSerialize_keepsWrites _
  | authenticationCreatDevId =>
      refine (hcommon 1).bind fun _ => (signSerialize_keepsWrites c).bind fun _ => ?_
      exact headerSerialize_keepsWrites _
  | refreshsessionkeyI =>
      refine (hcommon 1).bind fun _ => affair_keepsWrites.bind fun _ => (hpayload _).bind fun _ => ?_
      exact (appendRandom_keepsWrites c _).bind fun _ => hold _
  | refreshsessionkeyIII =>
      exact (hcommon 1).bind fun _ => (appendRandom_keepsWrites c _).bind fun _ => hold _
  | cryptoDataReq =>
      refine (hcommon 1).bind fun _ => (KeepsWrites.malloc _).bind fun _ => ?_
      refine affair_keepsWrites.bind fun _ => (KeepsWrites.malloc _).bind fun _ => ?_
      exact (KeepsWrites.malloc _).bind fun _ => (KeepsWrites.crypto _).bind fun _ =>
        (hpayload _).bind fun _ => hold _

/-- A session whose writes go as on the line. -/
def onSession (p : Session × Line NetError) : Session :=
  p.1.writing (p.2.results.map failure)

/-- A program on the line does what the model of the handshakes does. -/
def Simulates {α : Type} (x : Wire α) (y : Run α) : Prop :=
  ∀ p, y (onSession p) = ((x p).1, onSession (x p).2)

namespace Simulates

variable {α β : Type}

theorem bind {x : Wire α} {y : Run α} {f : α → Wire β} {g : α → Run β} (hx : Simulates x y)
    (hf : ∀ a, Simulates (f a) (g a)) : Simulates (x >>= f) (y >>= g) := by
  intro p
  rw [bind_run, bind_run, hx]
  cases x p with
  | mk r q =>
      cases r with
      | error e => rfl
      | ok a => exact hf a q

theorem beside {y : Run α} (h : KeepsWrites y) : Simulates (Program.beside y) y :=
  fun p => h p.1 _

theorem netWrite (buf : Bytes) : Simulates (netWriteWire buf) Lbs.netWrite := by
  intro p
  rcases p with ⟨s, results, sent⟩
  cases results with
  | nil => rfl
  | cons r rest => cases r <;> rfl

theorem ignore {x : Wire Unit} {y : Run Unit} (h : Simulates x y) :
    Simulates (Program.ignore x) (Program.ignore y) := by
  intro p
  unfold Program.ignore
  rw [h]

end Simulates

theorem sendLbsMsgWire_simulates : Simulates sendLbsMsgWire sendLbsMsg := by
  -- the second write is made under a condition on the first byte of the header
  have htail (a : Affair) (x y : Bytes) : Simulates
      (if HasVarHead a then netWriteWire x >>= fun _ => netWriteWire y else netWriteWire y)
      (if (a.outHead.headD 0 &&& 0xF0) >>> 4 = authenticationI ∧
        varHeadFlag (a.outHead.headD 0) = 1 then netWrite >>= fun _ => netWrite
        else netWrite) := by
    by_cases h : HasVarHead a
    · have h' : (a.outHead.headD 0 &&& 0xF0) >>> 4 = authenticationI ∧
        varHeadFlag (a.outHead.headD 0) = 1 := h
      rw [if_pos h, if_pos h']
      exact (Simulates.netWrite x).bind fun _ => .netWrite y
    · have h' : ¬ ((a.outHead.headD 0 &&& 0xF0) >>> 4 = authenticationI ∧
        varHeadFlag (a.outHead.headD 0) = 1) := h
      rw [if_neg h, if_neg h']
      exact .netWrite y
  intro p
  rcases p with ⟨s, line⟩
  unfold sendLbsMsgWire sendLbsMsg
  rw [read_bind, bind_run, bind_run, Simulates.netWrite s.affair.outHead]
  cases hwrite : netWriteWire s.affair.outHead (s, line) with
  | mk r q =>
      have hq : q.1 = s := (congrArg (fun x => x.2.1) hwrite).symm
      cases r with
      | error e => rfl
      | ok u =>
          dsimp only
          rw [read_bind]
          have h := htail s.affair (outVarHeadBytes s) s.affair.outPayload q
          have hhead : (onSession q).affair.outHead = s.affair.outHead := by
            rw [← hq]
            rfl
          rw [hhead]
          exact h

/-- A step on the line is the step of the handshake. -/
theorem SendStep.wire_simulates (step : SendStep) : Simulates (step.wire c) (step.run c) := by
  rw [step.run_eq]
  refine (Simulates.beside (step.build_keepsWrites c)).bind fun _ => ?_
  split
  · exact sendLbsMsgWire_simulates
  · exact sendLbsMsgWire_simulates.ignore

end EzIot.Lbs
