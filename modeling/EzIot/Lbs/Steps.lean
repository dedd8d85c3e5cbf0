import EzIot.Lbs.Handshake

/-! # The steps of a handshake

Every step that sends or waits only moves buffers, the world and the address of the
server. No step stops with success, or with a code of the MQTT broker.
-/

namespace EzIot.Lbs

open CText CJson Kernel Program

variable (c : Crypto)

/-! ## Quiet steps -/

/-- The affair without the buffers of the reply. -/
def Affair.unread (a : Affair) : Affair := { a with inHead := 0, inVarHead := 0, inPayload := [] }

/-- The affair without its buffers. -/
def Affair.keys (a : Affair) : Affair :=
  { a.unread with outHead := [], outVarHead := [], outPayload := [] }

/-- The kernel without the address of the server. -/
def fixed (k : SdkKernel) : SdkKernel :=
  { k with serverInfo := { k.serverInfo with serverIp := .strncpy (.lit "") } }

/-- How the world may go on. -/
structure World.Later (w w' : World) : Prop where
  incoming : w'.incoming <:+ w.incoming
  heap : w'.heap = w.heap
  random : w'.random = w.random

/-- A step that waits for the server. -/
structure Listens (s s' : Session) : Prop where
  kernel : s'.kernel = s.kernel
  saved : s'.saved = s.saved
  affair : s'.affair.unread = s.affair.unread
  world : s.world.Later s'.world

/-- A step that talks to the server. -/
structure Quiet (s s' : Session) : Prop where
  kernel : fixed s'.kernel = fixed s.kernel
  saved : s'.saved = s.saved
  keys : s'.affair.keys = s.affair.keys
  world : s.world.Later s'.world

theorem World.Later.rfl {w : World} : w.Later w := ⟨List.suffix_rfl, Eq.refl _, Eq.refl _⟩

theorem World.Later.trans {w w' w'' : World} (h : w.Later w') (h' : w'.Later w'') :
    w.Later w'' :=
  ⟨h'.incoming.trans h.incoming, h'.heap.trans h.heap, h'.random.trans h.random⟩

instance : Std.Refl Listens := ⟨fun _ => ⟨rfl, rfl, rfl, .rfl⟩⟩

instance : IsTrans Session Listens where
  trans _ _ _ h h' := ⟨h'.kernel.trans h.kernel, h'.saved.trans h.saved, h'.affair.trans h.affair,
    h.world.trans h'.world⟩

instance : Std.Refl Quiet := ⟨fun _ => ⟨rfl, rfl, rfl, .rfl⟩⟩

instance : IsTrans Session Quiet where
  trans _ _ _ h h' := ⟨h'.kernel.trans h.kernel, h'.saved.trans h.saved, h'.keys.trans h.keys,
    h.world.trans h'.world⟩

theorem Listens.quiet {s s' : Session} (h : Listens s s') : Quiet s s' :=
  ⟨congrArg fixed h.kernel, h.saved,
    congrArg (fun a => { a with outHead := [], outVarHead := [], outPayload := [] }) h.affair,
    h.world⟩

theorem listening {α : Type} {x : Run α} (h : Within Listens x) : Within Quiet x :=
  h.mono fun _ _ => Listens.quiet

theorem listens_of_world {s : Session} {w : World} (h : s.world.Later w) :
    Listens s { s with world := w } := ⟨rfl, rfl, rfl, h⟩

theorem setAffair_quiet {f : Affair → Affair} (h : ∀ a, (f a).keys = a.keys) :
    Within Quiet (setAffair f) := .write fun s => ⟨rfl, rfl, h s.affair, .rfl⟩

theorem check_listens (bad : Prop) [Decidable bad] (e : Nat) : Within Listens (check bad e) :=
  .ite (.stop _) (.pure _)

theorem check_quiet (bad : Prop) [Decidable bad] (e : Nat) : Within Quiet (check bad e) :=
  listening (check_listens _ _)

theorem malloc_quiet (e : Nat) : Within Quiet (malloc e) := by
  intro s
  simp only [malloc]
  split
  · exact Listens.quiet (listens_of_world ⟨List.suffix_rfl, rfl, rfl⟩)
  · exact Listens.quiet (listens_of_world ⟨List.suffix_rfl, rfl, rfl⟩)
  · exact Std.Refl.refl s

theorem crypto_quiet {α : Type} (x : Except CryptoError α) : Within Quiet (crypto x) := .lift _

theorem netWrite_listens : Within Listens netWrite := by
  intro s
  simp only [netWrite]
  split
  · exact listens_of_world ⟨List.suffix_rfl, rfl, rfl⟩
  · exact listens_of_world ⟨List.suffix_rfl, rfl, rfl⟩
  · exact Std.Refl.refl s

theorem netCreate_quiet : Within Quiet netCreate := by
  intro s
  simp only [netCreate]
  split
  · exact Listens.quiet (listens_of_world ⟨List.suffix_rfl, rfl, rfl⟩)
  · exact Listens.quiet (listens_of_world ⟨List.suffix_rfl, rfl, rfl⟩)
  · exact Std.Refl.refl s

theorem netConnect_quiet : Within Quiet netConnect := by
  intro s
  simp only [netConnect]
  split
  · exact Listens.quiet (listens_of_world ⟨List.suffix_rfl, rfl, rfl⟩)
  · exact Std.Refl.refl s

theorem lbsConnect_quiet : Within Quiet lbsConnect := by
  have hset (ip : CField 64) : Within Quiet (lbsConnect.setIp ip) :=
    .write fun s => ⟨rfl, rfl, rfl, .rfl⟩
  refine netCreate_quiet.bind fun _ => netConnect_quiet.bind fun r => ?_
  cases r with
  | ok ip => exact hset ip
  | error e =>
      refine netCreate_quiet.bind fun _ => (Within.read _).bind fun _ => .ite (.stop _) ?_
      refine netConnect_quiet.bind fun r => ?_
      cases r with
      | ok ip => exact hset ip
      | error e => exact .stop _

theorem check_returns {bad : Prop} [Decidable bad] {e : Nat} {s s' : Session} {u : Unit} :
    check bad e s = (.ok u, s') ↔ ¬ bad ∧ s = s' := by
  unfold check
  by_cases hbad : bad
  · simp [hbad, stop]
  · simp [hbad, pure_returns]

theorem crypto_returns {α : Type} {x : Except CryptoError α} {a : α} {s s' : Session} :
    crypto x s = (.ok a, s') ↔ x = .ok a ∧ s = s' := by
  cases x with
  | error e => simp [crypto, lift]
  | ok b => simp [crypto, lift]

theorem check_bind_returns {α : Type} {bad : Prop} [Decidable bad] {e : Nat} {f : Unit → Run α}
    {s s' : Session} {a : α} :
    (check bad e >>= f) s = (.ok a, s') ↔ ¬ bad ∧ f () s = (.ok a, s') := by
  rw [bind_returns]
  constructor
  · rintro ⟨_, t, hcheck, h⟩
    obtain ⟨hbad, rfl⟩ := check_returns.mp hcheck
    exact ⟨hbad, h⟩
  · rintro ⟨hbad, h⟩
    exact ⟨(), s, check_returns.mpr ⟨hbad, rfl⟩, h⟩

theorem crypto_bind_returns {α β : Type} {x : Except CryptoError α} {f : α → Run β}
    {s s' : Session} {b : β} :
    (crypto x >>= f) s = (.ok b, s') ↔ ∃ a, x = .ok a ∧ f a s = (.ok b, s') := by
  rw [bind_returns]
  constructor
  · rintro ⟨a, t, hcrypto, h⟩
    obtain ⟨hx, rfl⟩ := crypto_returns.mp hcrypto
    exact ⟨a, hx, h⟩
  · rintro ⟨a, hx, h⟩
    exact ⟨a, s, crypto_returns.mpr ⟨hx, rfl⟩, h⟩

/-! ## Reading -/

theorem takeBytes_suffix (n : Nat) (incoming : List (Except NetError UInt8)) :
    (takeBytes n incoming).2 <:+ incoming := by
  induction n generalizing incoming with
  | zero => exact List.suffix_rfl
  | succ n ih =>
      rcases incoming with _ | ⟨r, rest⟩
      · exact List.suffix_rfl
      · cases r with
        | error e => exact List.suffix_cons _ _
        | ok b =>
            have h := (ih rest).trans (List.suffix_cons (.ok b) rest)
            simp only [takeBytes]
            split
            · rename_i heq
              rwa [heq] at h
            · rename_i heq
              rwa [heq] at h

theorem takeBytes_ok {n : Nat} {incoming rest : List (Except NetError UInt8)} {bs : Bytes}
    (h : takeBytes n incoming = (.ok bs, rest)) :
    bs.length = n ∧ incoming = bs.map .ok ++ rest := by
  induction n generalizing incoming bs with
  | zero =>
      cases h
      exact ⟨rfl, rfl⟩
  | succ n ih =>
      rcases incoming with _ | ⟨r, tail⟩
      · cases h
      · cases r with
        | error e => cases h
        | ok b =>
            simp only [takeBytes] at h
            split at h
            · rename_i heq
              cases h
              obtain ⟨hlength, hincoming⟩ := ih heq
              exact ⟨congrArg Nat.succ hlength, congrArg (Except.ok b :: ·) hincoming⟩
            · cases h

theorem remainLoop_suffix (incoming : List (Except NetError UInt8)) (len mult : UInt32) :
    (remainLoop incoming len mult).2 <:+ incoming := by
  induction incoming generalizing len mult with
  | nil => exact List.suffix_rfl
  | cons r rest ih =>
      cases r with
      | error e => exact List.suffix_cons _ _
      | ok b =>
          simp only [remainLoop]
          split
          · exact List.suffix_cons _ _
          · exact (ih _ _).trans (List.suffix_cons _ _)

theorem netReadFrom_suffix (n : Nat) (incoming : List (Except NetError UInt8)) :
    (netReadFrom n incoming).2 <:+ incoming := by
  simp only [netReadFrom]
  split
  · split
    · exact List.suffix_rfl
    · exact List.suffix_cons _ _
    · exact List.suffix_rfl
  · exact takeBytes_suffix n incoming

theorem netReadFrom_ok {n : Nat} {incoming rest : List (Except NetError UInt8)} {bs : Bytes}
    (h : netReadFrom n incoming = (.ok bs, rest)) : incoming = bs.map .ok ++ rest := by
  simp only [netReadFrom] at h
  split at h
  · split at h <;> cases h
  · exact (takeBytes_ok h).2

theorem receive_listens {α : Type}
    {f : List (Except NetError UInt8) → Except NetError α × List (Except NetError UInt8)}
    (h : ∀ incoming, (f incoming).2 <:+ incoming) : Within Listens (receive f) :=
  fun s => listens_of_world ⟨h s.world.incoming, rfl, rfl⟩

theorem netRead_listens (n : Nat) : Within Listens (netRead n) :=
  receive_listens (netReadFrom_suffix n)

theorem readByte_listens : Within Listens readByte := (netRead_listens 1).bind fun _ => .pure _

theorem setAffair_listens {f : Affair → Affair} (h : ∀ a, (f a).unread = a.unread) :
    Within Listens (setAffair f) := .write fun s => ⟨rfl, rfl, h s.affair, .rfl⟩

theorem waitAssignResponse_listens : Within Listens waitAssignResponse := by
  refine readByte_listens.bind fun byte1 => ?_
  refine (receive_listens fun _ => remainLoop_suffix _ _ _).bind fun remainLen => ?_
  have hpayload (cmd : UInt8) (len : UInt32) : Within Listens (do
      let payload ← netRead len.toNat
      setAffair fun a => { a with inPayload := payload }
      return (cmd, len)) :=
    .bind (netRead_listens _) fun _ => .bind (setAffair_listens fun _ => rfl) fun _ => .pure _
  refine .bind (setAffair_listens fun _ => rfl) fun _ => .ite ?_ ?_
  · refine (check_listens _ _).bind fun _ => readByte_listens.bind fun b => ?_
    refine .bind (setAffair_listens fun _ => rfl) fun _ => (check_listens _ _).bind fun _ => ?_
    exact hpayload _ _
  · exact (check_listens _ _).bind fun _ => hpayload _ _

theorem waitReply_listens (cmd : UInt8) : Within Listens (waitReply cmd) :=
  waitAssignResponse_listens.bind fun _ => (check_listens _ _).bind fun _ => .pure _

theorem waitReply_quiet (cmd : UInt8) : Within Quiet (waitReply cmd) :=
  listening (waitReply_listens cmd)

/-- The bytes arrived between two states of a session. -/
def Received (s s' : Session) (reply : Bytes) : Prop :=
  ∃ before after, s.world.incoming = before ++ (reply.map .ok ++ (after ++ s'.world.incoming))

theorem Received.within {s₀ s s' s₁ : Session} {reply : Bytes} (h : Received s s' reply)
    (hbefore : s₀.world.Later s.world) (hafter : s'.world.Later s₁.world) :
    Received s₀ s₁ reply := by
  obtain ⟨before, after, heq⟩ := h
  obtain ⟨pre, hpre⟩ := hbefore.incoming
  obtain ⟨post, hpost⟩ := hafter.incoming
  refine ⟨pre ++ before, after ++ post, ?_⟩
  rw [← hpre, heq, ← hpost]
  simp only [List.append_assoc]

theorem netRead_returns {n : Nat} {s s' : Session} {bs : Bytes}
    (h : netRead n s = (.ok bs, s')) : Received s s' bs := by
  simp only [netRead, receive, Prod.mk.injEq] at h
  cases hr : netReadFrom n s.world.incoming with
  | mk r rest =>
      rw [hr] at h
      cases r with
      | error e => simp at h
      | ok bs' =>
          obtain ⟨hbs, rfl⟩ := h
          cases hbs
          exact ⟨[], [], netReadFrom_ok hr⟩

theorem readPayload_returns {cmd cmd' : UInt8} {n len len' : UInt32} {s s' : Session}
    (h : (do
      let payload ← netRead n.toNat
      setAffair fun a => { a with inPayload := payload }
      return (cmd, len) : Run (UInt8 × UInt32)) s = (.ok (cmd', len'), s')) :
    Received s s' s'.affair.inPayload := by
  obtain ⟨payload, s₁, hread, h⟩ := bind_returns.mp h
  obtain ⟨_, s₂, hset, h⟩ := bind_returns.mp h
  obtain ⟨-, rfl⟩ := pure_returns.mp h
  obtain rfl := write_returns.mp hset
  exact (netRead_returns hread).within .rfl .rfl

theorem waitAssignResponse_returns {cmd : UInt8} {len : UInt32} {s s' : Session}
    (h : waitAssignResponse s = (.ok (cmd, len), s')) : Received s s' s'.affair.inPayload := by
  obtain ⟨byte1, s₁, h₁, h⟩ := bind_returns.mp h
  obtain ⟨remainLen, s₂, h₂, h⟩ := bind_returns.mp h
  obtain ⟨_, s₃, h₃, h⟩ := bind_returns.mp h
  obtain rfl := write_returns.mp h₃
  have hlistens : Listens s s₂ := Trans.trans (readByte_listens.run h₁)
    ((receive_listens fun _ => remainLoop_suffix _ _ _).run h₂)
  split at h
  · obtain ⟨_, s₄, h₄, h⟩ := bind_returns.mp h
    obtain ⟨b, s₅, h₅, h⟩ := bind_returns.mp h
    obtain ⟨_, s₆, h₆, h⟩ := bind_returns.mp h
    obtain ⟨_, s₇, h₇, h⟩ := bind_returns.mp h
    obtain ⟨-, rfl⟩ := check_returns.mp h₄
    obtain rfl := write_returns.mp h₆
    obtain ⟨-, rfl⟩ := check_returns.mp h₇
    have hread := (readByte_listens.run h₅).world
    exact (readPayload_returns h).within (hlistens.world.trans hread) .rfl
  · obtain ⟨_, s₄, h₄, h⟩ := bind_returns.mp h
    obtain ⟨-, rfl⟩ := check_returns.mp h₄
    exact (readPayload_returns h).within hlistens.world .rfl

theorem waitReply_returns {cmd : UInt8} {s s' : Session} {len : UInt32}
    (h : waitReply cmd s = (.ok len, s')) : Received s s' s'.affair.inPayload := by
  obtain ⟨⟨revCmd, remainLen⟩, s₁, hwait, h⟩ := bind_returns.mp h
  obtain ⟨_, s₂, hcheck, h⟩ := bind_returns.mp h
  obtain ⟨-, rfl⟩ := pure_returns.mp h
  obtain ⟨-, rfl⟩ := check_returns.mp hcheck
  exact waitAssignResponse_returns hwait

/-! ## Sending -/

theorem clearLbsAffairBuf_quiet : Within Quiet clearLbsAffairBuf := setAffair_quiet fun _ => rfl

theorem appendPayload_quiet (b : Bytes) : Within Quiet (appendPayload b) :=
  setAffair_quiet fun _ => rfl

theorem commonSerialize_quiet (low : UInt8) : Within Quiet (commonSerialize low) :=
  appendPayload_quiet _

theorem headerSerialize_quiet (cmd : UInt8) : Within Quiet (headerSerialize cmd) := by
  refine (Within.read _).bind fun kernel => .ite (.ite (.stop _) ?_) ?_
  · exact setAffair_quiet fun _ => rfl
  · exact setAffair_quiet fun _ => rfl

theorem headerSerializeOld_quiet (cmd : UInt8) : Within Quiet (headerSerializeOld cmd) :=
  setAffair_quiet fun _ => rfl

theorem sendLbsMsg_listens : Within Listens sendLbsMsg :=
  .bind netWrite_listens fun _ => .bind (.read _) fun _ =>
    .ite (.bind netWrite_listens fun _ => netWrite_listens) netWrite_listens

theorem sendLbsMsg_quiet : Within Quiet sendLbsMsg := listening sendLbsMsg_listens

theorem signSerialize_quiet : Within Quiet (signSerialize c) :=
  .bind (.read _) fun _ => .bind (crypto_quiet _) fun _ => appendPayload_quiet _

theorem appendPubkey_quiet : Within Quiet (appendPubkey c) := by
  refine .bind (crypto_quiet _) fun _ => .bind (malloc_quiet _) fun _ => .bind (.read _) fun _ => ?_
  exact .bind (crypto_quiet _) fun _ => appendPayload_quiet _

theorem sendAuthenticationI_quiet : Within Quiet (sendAuthenticationI c) := by
  refine .bind (commonSerialize_quiet _) fun _ => .bind (.read _) fun _ => ?_
  refine .bind (appendPayload_quiet _) fun _ => .bind (.read _) fun _ => .ite ?_ (.stop _)
  exact .bind (appendPubkey_quiet c).ignore fun _ =>
    .bind (headerSerialize_quiet _) fun _ => sendLbsMsg_quiet

theorem sendUpdateSessionkeyReq_quiet : Within Quiet (sendUpdateSessionkeyReq c) := by
  refine .bind (commonSerialize_quiet _) fun _ => .bind (.read _) fun _ => ?_
  refine .bind (appendPayload_quiet _) fun _ => .bind (signSerialize_quiet c) fun _ => ?_
  exact .bind (headerSerialize_quiet _) fun _ => sendLbsMsg_quiet.ignore

theorem sendAuthenticationCreatDevId_quiet : Within Quiet (sendAuthenticationCreatDevId c) := by
  refine .bind (commonSerialize_quiet _) fun _ => .bind (signSerialize_quiet c) fun _ => ?_
  exact .bind (headerSerialize_quiet _) fun _ => sendLbsMsg_quiet.ignore

theorem appendRandom_quiet (random : Affair → UInt8) : Within Quiet (appendRandom c random) :=
  .bind (.read _) fun _ => .bind (crypto_quiet _) fun _ => appendPayload_quiet _

theorem sendRefreshsessionkeyI_quiet : Within Quiet (sendRefreshsessionkeyI c) := by
  refine .bind (commonSerialize_quiet _) fun _ => .bind (.read _) fun _ => ?_
  refine .bind (appendPayload_quiet _) fun _ => .bind (appendRandom_quiet c _) fun _ => ?_
  exact .bind (headerSerializeOld_quiet _) fun _ => sendLbsMsg_quiet.ignore

theorem sendRefreshsessionkeyIII_quiet : Within Quiet (sendRefreshsessionkeyIII c) := by
  refine .bind (commonSerialize_quiet _) fun _ => .bind (appendRandom_quiet c _) fun _ => ?_
  exact .bind (headerSerializeOld_quiet _) fun _ => sendLbsMsg_quiet.ignore

theorem sendCryptoDataReq_quiet : Within Quiet (sendCryptoDataReq c) := by
  refine .bind (commonSerialize_quiet _) fun _ => .bind (malloc_quiet _) fun _ => ?_
  refine .bind (.read _) fun _ => .bind (malloc_quiet _) fun _ => .bind (malloc_quiet _) fun _ => ?_
  refine .bind (crypto_quiet _) fun _ => .bind (appendPayload_quiet _) fun _ => ?_
  exact .bind (headerSerializeOld_quiet _) fun _ => sendLbsMsg_quiet.ignore

/-! ## How a step stops -/

/-- An error of the LBS, or behaviour that C leaves open. -/
def LbsStop : Stop → Prop
  | .code e => 0 < e ∧ e < Code.mqttErrorBegin
  | .fault => True

instance : DecidablePred LbsStop
  | .code e => inferInstanceAs (Decidable (0 < e ∧ e < Code.mqttErrorBegin))
  | .fault => .isTrue trivial

theorem platform_lbsStop (b : UInt8) : LbsStop (.code (Code.platform b)) := by
  have hlow := b.toInt8.le_toInt
  have hhigh := b.toInt8.toInt_lt
  simp only [LbsStop, Code.platform, Code.platformError, Code.mqttErrorBegin]
  omega

theorem netError_lbsStop (e : NetError) : LbsStop (.code e.code) := by
  cases e <;> decide

theorem check_stops {bad : Prop} [Decidable bad] {e : Nat} (h : LbsStop (.code e)) :
    Stops LbsStop (check bad e) := .ite (.stop h) (.pure _)

theorem malloc_stops {e : Nat} (h : LbsStop (.code e)) : Stops LbsStop (malloc e) := by
  intro s e' hs
  simp only [malloc] at hs
  split at hs
  · cases hs
    exact h
  · cases hs
  · cases hs

theorem crypto_stops {α : Type} (x : Except CryptoError α) : Stops LbsStop (crypto x) := by
  refine .lift fun e h => ?_
  cases x with
  | ok a => cases h
  | error err =>
      cases h
      cases err <;> decide

theorem receive_stops {α : Type}
    (f : List (Except NetError UInt8) → Except NetError α × List (Except NetError UInt8)) :
    Stops LbsStop (receive f) := by
  intro s e h
  simp only [receive] at h
  split at h
  · cases h
  · cases h
    exact netError_lbsStop _

theorem readByte_stops : Stops LbsStop readByte :=
  .bind (receive_stops _) fun _ => .pure _

theorem netWrite_stops : Stops LbsStop netWrite := by
  intro s e h
  simp only [netWrite] at h
  split at h
  · cases h
    exact netError_lbsStop _
  · cases h
  · cases h

theorem netCreate_stops : Stops LbsStop netCreate := by
  intro s e h
  simp only [netCreate] at h
  split at h
  · cases h
    decide
  · cases h
  · cases h

theorem netConnect_stops : Stops LbsStop netConnect := by
  intro s e h
  simp only [netConnect] at h
  split at h <;> cases h

theorem lbsConnect_stops : Stops LbsStop lbsConnect := by
  refine .bind netCreate_stops fun _ => .bind netConnect_stops fun r => ?_
  cases r with
  | ok ip => exact .write _
  | error e =>
      refine .bind netCreate_stops fun _ => .bind (.read _) fun _ => .ite (.stop ?_) ?_
      · cases e <;> decide
      · refine .bind netConnect_stops fun r => ?_
        cases r with
        | ok ip => exact .write _
        | error e =>
            refine .stop ?_
            cases e <;> decide

theorem setAffair_stops (f : Affair → Affair) : Stops LbsStop (setAffair f) := .write _

theorem waitAssignResponse_stops : Stops LbsStop waitAssignResponse := by
  refine .bind readByte_stops fun byte1 => .bind (receive_stops _) fun remainLen => ?_
  refine .bind (setAffair_stops _) fun _ => .ite ?_ ?_
  · refine .bind (check_stops (by decide)) fun _ => .bind readByte_stops fun b => ?_
    refine .bind (setAffair_stops _) fun _ => .bind (check_stops (by decide)) fun _ => ?_
    exact .bind (receive_stops _) fun _ => .bind (setAffair_stops _) fun _ => .pure _
  · refine .bind (check_stops (by decide)) fun _ => .bind (receive_stops _) fun _ => ?_
    exact .bind (setAffair_stops _) fun _ => .pure _

theorem waitReply_stops (cmd : UInt8) : Stops LbsStop (waitReply cmd) :=
  .bind waitAssignResponse_stops fun _ => .bind (check_stops (by decide)) fun _ => .pure _

theorem headerSerialize_stops (cmd : UInt8) : Stops LbsStop (headerSerialize cmd) :=
  .bind (.read _) fun _ =>
    .ite (.ite (.stop trivial) (setAffair_stops _)) (setAffair_stops _)

theorem sendLbsMsg_stops : Stops LbsStop sendLbsMsg :=
  .bind netWrite_stops fun _ => .bind (.read _) fun _ =>
    .ite (.bind netWrite_stops fun _ => netWrite_stops) netWrite_stops

theorem signSerialize_stops : Stops LbsStop (signSerialize c) :=
  .bind (.read _) fun _ => .bind (crypto_stops _) fun _ => setAffair_stops _

theorem appendRandom_stops (random : Affair → UInt8) : Stops LbsStop (appendRandom c random) :=
  .bind (.read _) fun _ => .bind (crypto_stops _) fun _ => setAffair_stops _

theorem sendAuthenticationI_stops : Stops LbsStop (sendAuthenticationI c) := by
  refine .bind (setAffair_stops _) fun _ => .bind (.read _) fun _ => ?_
  refine .bind (setAffair_stops _) fun _ => .bind (.read _) fun _ => .ite ?_ (.stop (by decide))
  exact .bind (.ignore _) fun _ => .bind (headerSerialize_stops _) fun _ => sendLbsMsg_stops

theorem sendUpdateSessionkeyReq_stops : Stops LbsStop (sendUpdateSessionkeyReq c) := by
  refine .bind (setAffair_stops _) fun _ => .bind (.read _) fun _ => ?_
  refine .bind (setAffair_stops _) fun _ => .bind (signSerialize_stops c) fun _ => ?_
  exact .bind (headerSerialize_stops _) fun _ => .ignore _

theorem sendAuthenticationCreatDevId_stops : Stops LbsStop (sendAuthenticationCreatDevId c) := by
  refine .bind (setAffair_stops _) fun _ => .bind (signSerialize_stops c) fun _ => ?_
  exact .bind (headerSerialize_stops _) fun _ => .ignore _

theorem sendRefreshsessionkeyI_stops : Stops LbsStop (sendRefreshsessionkeyI c) := by
  refine .bind (setAffair_stops _) fun _ => .bind (.read _) fun _ => ?_
  refine .bind (setAffair_stops _) fun _ => .bind (appendRandom_stops c _) fun _ => ?_
  exact .bind (setAffair_stops _) fun _ => .ignore _

theorem sendRefreshsessionkeyIII_stops : Stops LbsStop (sendRefreshsessionkeyIII c) := by
  refine .bind (setAffair_stops _) fun _ => .bind (appendRandom_stops c _) fun _ => ?_
  exact .bind (setAffair_stops _) fun _ => .ignore _

theorem sendCryptoDataReq_stops : Stops LbsStop (sendCryptoDataReq c) := by
  refine .bind (setAffair_stops _) fun _ => .bind (malloc_stops (by decide)) fun _ => ?_
  refine .bind (.read _) fun _ => .bind (malloc_stops (by decide)) fun _ => ?_
  refine .bind (malloc_stops (by decide)) fun _ => .bind (crypto_stops _) fun _ => ?_
  exact .bind (setAffair_stops _) fun _ => .bind (setAffair_stops _) fun _ => .ignore _

end EzIot.Lbs
