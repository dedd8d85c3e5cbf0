import EzIot.Lbs.AuthType
import EzIot.Lib.Base128
import Mathlib.Data.List.GetD

/-! # The length field of a packet

`header_serialize`, `header_serialize_old` and the loop of `wait_assign_response`
that reads what they write. The encoders stop after four bytes of length. The loop
counts its bytes in `remain_count` too, but never looks at the count.
-/

namespace EzIot.Lbs

open CText Kernel Program Base128

/-! ## The encoders -/

/-- The header buffers of `lbs_packet`: what was written to them, and their size. -/
structure LbsPacket where
  headBuf : Bytes
  headBufLen : UInt8
  varHeadBuf : Bytes
  varHeadBufLen : UInt8

/-- The outgoing packet of `init_lbs_affair`. -/
def LbsPacket.fresh : LbsPacket := ⟨[], 16, [], 16⟩

def append (buf : Bytes) (len : UInt8) (bs : Bytes) : Except Stop Bytes :=
  if buf.length + bs.length ≤ len.toNat then .ok (buf ++ bs) else .error .fault

/-- The types of authentication that go into the variable header. -/
def varHead (kernel : SdkKernel) : Bytes :=
  kernel.devCurAuthType :: kernel.devAuthTypeCount ::
    (List.range kernel.devAuthTypeCount.toNat).map fun i => kernel.devAuthTypeGroup.getD i 0

def serializeVarHead (kernel : SdkKernel) (pack : LbsPacket) : Except Stop LbsPacket :=
  match append pack.varHeadBuf pack.varHeadBufLen (varHead kernel) with
  | .error e => .error e
  | .ok varHeadBuf => .ok { pack with varHeadBuf := varHeadBuf }

def serializeHead (pack : LbsPacket) (byte1 : UInt8) (len : UInt32) : Except Stop LbsPacket :=
  if pack.headBufLen < 5 then .error (.code Code.memLack)
  else
    match append pack.headBuf pack.headBufLen (byte1 :: lengthBytes 4 len.toNat) with
    | .error e => .error e
    | .ok headBuf => .ok { pack with headBuf := headBuf }

/-- `DEV_PROTOCOL_AUTHENTICATION_I` as a command. -/
def cmdAuthenticationI : UInt32 := 0x1

def LbsPacket.headerSerialize (kernel : SdkKernel) (pack : LbsPacket) (cmd remainLen : UInt32) :
    Except Stop LbsPacket :=
  if cmd = cmdAuthenticationI then
    match serializeVarHead kernel pack with
    | .error e => .error e
    | .ok pack => serializeHead pack ((((cmd &&& 0x0F) <<< 4) ||| 0x2).toUInt8 ||| 0x8)
        (remainLen + pack.varHeadBuf.length.toUInt32)
  else serializeHead pack (((cmd &&& 0x0F) <<< 4) ||| 0x2).toUInt8 remainLen

def LbsPacket.headerSerializeOld (pack : LbsPacket) (cmd remainLen : UInt32) :
    Except Stop LbsPacket :=
  serializeHead pack ((cmd &&& 0x0F) <<< 4).toUInt8 remainLen

theorem length_varHead (kernel : SdkKernel) :
    (varHead kernel).length = kernel.devAuthTypeCount.toNat + 2 := by
  simp only [varHead, List.length_cons, List.length_map, List.length_range]

/-! ## Four length bytes -/

/-- A length below `128 ^ fuel` is a whole field. -/
theorem lengthBytes_field (fuel : Nat) {n : Nat} (h : n < 128 ^ (fuel + 1)) :
    IsField (lengthBytes (fuel + 1) n) ∧ value (lengthBytes (fuel + 1) n) = n := by
  induction fuel generalizing n with
  | zero =>
      have hn : n < 128 := by omega
      have hdigit := last_digit hn
      rw [lengthBytes, if_neg (by omega), Nat.mod_eq_of_lt hn]
      refine ⟨.last hdigit.2, ?_⟩
      rw [value, hdigit.1, value]
      omega
  | succ fuel ih =>
      rw [lengthBytes]
      have hmod : n % 128 < 128 := Nat.mod_lt n (by omega)
      split
      · have hdiv : n / 128 < 128 ^ (fuel + 1) := by
          rw [Nat.div_lt_iff_lt_mul (by omega), ← Nat.pow_succ]
          exact h
        have hrest := ih hdiv
        have hdigit := more_digit hmod
        refine ⟨.more hdigit.2 hrest.1, ?_⟩
        rw [value, hdigit.1, hrest.2]
        omega
      · have hn : n < 128 := by omega
        have hdigit := last_digit hmod
        refine ⟨.last hdigit.2, ?_⟩
        rw [value, hdigit.1, value]
        omega

/-- A longer one is cut off: every byte announces another one. -/
theorem lengthBytes_cut {fuel n : Nat} (h : 128 ^ fuel ≤ n) :
    ∀ b ∈ lengthBytes fuel n, ¬ Last b := by
  induction fuel generalizing n with
  | zero =>
      intro b hb
      cases hb
  | succ fuel ih =>
      have hdiv : 128 ^ fuel ≤ n / 128 := by
        rw [Nat.le_div_iff_mul_le (by omega), ← Nat.pow_succ]
        exact h
      have hpos : 0 < 128 ^ fuel := Nat.pow_pos (by omega)
      intro b hb
      rw [lengthBytes, if_pos (by omega), List.mem_cons] at hb
      rcases hb with rfl | hb
      · exact (more_digit (Nat.mod_lt n (by omega))).2
      · exact ih hdiv b hb

theorem length_lengthBytes (fuel n : Nat) : (lengthBytes fuel n).length ≤ fuel := by
  induction fuel generalizing n with
  | zero => exact Nat.le_refl 0
  | succ fuel ih =>
      rw [lengthBytes]
      split
      · have h := ih (n / 128)
        rw [List.length_cons]
        omega
      · rw [List.length_singleton]
        omega

/-! ## What the loop reads -/

theorem accumulate (len mult : UInt32) (b : UInt8) (v : Nat) :
    len + (b &&& 0x7F).toUInt32 * mult + (mult * 128) * UInt32.ofNat v =
      len + mult * UInt32.ofNat (digit b + 128 * v) := by
  have hb : (b &&& 0x7F).toUInt32 = UInt32.ofNat (digit b) := by
    rw [← UInt32.toNat_inj, UInt8.toNat_toUInt32, UInt32.toNat_ofNat']
    have h := digit_lt b
    unfold digit at h ⊢
    omega
  rw [hb, UInt32.ofNat_add, UInt32.ofNat_mul]
  change _ = len + mult * (UInt32.ofNat (digit b) + 128 * UInt32.ofNat v)
  rw [UInt32.mul_add, UInt32.mul_comm (UInt32.ofNat (digit b)), UInt32.add_assoc,
    UInt32.mul_assoc]

theorem remainLoop_last {b : UInt8} (h : Last b) (rest : List (Except NetError UInt8))
    (len mult : UInt32) :
    remainLoop (.ok b :: rest) len mult = (.ok (len + (b &&& 0x7F).toUInt32 * mult), rest) := by
  rw [remainLoop]
  exact if_pos h

theorem remainLoop_more {b : UInt8} (h : ¬ Last b) (rest : List (Except NetError UInt8))
    (len mult : UInt32) :
    remainLoop (.ok b :: rest) len mult =
      remainLoop rest (len + (b &&& 0x7F).toUInt32 * mult) (mult * 128) := by
  rw [remainLoop]
  exact if_neg h

theorem remainLoop_field {field : Bytes} (hfield : IsField field)
    (rest : List (Except NetError UInt8)) (len mult : UInt32) :
    remainLoop (field.map .ok ++ rest) len mult =
      (.ok (len + mult * UInt32.ofNat (value field)), rest) := by
  induction hfield generalizing len mult with
  | @last b h =>
      have hstep := accumulate len mult b 0
      rw [show UInt32.ofNat 0 = 0 from rfl, UInt32.mul_zero, UInt32.add_zero] at hstep
      change remainLoop (.ok b :: rest) len mult = _
      rw [remainLoop_last h, hstep]
      rfl
  | @more b bs h hbs ih =>
      change remainLoop (.ok b :: (bs.map .ok ++ rest)) len mult = _
      rw [remainLoop_more h, ih, accumulate]
      rfl

theorem remainLoop_ok {incoming rest : List (Except NetError UInt8)} {len mult r : UInt32}
    (h : remainLoop incoming len mult = (.ok r, rest)) :
    ∃ field, IsField field ∧ incoming = field.map .ok ++ rest := by
  induction incoming generalizing len mult with
  | nil => cases h
  | cons x incoming ih =>
      cases x with
      | error e => cases h
      | ok b =>
          by_cases hb : Last b
          · rw [remainLoop_last hb] at h
            cases h
            exact ⟨[b], .last hb, rfl⟩
          · rw [remainLoop_more hb] at h
            rcases ih h with ⟨field, hfield, rfl⟩
            exact ⟨b :: field, .more hb hfield, rfl⟩

/-! ## Messages -/

def Session.arriving (s : Session) (incoming : List (Except NetError UInt8)) : Session :=
  { s with world := { s.world with incoming := incoming } }

/-- The command in the first byte. -/
def revCmdOf (byte1 : UInt8) : UInt8 := (byte1 &&& 0xF0) >>> 4

/-- The part of `wait_assign_response` that reads the header. -/
def readHeader : Run (UInt8 × UInt32) := do
  let byte1 ← readByte
  let remainLen ← receive fun incoming => remainLoop incoming 0 1
  return (byte1, remainLen)

def readPayload (revCmd : UInt8) (remainLen : UInt32) : Run (UInt8 × UInt32) := do
  let payload ← netRead remainLen.toNat
  setAffair fun a => { a with inPayload := payload }
  return (revCmd, remainLen)

/-- The part of `wait_assign_response` behind the header. -/
def readRest (byte1 : UInt8) (remainLen : UInt32) : Run (UInt8 × UInt32) := do
  setAffair fun a => { a with inHead := byte1 }
  if varHeadFlag byte1 = 1 ∧ revCmdOf byte1 = authenticationII then
    check (payloadBufLen + varHeadBufLen < remainLen) Code.memLack
    let b ← readByte
    setAffair fun a => { a with inVarHead := b }
    check (payloadBufLen < remainLen - 1) Code.memLack
    readPayload (revCmdOf byte1) (remainLen - 1)
  else
    check (payloadBufLen < remainLen) Code.memLack
    readPayload (revCmdOf byte1) remainLen

theorem waitAssignResponse_eq :
    waitAssignResponse = readHeader >>= fun r => readRest r.1 r.2 := by
  unfold waitAssignResponse readHeader readRest readPayload
  simp only [bind_assoc, pure_bind]
  rfl

theorem readByte_arriving (s : Session) (b : UInt8) (rest : List (Except NetError UInt8)) :
    readByte (s.arriving (.ok b :: rest)) = (.ok b, s.arriving rest) := rfl

theorem readHeader_arriving (s : Session) (byte1 : UInt8) {field : Bytes} (hfield : IsField field)
    (rest : List (Except NetError UInt8)) :
    readHeader (s.arriving (.ok byte1 :: (field.map .ok ++ rest))) =
      (.ok (byte1, UInt32.ofNat (value field)), s.arriving rest) := by
  have hloop : (receive fun incoming => remainLoop incoming 0 1)
      (s.arriving (field.map .ok ++ rest)) =
        (.ok (UInt32.ofNat (value field)), s.arriving rest) := by
    have h := remainLoop_field hfield rest 0 1
    rw [UInt32.one_mul, UInt32.zero_add] at h
    simp only [receive, Session.arriving, h]
  unfold readHeader
  rw [bind_run, readByte_arriving]
  change ((receive fun incoming => remainLoop incoming 0 1) >>= _) _ = _
  rw [bind_run, hloop]
  rfl

theorem readByte_ok {s t : Session} {b : UInt8} (h : readByte s = (.ok b, t)) :
    s.world.incoming = .ok b :: t.world.incoming ∧ t = s.arriving t.world.incoming := by
  rcases s with ⟨kernel, affair, ⟨incoming, _⟩, saved⟩
  cases incoming with
  | nil => cases h
  | cons x rest =>
      cases x with
      | error e => cases h
      | ok b' =>
          cases h
          exact ⟨rfl, rfl⟩

theorem readHeader_ok {s t : Session} {byte1 : UInt8} {len : UInt32}
    (h : readHeader s = (.ok (byte1, len), t)) :
    ∃ field, IsField field ∧ t = s.arriving t.world.incoming ∧
      s.world.incoming = .ok byte1 :: (field.map .ok ++ t.world.incoming) ∧
      len = UInt32.ofNat (value field) := by
  rcases bind_returns.mp h with ⟨b, s₁, hbyte, h⟩
  rcases bind_returns.mp h with ⟨len', s₂, hloop, h⟩
  rcases pure_returns.mp h with ⟨heq, rfl⟩
  cases heq
  rcases readByte_ok hbyte with ⟨hincoming, hs₁⟩
  simp only [receive, Prod.mk.injEq] at hloop
  cases hr : remainLoop s₁.world.incoming 0 1 with
  | mk r rest =>
      rw [hr] at hloop
      rcases hloop with ⟨hlen, rfl⟩
      cases r with
      | error e => cases hlen
      | ok r =>
          cases hlen
          rcases remainLoop_ok hr with ⟨field, hfield, hrest⟩
          have hvalue := remainLoop_field hfield rest 0 1
          rw [← hrest, hr, UInt32.one_mul, UInt32.zero_add] at hvalue
          cases hvalue
          refine ⟨field, hfield, ?_, ?_, rfl⟩
          · rw [hs₁]
            rfl
          · rw [hincoming, hrest]

theorem takeBytes_append (bs : Bytes) (rest : List (Except NetError UInt8)) :
    takeBytes bs.length (bs.map .ok ++ rest) = (.ok bs, rest) := by
  induction bs with
  | nil => rfl
  | cons b bs ih =>
      change takeBytes (bs.length + 1) (.ok b :: (bs.map .ok ++ rest)) = _
      rw [takeBytes, ih]

theorem netRead_ok {n : Nat} {s t : Session} {bs : Bytes} (h : netRead n s = (.ok bs, t)) :
    0 < n ∧ bs.length = n ∧ s.world.incoming = bs.map .ok ++ t.world.incoming ∧
      t = s.arriving t.world.incoming := by
  simp only [netRead, receive, Prod.mk.injEq] at h
  cases hr : netReadFrom n s.world.incoming with
  | mk r rest =>
      rw [hr] at h
      rcases h with ⟨hbs, rfl⟩
      cases r with
      | error e => cases hbs
      | ok bs' =>
          cases hbs
          have hpos : n ≠ 0 := by
            intro hn
            simp only [netReadFrom, if_pos hn] at hr
            split at hr <;> cases hr
          have htake := hr
          simp only [netReadFrom, if_neg hpos] at htake
          exact ⟨Nat.pos_of_ne_zero hpos, (takeBytes_ok htake).1, netReadFrom_ok hr, rfl⟩

theorem netRead_arriving (s : Session) {bs : Bytes} (hpos : 0 < bs.length)
    (rest : List (Except NetError UInt8)) :
    netRead bs.length (s.arriving (bs.map .ok ++ rest)) = (.ok bs, s.arriving rest) := by
  have hne : bs.length ≠ 0 := Nat.ne_of_gt hpos
  simp only [netRead, receive, Session.arriving, netReadFrom, if_neg hne, takeBytes_append]

/-- The bytes of the variable header of a reply. -/
def varHeadCount (byte1 : UInt8) : Nat :=
  if varHeadFlag byte1 = 1 ∧ revCmdOf byte1 = authenticationII then 1 else 0

/-- A message that arrives whole: the payload is not empty, fits the buffer, and its
length is that of the field modulo 2^32. -/
structure Arrives (incoming : List (Except NetError UInt8)) (byte1 : UInt8)
    (field head body : Bytes) (rest : List (Except NetError UInt8)) : Prop where
  incoming_eq : incoming =
    .ok byte1 :: (field.map .ok ++ (head.map .ok ++ (body.map .ok ++ rest)))
  isField : IsField field
  head_length : head.length = varHeadCount byte1
  body_pos : 0 < body.length
  body_le : body.length ≤ messageSizeMax
  length_eq : value field % 2 ^ 32 = head.length + body.length

theorem toNat_payloadBufLen : payloadBufLen.toNat = 16384 := rfl

theorem readPayload_ok {revCmd cmd : UInt8} {remainLen len : UInt32} {s t : Session}
    (h : readPayload revCmd remainLen s = (.ok (cmd, len), t)) :
    cmd = revCmd ∧ len = remainLen ∧ 0 < len.toNat ∧
      t.affair.inPayload.length = len.toNat ∧
      s.world.incoming = t.affair.inPayload.map .ok ++ t.world.incoming ∧
      t = { s.arriving t.world.incoming with
        affair := { s.affair with inPayload := t.affair.inPayload } } := by
  rcases bind_returns.mp h with ⟨payload, s₁, hread, h⟩
  rcases bind_returns.mp h with ⟨_, s₂, hset, h⟩
  rcases pure_returns.mp h with ⟨heq, rfl⟩
  cases heq
  have hs₂ := write_returns.mp hset
  rcases netRead_ok hread with ⟨hpos, hlen, hincoming, hs₁⟩
  subst hs₂
  exact ⟨rfl, rfl, hpos, hlen, hincoming, by rw [hs₁]; rfl⟩

theorem readPayload_arriving (revCmd : UInt8) {remainLen : UInt32} (s : Session) {bs : Bytes}
    (hlen : remainLen.toNat = bs.length) (hpos : 0 < bs.length)
    (rest : List (Except NetError UInt8)) :
    ∃ t, readPayload revCmd remainLen (s.arriving (bs.map .ok ++ rest)) =
      (.ok (revCmd, remainLen), t) := by
  refine ⟨_, bind_returns.mpr ⟨bs, s.arriving rest, ?_, rfl⟩⟩
  rw [hlen]
  exact netRead_arriving s hpos rest

theorem not_payloadBufLen_lt {len : UInt32} : ¬ payloadBufLen < len ↔ len.toNat ≤ 16384 := by
  rw [UInt32.not_lt, UInt32.le_iff_toNat_le, toNat_payloadBufLen]

theorem not_bothBufLen_lt {len : UInt32} :
    ¬ payloadBufLen + varHeadBufLen < len ↔ len.toNat ≤ 16400 := by
  rw [UInt32.not_lt, UInt32.le_iff_toNat_le]
  rfl

theorem toNat_sub_one {len : UInt32} {n : Nat} (hle : len.toNat ≤ 16400)
    (h : (len - 1).toNat = n) (hn : n ≤ 16384) : len.toNat = 1 + n := by
  rw [UInt32.toNat_sub] at h
  change (2 ^ 32 - 1 + len.toNat) % 2 ^ 32 = n at h
  omega

theorem readRest_ok {byte1 cmd : UInt8} {remainLen len : UInt32} {s t : Session}
    (h : readRest byte1 remainLen s = (.ok (cmd, len), t)) :
    ∃ head : Bytes, head.length = varHeadCount byte1 ∧
      s.world.incoming = head.map .ok ++ (t.affair.inPayload.map .ok ++ t.world.incoming) ∧
      remainLen.toNat = head.length + t.affair.inPayload.length ∧
      0 < t.affair.inPayload.length ∧ t.affair.inPayload.length ≤ messageSizeMax ∧
      cmd = revCmdOf byte1 ∧ len.toNat = t.affair.inPayload.length ∧
      t.affair.inHead = byte1 := by
  rcases bind_returns.mp h with ⟨_, s₁, hset, h⟩
  have hs₁ := write_returns.mp hset
  subst hs₁
  by_cases hflag : varHeadFlag byte1 = 1 ∧ revCmdOf byte1 = authenticationII
  · rw [if_pos hflag] at h
    rcases bind_returns.mp h with ⟨_, s₂, hboth, h⟩
    rcases bind_returns.mp h with ⟨b, s₃, hbyte, h⟩
    rcases bind_returns.mp h with ⟨_, s₄, hset', h⟩
    rcases bind_returns.mp h with ⟨_, s₅, hfits, h⟩
    rcases check_returns.mp hboth with ⟨hle, rfl⟩
    have hs₄ := write_returns.mp hset'
    subst hs₄
    rcases check_returns.mp hfits with ⟨hle', rfl⟩
    rcases readByte_ok hbyte with ⟨hincoming, hs₃⟩
    rcases readPayload_ok h with ⟨rfl, rfl, hpos, hlen, hrest, ht⟩
    rw [not_bothBufLen_lt] at hle
    rw [not_payloadBufLen_lt] at hle'
    have hsub := toNat_sub_one hle hlen.symm (by omega)
    refine ⟨[b], ?_, ?_, by rw [hsub, List.length_singleton], by omega, ?_, rfl, hlen.symm, ?_⟩
    · rw [varHeadCount, if_pos hflag, List.length_singleton]
    · change s.world.incoming = .ok b :: _
      rw [← hrest]
      exact hincoming
    · change _ ≤ 16384
      omega
    · rw [ht, hs₃]
      rfl
  · rw [if_neg hflag] at h
    rcases bind_returns.mp h with ⟨_, s₂, hfits, h⟩
    rcases check_returns.mp hfits with ⟨hle, rfl⟩
    rcases readPayload_ok h with ⟨rfl, rfl, hpos, hlen, hrest, ht⟩
    rw [not_payloadBufLen_lt] at hle
    refine ⟨[], ?_, hrest, by rw [hlen, List.length_nil]; omega, by omega, ?_, rfl, hlen.symm, ?_⟩
    · rw [varHeadCount, if_neg hflag, List.length_nil]
    · change _ ≤ 16384
      omega
    · rw [ht]

/-- An accepted message arrived whole. -/
theorem waitAssignResponse_ok {s t : Session} {cmd : UInt8} {len : UInt32}
    (h : waitAssignResponse s = (.ok (cmd, len), t)) :
    ∃ byte1 field head,
      Arrives s.world.incoming byte1 field head t.affair.inPayload t.world.incoming ∧
        cmd = revCmdOf byte1 ∧ len.toNat = t.affair.inPayload.length ∧
        t.affair.inHead = byte1 := by
  rw [waitAssignResponse_eq] at h
  rcases bind_returns.mp h with ⟨⟨byte1, remainLen⟩, s₁, hheader, h⟩
  rcases readHeader_ok hheader with ⟨field, hfield, _, hincoming, hlen⟩
  rcases readRest_ok h with ⟨head, hhead, hrest, hremain, hpos, hle, hcmd, hresult, hin⟩
  rw [hlen, UInt32.toNat_ofNat'] at hremain
  exact ⟨byte1, field, head,
    ⟨by rw [hincoming, hrest], hfield, hhead, hpos, hle, hremain⟩, hcmd, hresult, hin⟩

/-- A message that arrives whole is accepted. -/
theorem waitAssignResponse_arrives {s : Session} {byte1 : UInt8} {field head body : Bytes}
    {rest : List (Except NetError UInt8)}
    (h : Arrives s.world.incoming byte1 field head body rest) :
    ∃ r t, waitAssignResponse s = (.ok r, t) := by
  have hs : s = s.arriving (.ok byte1 ::
      (field.map .ok ++ (head.map .ok ++ (body.map .ok ++ rest)))) := by
    rw [← h.incoming_eq]
    rfl
  have hheader := readHeader_arriving s byte1 h.isField
    (head.map .ok ++ (body.map .ok ++ rest))
  rw [← hs] at hheader
  have hvalue : (UInt32.ofNat (value field)).toNat = head.length + body.length := by
    rw [UInt32.toNat_ofNat']
    exact h.length_eq
  have hle := h.body_le
  change body.length ≤ 16384 at hle
  have hhead := h.head_length
  rw [waitAssignResponse_eq, bind_run, hheader]
  change ∃ r t, readRest byte1 (UInt32.ofNat (value field)) _ = (.ok r, t)
  generalize UInt32.ofNat (value field) = remainLen at hvalue ⊢
  by_cases hflag : varHeadFlag byte1 = 1 ∧ revCmdOf byte1 = authenticationII
  · rw [varHeadCount, if_pos hflag] at hhead
    rcases List.length_eq_one_iff.mp hhead with ⟨b, rfl⟩
    rw [List.length_singleton] at hvalue
    have hsub : (remainLen - 1).toNat = body.length := by
      rw [UInt32.toNat_sub]
      change (2 ^ 32 - 1 + remainLen.toNat) % 2 ^ 32 = _
      omega
    have hboth := not_bothBufLen_lt.mpr (show remainLen.toNat ≤ 16400 by omega)
    have hfits := not_payloadBufLen_lt.mpr (show (remainLen - 1).toNat ≤ 16384 by omega)
    rcases readPayload_arriving (revCmdOf byte1)
      { s with affair := { s.affair with inHead := byte1, inVarHead := b } } hsub h.body_pos rest
      with ⟨t, ht⟩
    refine ⟨(revCmdOf byte1, remainLen - 1), t, ?_⟩
    unfold readRest
    rw [if_pos hflag]
    simp only [check, if_neg hboth, if_neg hfits, pure_bind]
    exact ht
  · rw [varHeadCount, if_neg hflag] at hhead
    rw [List.eq_nil_of_length_eq_zero hhead] at hvalue ⊢
    have hlen : remainLen.toNat = body.length := by
      rw [hvalue, List.length_nil, Nat.zero_add]
    have hfits := not_payloadBufLen_lt.mpr (show remainLen.toNat ≤ 16384 by omega)
    rcases readPayload_arriving (revCmdOf byte1)
      { s with affair := { s.affair with inHead := byte1 } } hlen h.body_pos rest with ⟨t, ht⟩
    refine ⟨(revCmdOf byte1, remainLen), t, ?_⟩
    unfold readRest
    rw [if_neg hflag]
    simp only [check, if_neg hfits, pure_bind]
    exact ht

/-! ## The encoders write what the loop reads -/

theorem firstByte_facts : ∀ c : Fin 16,
    revCmdOf ((UInt32.ofNat c.val <<< 4) ||| 0x2).toUInt8 = c.val.toUInt8 ∧
      revCmdOf (((UInt32.ofNat c.val <<< 4) ||| 0x2).toUInt8 ||| 0x8) = c.val.toUInt8 ∧
      revCmdOf (UInt32.ofNat c.val <<< 4).toUInt8 = c.val.toUInt8 := by
  decide +kernel

theorem lowBits_eq (cmd : UInt32) : ∃ c : Fin 16,
    cmd &&& 0x0F = UInt32.ofNat c.val ∧ (cmd &&& 0x0F).toUInt8 = c.val.toUInt8 := by
  have hlt : (cmd &&& 0x0F).toNat < 16 := by
    rw [UInt32.toNat_and]
    exact Nat.lt_of_le_of_lt Nat.and_le_right (show (0x0F : UInt32).toNat < 16 by decide)
  have heq : cmd &&& 0x0F = UInt32.ofNat (cmd &&& 0x0F).toNat := (UInt32.ofNat_toNat).symm
  refine ⟨⟨(cmd &&& 0x0F).toNat, hlt⟩, heq, ?_⟩
  change _ = UInt8.ofNat (cmd &&& 0x0F).toNat
  rw [← UInt8.toNat_inj, UInt32.toNat_toUInt8, UInt8.toNat_ofNat']

theorem revCmdOf_firstByte (cmd : UInt32) :
    revCmdOf (((cmd &&& 0x0F) <<< 4) ||| 0x2).toUInt8 = (cmd &&& 0x0F).toUInt8 ∧
      revCmdOf ((((cmd &&& 0x0F) <<< 4) ||| 0x2).toUInt8 ||| 0x8) = (cmd &&& 0x0F).toUInt8 ∧
      revCmdOf ((cmd &&& 0x0F) <<< 4).toUInt8 = (cmd &&& 0x0F).toUInt8 := by
  rcases lowBits_eq cmd with ⟨c, hc, hbyte⟩
  rw [hc] at hbyte ⊢
  rw [hbyte]
  exact firstByte_facts c

/-- What the loop makes of a header, whatever follows it. -/
def ReadsBack (s : Session) (head : Bytes) (cmd len : UInt32) : Prop :=
  ∀ rest, ∃ byte1, readHeader (s.arriving (head.map .ok ++ rest)) =
    (.ok (byte1, len), s.arriving rest) ∧ revCmdOf byte1 = (cmd &&& 0x0F).toUInt8

/-- A header is read back as long as four bytes hold its length. -/
theorem readsBack_iff (s : Session) (len : UInt32) {byte1 : UInt8} {cmd : UInt32}
    (hcmd : revCmdOf byte1 = (cmd &&& 0x0F).toUInt8) :
    ReadsBack s (byte1 :: lengthBytes 4 len.toNat) cmd len ↔ len.toNat < 128 ^ 4 := by
  constructor
  · intro h
    by_contra hlong
    rcases h [] with ⟨b, hread, _⟩
    rcases readHeader_ok hread with ⟨field, hfield, _, hincoming, _⟩
    have hprefix : (lengthBytes 4 len.toNat).map Except.ok =
        field.map (Except.ok (ε := NetError)) := by
      have htail := congrArg List.tail hincoming
      simpa [Session.arriving] using htail
    have heq : lengthBytes 4 len.toNat = field :=
      List.map_injective_iff.mpr (fun _ _ h => Except.ok.inj h) hprefix
    rcases hfield.last_mem with ⟨b', hmem, hlast⟩
    rw [← heq] at hmem
    exact lengthBytes_cut (Nat.le_of_not_lt hlong) b' hmem hlast
  · intro h rest
    have hfield := lengthBytes_field 3 h
    have hread := readHeader_arriving s byte1 hfield.1 rest
    rw [hfield.2, UInt32.ofNat_toNat] at hread
    exact ⟨byte1, hread, hcmd⟩

theorem serializeHead_fresh (varHeadBuf : Bytes) (byte1 : UInt8) (len : UInt32) :
    serializeHead ⟨[], 16, varHeadBuf, 16⟩ byte1 len =
      .ok ⟨byte1 :: lengthBytes 4 len.toNat, 16, varHeadBuf, 16⟩ := by
  have hlen := length_lengthBytes 4 len.toNat
  have hfits : ([] : Bytes).length + (byte1 :: lengthBytes 4 len.toNat).length ≤
      (16 : UInt8).toNat := by
    change 0 + ((lengthBytes 4 len.toNat).length + 1) ≤ 16
    omega
  unfold serializeHead append
  rw [if_neg (show ¬ (16 : UInt8) < 5 by decide), if_pos hfits]
  rfl

/-- The length that a header announces. -/
def LbsPacket.announced (pack : LbsPacket) (cmd remainLen : UInt32) : UInt32 :=
  if cmd = cmdAuthenticationI then remainLen + pack.varHeadBuf.length.toUInt32 else remainLen

theorem headerSerialize_fresh (kernel : SdkKernel) (cmd n : UInt32) :
    LbsPacket.fresh.headerSerialize kernel cmd n =
      if cmd = cmdAuthenticationI then
        if 14 < kernel.devAuthTypeCount.toNat then .error .fault
        else .ok ⟨((((cmd &&& 0x0F) <<< 4) ||| 0x2).toUInt8 ||| 0x8) ::
          lengthBytes 4 (n + (varHead kernel).length.toUInt32).toNat, 16, varHead kernel, 16⟩
      else .ok ⟨(((cmd &&& 0x0F) <<< 4) ||| 0x2).toUInt8 :: lengthBytes 4 n.toNat, 16, [], 16⟩ := by
  have hvar := length_varHead kernel
  have hroom : ([] : Bytes).length + (varHead kernel).length ≤ (16 : UInt8).toNat ↔
      ¬ 14 < kernel.devAuthTypeCount.toNat := by
    change 0 + (varHead kernel).length ≤ 16 ↔ _
    omega
  unfold LbsPacket.headerSerialize serializeVarHead append LbsPacket.fresh
  by_cases hcmd : cmd = cmdAuthenticationI
  · rw [if_pos hcmd, if_pos hcmd]
    by_cases hfew : 14 < kernel.devAuthTypeCount.toNat
    · rw [if_pos hfew, if_neg (fun h => hroom.mp h hfew)]
    · rw [if_neg hfew, if_pos (hroom.mpr hfew)]
      exact serializeHead_fresh _ _ _
  · rw [if_neg hcmd, if_neg hcmd]
    exact serializeHead_fresh _ _ _

/-- The length of the first request does not wrap. -/
theorem toNat_add_varHead (kernel : SdkKernel) {n : UInt32} (hn : n.toNat < 128 ^ 4) :
    (n + (varHead kernel).length.toUInt32).toNat =
      n.toNat + kernel.devAuthTypeCount.toNat + 2 := by
  have hcount := kernel.devAuthTypeCount.toNat_lt
  rw [UInt32.toNat_add]
  change (n.toNat + (UInt32.ofNat (varHead kernel).length).toNat) % 2 ^ 32 = _
  rw [UInt32.toNat_ofNat', length_varHead]
  omega

theorem headerSerialize_readsBack_iff (kernel : SdkKernel) (s : Session) {cmd n : UInt32}
    (hn : n.toNat < 128 ^ 4) :
    (∃ pack, LbsPacket.fresh.headerSerialize kernel cmd n = .ok pack ∧
      ReadsBack s pack.headBuf cmd (pack.announced cmd n)) ↔
    (cmd = cmdAuthenticationI → kernel.devAuthTypeCount.toNat ≤ 14 ∧
      n.toNat + kernel.devAuthTypeCount.toNat + 2 < 128 ^ 4) := by
  have hbytes := revCmdOf_firstByte cmd
  rw [headerSerialize_fresh]
  by_cases hcmd : cmd = cmdAuthenticationI
  · rw [if_pos hcmd]
    have hread := readsBack_iff s (n + (varHead kernel).length.toUInt32) hbytes.2.1
    rw [← toNat_add_varHead kernel hn]
    by_cases hfew : 14 < kernel.devAuthTypeCount.toNat
    · rw [if_pos hfew]
      constructor
      · intro h
        rcases h with ⟨_, heq, _⟩
        cases heq
      · intro h
        exact absurd (h hcmd).1 (Nat.not_le.mpr hfew)
    · rw [if_neg hfew]
      constructor
      · intro h _
        rcases h with ⟨pack, heq, hback⟩
        cases heq
        rw [LbsPacket.announced, if_pos hcmd] at hback
        exact ⟨Nat.le_of_not_lt hfew, hread.mp hback⟩
      · intro h
        refine ⟨_, rfl, ?_⟩
        rw [LbsPacket.announced, if_pos hcmd]
        exact hread.mpr (h hcmd).2
  · rw [if_neg hcmd]
    refine iff_of_true ⟨_, rfl, ?_⟩ fun h => absurd h hcmd
    rw [LbsPacket.announced, if_neg hcmd]
    exact (readsBack_iff s _ hbytes.1).mpr hn

theorem headerSerializeOld_readsBack (s : Session) {cmd n : UInt32} (hn : n.toNat < 128 ^ 4) :
    ∃ pack, LbsPacket.fresh.headerSerializeOld cmd n = .ok pack ∧
      ReadsBack s pack.headBuf cmd n :=
  ⟨_, serializeHead_fresh _ _ _, (readsBack_iff s _ (revCmdOf_firstByte cmd).2.2).mpr hn⟩

theorem firstByte_of_byte : ∀ cmd : Fin 256,
    (((UInt32.ofNat cmd.val &&& 0x0F) <<< 4) ||| 0x2).toUInt8 =
        ((cmd.val.toUInt8 &&& 0x0F) <<< 4) ||| 0x2 ∧
      ((UInt32.ofNat cmd.val &&& 0x0F) <<< 4).toUInt8 = (cmd.val.toUInt8 &&& 0x0F) <<< 4 := by
  decide +kernel

theorem firstByte_toUInt32 (cmd : UInt8) :
    (((cmd.toUInt32 &&& 0x0F) <<< 4) ||| 0x2).toUInt8 = ((cmd &&& 0x0F) <<< 4) ||| 0x2 ∧
      ((cmd.toUInt32 &&& 0x0F) <<< 4).toUInt8 = (cmd &&& 0x0F) <<< 4 := by
  have h := firstByte_of_byte ⟨cmd.toNat, cmd.toNat_lt⟩
  have hwide : UInt32.ofNat cmd.toNat = cmd.toUInt32 := by
    rw [← UInt32.toNat_inj, UInt32.toNat_ofNat', UInt8.toNat_toUInt32]
    have hlt := cmd.toNat_lt
    omega
  have hbyte : cmd.toNat.toUInt8 = cmd := UInt8.ofNat_toNat
  change _ = ((cmd.toNat.toUInt8 &&& 0x0F) <<< 4) ||| 0x2 ∧
    _ = (cmd.toNat.toUInt8 &&& 0x0F) <<< 4 at h
  rw [hbyte] at h
  rw [← hwide]
  exact h

theorem take_eq_getD {l : Bytes} {n : Nat} (h : n ≤ l.length) :
    l.take n = (List.range n).map fun i => l.getD i 0 := by
  apply List.ext_getElem
  · rw [List.length_take, List.length_map, List.length_range]
    omega
  · intro i h₁ h₂
    rw [List.length_take] at h₁
    rw [List.getElem_take, List.getElem_map, List.getElem_range,
      List.getD_eq_getElem _ _ (by omega)]

/-- A payload in its buffer has a length of 32 bits. -/
theorem toNat_outPayload {payload : Bytes} (h : payload.length ≤ messageSizeMax) :
    payload.length.toUInt32.toNat = payload.length := by
  change payload.length ≤ 16384 at h
  change (UInt32.ofNat _).toNat = _
  rw [UInt32.toNat_ofNat']
  omega

theorem headerSerialize_packet {s : Session} (cmd : UInt8)
    (hgroup : s.kernel.devAuthTypeCount.toNat ≤ s.kernel.devAuthTypeGroup.length)
    (hpayload : s.affair.outPayload.length ≤ messageSizeMax) :
    (headerSerialize cmd s).1 = (LbsPacket.fresh.headerSerialize s.kernel cmd.toUInt32
        s.affair.outPayload.length.toUInt32).map (fun _ => ()) ∧
      ∀ pack, LbsPacket.fresh.headerSerialize s.kernel cmd.toUInt32
          s.affair.outPayload.length.toUInt32 = .ok pack →
        (headerSerialize cmd s).2.affair.outHead = pack.headBuf := by
  have hlen := toNat_outPayload hpayload
  have hbytes := firstByte_toUInt32 cmd
  change _ ≤ 16384 at hpayload
  rw [headerSerialize_fresh, hbytes.1]
  unfold headerSerialize
  rw [read_bind]
  by_cases hcmd : cmd = authenticationI
  · have hcmd' : cmd.toUInt32 = cmdAuthenticationI := by
      rw [hcmd]
      rfl
    rw [if_pos hcmd, if_pos hcmd']
    by_cases hfew : 14 < s.kernel.devAuthTypeCount.toNat
    · rw [if_pos hfew, if_pos hfew]
      refine ⟨rfl, ?_⟩
      intro pack h
      cases h
    · have hhead : [s.kernel.devCurAuthType, s.kernel.devAuthTypeCount] ++
          s.kernel.devAuthTypeGroup.take s.kernel.devAuthTypeCount.toNat = varHead s.kernel := by
        rw [take_eq_getD hgroup]
        rfl
      have hsum := toNat_add_varHead s.kernel
        (n := s.affair.outPayload.length.toUInt32) (by omega)
      rw [hlen, Nat.add_assoc, ← length_varHead] at hsum
      rw [if_neg hfew, if_neg hfew, hhead, hsum]
      refine ⟨rfl, ?_⟩
      intro pack h
      cases h
      rfl
  · have hcmd' : ¬ cmd.toUInt32 = cmdAuthenticationI := by
      intro h
      exact hcmd (UInt8.toUInt32_inj.mp h)
    rw [if_neg hcmd, if_neg hcmd', hlen]
    refine ⟨rfl, ?_⟩
    intro pack h
    cases h
    rfl

theorem headerSerializeOld_packet {s : Session} (cmd : UInt8)
    (hpayload : s.affair.outPayload.length ≤ messageSizeMax) :
    ∃ pack, LbsPacket.fresh.headerSerializeOld cmd.toUInt32
        s.affair.outPayload.length.toUInt32 = .ok pack ∧
      headerSerializeOld cmd s =
        (.ok (), { s with affair := { s.affair with outHead := pack.headBuf } }) := by
  refine ⟨_, serializeHead_fresh _ _ _, ?_⟩
  rw [toNat_outPayload hpayload, (firstByte_toUInt32 cmd).2]
  rfl

/-! ## Lengths that are accepted -/

/-- A message is rejected, or its length was read from at most four bytes and fits
32 bits as it is. -/
def LengthSound (s : Session) : Prop :=
  ∀ r t, waitAssignResponse s = (.ok r, t) →
    ∃ byte1 field rest, s.world.incoming = .ok byte1 :: (field.map .ok ++ rest) ∧
      readHeader s = (.ok (byte1, UInt32.ofNat (value field)), s.arriving rest) ∧
      field.length ≤ 4 ∧ value field < 128 ^ 4 ∧
      (UInt32.ofNat (value field)).toNat = value field

/-- A whole message whose length field has more than four bytes. -/
def Overlong (incoming : List (Except NetError UInt8)) : Prop :=
  ∃ byte1 field head body rest, Arrives incoming byte1 field head body rest ∧ 4 < field.length

theorem lengthSound_iff (s : Session) : LengthSound s ↔ ¬ Overlong s.world.incoming := by
  constructor
  · intro h hover
    rcases hover with ⟨byte1, field, head, body, rest, harrives, hlong⟩
    rcases waitAssignResponse_arrives harrives with ⟨r, t, hrun⟩
    rcases h r t hrun with ⟨b, field', rest', hincoming, hread, hshort, _⟩
    have hheader := readHeader_arriving s byte1 harrives.isField
      (head.map .ok ++ (body.map .ok ++ rest))
    rw [← harrives.incoming_eq] at hheader
    -- both readings leave the same bytes, so both fields have the same length
    have hrest : rest' = head.map .ok ++ (body.map .ok ++ rest) := by
      have hsession := congrArg (fun x => x.2.world.incoming) (hread.symm.trans hheader)
      exact hsession
    have hlen := congrArg List.length (hincoming.symm.trans harrives.incoming_eq)
    rw [hrest] at hlen
    simp only [List.length_cons, List.length_append, List.length_map] at hlen
    omega
  · intro h r t hrun
    rcases waitAssignResponse_ok hrun with ⟨byte1, field, head, harrives, _⟩
    have hshort : field.length ≤ 4 := by
      by_contra hlong
      exact h ⟨byte1, field, head, _, _, harrives, Nat.lt_of_not_le hlong⟩
    have hvalue : value field < 128 ^ 4 := Nat.lt_of_lt_of_le (value_lt field)
      (Nat.pow_le_pow_right (by omega) hshort)
    have hread := readHeader_arriving s byte1 harrives.isField
      (head.map .ok ++ (t.affair.inPayload.map .ok ++ t.world.incoming))
    rw [← harrives.incoming_eq] at hread
    refine ⟨byte1, field, _, harrives.incoming_eq, hread, hshort, hvalue, ?_⟩
    rw [UInt32.toNat_ofNat']
    omega

/-- Headers are read back unless the variable header makes the length too large for
four bytes, or does not fit its own buffer; and a length is sound unless a whole
message comes with more than four bytes of it. -/
theorem length_codec_iff (kernel : SdkKernel) (s : Session) (cmd n : UInt32)
    (hn : n.toNat < 128 ^ 4) :
    ((∃ pack, LbsPacket.fresh.headerSerialize kernel cmd n = .ok pack ∧
        ReadsBack s pack.headBuf cmd (pack.announced cmd n)) ∧
      (∃ pack, LbsPacket.fresh.headerSerializeOld cmd n = .ok pack ∧
        ReadsBack s pack.headBuf cmd n) ∧
      LengthSound s) ↔
    (cmd = cmdAuthenticationI → kernel.devAuthTypeCount.toNat ≤ 14 ∧
      n.toNat + kernel.devAuthTypeCount.toNat + 2 < 128 ^ 4) ∧
      ¬ Overlong s.world.incoming := by
  rw [headerSerialize_readsBack_iff kernel s hn, lengthSound_iff]
  constructor
  · intro h
    exact ⟨h.1, h.2.2⟩
  · intro h
    exact ⟨h.1, headerSerializeOld_readsBack s hn, h.2⟩

/-- A session with bytes on the way and nothing else. -/
def quietSession (incoming : List (Except NetError UInt8)) : Session where
  kernel := factoryKernel
  affair := emptyAffair
  world :=
    { incoming := incoming
      writes := []
      allocs := []
      creates := []
      connects := []
      random := 0
      heap := [] }
  saved := []

theorem length_codec_device :
    (∃ pack, LbsPacket.fresh.headerSerialize factoryKernel 1 300 = .ok pack ∧
      ReadsBack (quietSession []) pack.headBuf 1 (pack.announced 1 300)) ∧
      LengthSound (quietSession []) := by
  have hidle : ¬ Overlong (quietSession []).world.incoming := by
    intro h
    rcases h with ⟨byte1, field, head, body, rest, harrives, _⟩
    cases harrives.incoming_eq
  have h := (length_codec_iff factoryKernel (quietSession []) 1 300 (by decide)).mpr
    ⟨by decide, hidle⟩
  exact ⟨h.1, h.2.2⟩

/-- Five bytes of length that add up to `2 ^ 32 + 1`: one byte is read. -/
theorem wrapped_length_accepted :
    ¬ LengthSound (quietSession ([0xB0, 0x81, 0x80, 0x80, 0x80, 0x10, 0x00].map .ok)) := by
  have hfield : IsField [0x81, 0x80, 0x80, 0x80, 0x10] :=
    .more (by decide) (.more (by decide) (.more (by decide) (.more (by decide)
      (.last (by decide)))))
  have hover : Overlong (quietSession
      ([0xB0, 0x81, 0x80, 0x80, 0x80, 0x10, 0x00].map .ok)).world.incoming :=
    ⟨0xB0, [0x81, 0x80, 0x80, 0x80, 0x10], [], [0x00], [],
      ⟨rfl, hfield, by decide, by decide, by decide, by decide⟩, by decide⟩
  intro h
  exact (lengthSound_iff _).mp h hover

end EzIot.Lbs
