import EzIot.Conn.Process

/-! # The body of a request

The body comes in pieces, with time-outs between them. The buffer for it is as long as the
body, and every piece is written to its beginning.
-/

namespace EzIot.Conn

open CText

/-- The pieces that are taken, and whether receiving failed behind them. -/
def recvPieces (remainLen : Int) : List Recv → Option (List Bytes × Bool)
  | [] => if remainLen ≤ 0 then some ([], false) else none
  | r :: rs =>
      if remainLen ≤ 0 then some ([], false)
      else
        match r with
        | .timeout => recvPieces remainLen rs
        | .failed => some ([], true)
        | .data b =>
            if b = [] ∨ remainLen < b.length then none
            else (recvPieces (remainLen - b.length) rs).map fun p => (b :: p.1, p.2)

/-- Pieces written one after the other to the same place. -/
def overlay (mem : Bytes) (ps : List Bytes) : Bytes :=
  ps.foldl (fun m b => b ++ m.drop b.length) mem

section Pieces

variable {mem : Bytes} {remainLen : Int} {rs : List Recv} {ps : List Bytes} {failed : Bool}

theorem recvBody_eq (mem : Bytes) (remainLen : Int) (rs : List Recv) :
    recvBody mem remainLen rs = (recvPieces remainLen rs).map fun p => overlay mem p.1 := by
  induction rs generalizing mem remainLen with
  | nil =>
      unfold recvBody recvPieces
      split <;> rfl
  | cons r rs ih =>
      unfold recvBody recvPieces
      split
      · rfl
      · cases r with
        | timeout => exact ih mem remainLen
        | failed => rfl
        | data b =>
            simp only []
            split
            · rfl
            · rw [ih, Option.map_map]
              rfl

theorem recvBody_of_pieces (h : recvPieces remainLen rs = some (ps, failed)) :
    recvBody mem remainLen rs = some (overlay mem ps) := by
  rw [recvBody_eq, h]
  rfl

theorem recvPieces_of_nonpos (h : remainLen ≤ 0) : recvPieces remainLen rs = some ([], false) := by
  cases rs <;> simp only [recvPieces, if_pos h]

/-- A piece that is taken, and what is taken behind it. -/
theorem recvPieces_data {b : Bytes} (hpos : ¬ remainLen ≤ 0)
    (h : recvPieces remainLen (.data b :: rs) = some (ps, failed)) :
    b ≠ [] ∧ (b.length : Int) ≤ remainLen ∧
      ∃ qs, recvPieces (remainLen - b.length) rs = some (qs, failed) ∧ ps = b :: qs := by
  simp only [recvPieces, if_neg hpos] at h
  split at h
  next => cases h
  next hb =>
    obtain ⟨⟨qs, f⟩, hqs, heq⟩ := Option.map_eq_some_iff.mp h
    cases heq
    have hne : b ≠ [] := fun hnil => hb (.inl hnil)
    have hle : ¬ remainLen < b.length := fun hlt => hb (.inr hlt)
    exact ⟨hne, by omega, qs, hqs, rfl⟩

/-- No piece is empty, and together they are not longer than asked for: exactly as long if
receiving did not fail. -/
theorem recvPieces_length (hnonneg : 0 ≤ remainLen)
    (h : recvPieces remainLen rs = some (ps, failed)) :
    (∀ p ∈ ps, p ≠ []) ∧ (ps.flatten.length : Int) ≤ remainLen ∧
      (failed = false → (ps.flatten.length : Int) = remainLen) := by
  induction rs generalizing remainLen ps with
  | nil =>
      simp only [recvPieces] at h
      split at h
      next hle =>
        cases h
        simp only [List.flatten_nil, List.length_nil]
        exact ⟨by simp, by omega, by omega⟩
      next => cases h
  | cons r rs ih =>
      by_cases hle : remainLen ≤ 0
      · rw [recvPieces_of_nonpos hle] at h
        cases h
        simp only [List.flatten_nil, List.length_nil]
        exact ⟨by simp, by omega, by omega⟩
      · cases r with
        | timeout =>
            simp only [recvPieces, if_neg hle] at h
            exact ih hnonneg h
        | failed =>
            simp only [recvPieces, if_neg hle] at h
            cases h
            simp only [List.flatten_nil, List.length_nil]
            exact ⟨by simp, by omega, by simp⟩
        | data b =>
            obtain ⟨hne, hlen, qs, hqs, rfl⟩ := recvPieces_data hle h
            obtain ⟨hqne, hqle, hqeq⟩ := ih (by omega) hqs
            simp only [List.flatten_cons, List.length_append, List.forall_mem_cons]
            exact ⟨⟨hne, hqne⟩, by omega, fun hfailed => by
              have heq := hqeq hfailed
              omega⟩

theorem overlay_getElem? (mem : Bytes) {k : Nat} (h : ∀ p ∈ ps, p.length ≤ k) :
    (overlay mem ps)[k]? = mem[k]? := by
  induction ps generalizing mem with
  | nil => rfl
  | cons p ps ih =>
      have hp : p.length ≤ k := h p List.mem_cons_self
      have hrest := ih (p ++ mem.drop p.length) fun q hq => h q (List.mem_cons_of_mem p hq)
      unfold overlay at hrest ⊢
      rw [List.foldl_cons, hrest, List.getElem?_append_right hp, List.getElem?_drop]
      congr 1
      omega

theorem length_le_flatten {p : Bytes} (h : p ∈ ps) : p.length ≤ ps.flatten.length :=
  (List.sublist_flatten_of_mem h).length_le

/-- Of two pieces or more none is as long as all of them. -/
theorem length_lt_flatten {p : Bytes} (hne : ∀ q ∈ ps, q ≠ []) (hps : 1 < ps.length) (h : p ∈ ps) :
    p.length < ps.flatten.length := by
  obtain ⟨s, t, rfl⟩ := List.append_of_mem h
  have hother : ∃ q ∈ s ++ t, q ≠ [] := by
    cases hst : s ++ t with
    | nil =>
        obtain ⟨rfl, rfl⟩ := List.append_eq_nil_iff.mp hst
        exact absurd hps (by simp)
    | cons q rest =>
        have hq : q ∈ s ++ t := hst ▸ List.mem_cons_self
        refine ⟨q, List.mem_cons_self, hne q ?_⟩
        simp only [List.mem_append, List.mem_cons] at hq ⊢
        tauto
  obtain ⟨q, hq, hqne⟩ := hother
  have hpos := List.length_pos_iff.mpr hqne
  have hle := length_le_flatten hq
  simp only [List.flatten_append, List.flatten_cons, List.length_append] at hle ⊢
  omega

end Pieces

/-! ## The text of a body -/

/-- Whatever the buffer held, it holds the body in the end, and a terminator behind it. -/
def TextRight (r : ConfigReq) (body : Bytes) : Prop :=
  ∀ content : Bytes, content.length = r.contentLen →
    ∃ mem, recvBody (content ++ r.mem.drop r.contentLen) r.remainLen r.received = some mem ∧
      body ++ [0] <+: mem

/-- The length is an `int`, there is one piece at most, and behind the buffer stands a zero. -/
structure InOnePiece (r : ConfigReq) (ps : List Bytes) : Prop where
  remainLen : r.remainLen = r.contentLen
  pieces : ps.length ≤ 1
  terminator : r.mem[r.contentLen]? = some 0

section Text

variable {r : ConfigReq} {ps : List Bytes} {body : Bytes}

theorem remainLen_le (r : ConfigReq) : r.remainLen ≤ r.contentLen := by
  unfold ConfigReq.remainLen
  rw [Int.bmod_def]
  split <;> omega

/-- A byte that no piece reaches may be another one than that of the body. -/
theorem textRight_reached (hlen : body.length = r.contentLen) (h : TextRight r body)
    (hpieces : recvPieces r.remainLen r.received = some (ps, false)) (hpos : 0 < r.contentLen) :
    ∃ p ∈ ps, r.contentLen ≤ p.length := by
  by_contra hnone
  push Not at hnone
  have hshort : ∀ p ∈ ps, p.length ≤ r.contentLen - 1 := fun p hp => by
    have hlt := hnone p hp
    omega
  have hlast (b : UInt8) : body[r.contentLen - 1]? = some b := by
    obtain ⟨mem, hmem, hprefix⟩ := h (List.replicate r.contentLen b) List.length_replicate
    obtain ⟨rest, hrest⟩ := hprefix
    rw [recvBody_of_pieces hpieces, Option.some_inj] at hmem
    rw [← hmem] at hrest
    have hat := overlay_getElem? (List.replicate r.contentLen b ++ r.mem.drop r.contentLen) hshort
    rw [← hrest, List.append_assoc, List.getElem?_append_left (by omega),
      List.getElem?_append_left (by rw [List.length_replicate]; omega),
      List.getElem?_replicate, if_pos (by omega)] at hat
    exact hat
  have hsame := (hlast 0).symm.trans (hlast 1)
  exact absurd hsame (by decide)

theorem textRight_terminator (hlen : body.length = r.contentLen) (h : TextRight r body)
    (hpieces : recvPieces r.remainLen r.received = some (ps, false))
    (hshort : ∀ p ∈ ps, p.length ≤ r.contentLen) : r.mem[r.contentLen]? = some 0 := by
  obtain ⟨mem, hmem, rest, hrest⟩ := h (List.replicate r.contentLen 0) List.length_replicate
  rw [recvBody_of_pieces hpieces, Option.some_inj] at hmem
  rw [← hmem] at hrest
  have hat := overlay_getElem? (List.replicate r.contentLen 0 ++ r.mem.drop r.contentLen) hshort
  have hbehind : (List.replicate r.contentLen (0 : UInt8) ++ r.mem.drop r.contentLen)[r.contentLen]? =
      r.mem[r.contentLen]? := by
    rw [List.getElem?_append_right (by rw [List.length_replicate]), List.length_replicate,
      List.getElem?_drop, Nat.sub_self, Nat.add_zero]
  rw [← hrest, hbehind, List.append_assoc, List.getElem?_append_right (by omega), hlen,
    Nat.sub_self] at hat
  exact hat.symm

theorem inOnePiece_of_textRight (hlen : body.length = r.contentLen) (h : TextRight r body)
    (hpieces : recvPieces r.remainLen r.received = some (ps, false))
    (hshort : ∀ p ∈ ps, p.length ≤ r.contentLen) : InOnePiece r ps := by
  have hzero := textRight_terminator hlen h hpieces hshort
  have hle := remainLen_le r
  rcases Nat.eq_zero_or_pos r.contentLen with hnil | hpos
  · have hremain : r.remainLen = 0 := by
      unfold ConfigReq.remainLen
      rw [hnil]
      rfl
    rw [recvPieces_of_nonpos (by omega)] at hpieces
    cases hpieces
    exact ⟨by omega, by simp, hzero⟩
  · obtain ⟨p, hp, hreach⟩ := textRight_reached hlen h hpieces hpos
    have hnonneg : 0 ≤ r.remainLen := by
      by_contra hneg
      rw [recvPieces_of_nonpos (by omega)] at hpieces
      cases hpieces
      exact absurd hp List.not_mem_nil
    obtain ⟨hne, hsum, -⟩ := recvPieces_length hnonneg hpieces
    have hflat := length_le_flatten hp
    refine ⟨by omega, ?_, hzero⟩
    by_contra hmany
    have hlt := length_lt_flatten hne (by omega) hp
    omega

/-- One piece covers the buffer, and what stood behind it stays. -/
theorem overlay_whole {content : Bytes} (hcontent : content.length = r.contentLen)
    (hlen : body.length = r.contentLen) (hone : ps.length ≤ 1) (hwhole : ps.flatten = body) :
    overlay (content ++ r.mem.drop r.contentLen) ps = body ++ r.mem.drop r.contentLen := by
  rcases ps with _ | ⟨p, _ | ⟨q, ps⟩⟩
  · have hbody : body = [] := hwhole.symm
    have hnil : content = [] := List.length_eq_zero_iff.mp (by rw [hcontent, ← hlen, hbody]; rfl)
    rw [hbody, hnil]
    rfl
  · have hp : p = body := (List.append_nil p).symm.trans hwhole
    change p ++ (content ++ r.mem.drop r.contentLen).drop p.length = _
    rw [hp, hlen, ← hcontent, List.drop_left]
  · exact absurd hone (by simp)

theorem textRight_of_inOnePiece (hlen : body.length = r.contentLen) (h : InOnePiece r ps)
    (hpieces : recvPieces r.remainLen r.received = some (ps, false)) (hbody : ps.flatten <+: body) :
    TextRight r body := by
  intro content hcontent
  have hremain := h.remainLen
  obtain ⟨-, -, hsum⟩ := recvPieces_length (by omega) hpieces
  have hflat : ps.flatten.length = body.length := by
    have heq := hsum rfl
    omega
  have hwhole : ps.flatten = body := hbody.eq_of_length hflat
  have hbehind : [0] <+: r.mem.drop r.contentLen := by
    obtain ⟨hlt, hget⟩ := List.getElem?_eq_some_iff.mp h.terminator
    refine ⟨r.mem.drop (r.contentLen + 1), ?_⟩
    rw [List.drop_eq_getElem_cons hlt, hget]
    rfl
  refine ⟨body ++ r.mem.drop r.contentLen, ?_, (List.prefix_append_right_inj body).mpr hbehind⟩
  rw [recvBody_of_pieces hpieces, overlay_whole hcontent hlen h.pieces hwhole]

/-- The text is the body exactly if the body came in one piece and a zero happens to stand
behind the buffer. -/
theorem textRight_iff (hpieces : recvPieces r.remainLen r.received = some (ps, false))
    (hbody : ps.flatten <+: body) (hlen : body.length = r.contentLen) :
    TextRight r body ↔ InOnePiece r ps := by
  have hshort : ∀ p ∈ ps, p.length ≤ r.contentLen := fun p hp =>
    hlen ▸ Nat.le_trans (length_le_flatten hp) hbody.length_le
  constructor
  · intro h
    exact inOnePiece_of_textRight hlen h hpieces hshort
  · intro h
    exact textRight_of_inOnePiece hlen h hpieces hbody

end Text

end EzIot.Conn
