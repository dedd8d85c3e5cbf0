import EzIot.Lib.CText
import Mathlib.Data.List.Infix

/-! # Searching and scanning texts

`strstr` and `strrchr` on the text before the terminator, and `sscanf` over the
directives of a format. A pointer into the text is the suffix it points to.
-/

namespace EzIot.CText

/-! ## Searching -/

/-- `strstr`: the suffix at the first occurrence of a pattern. -/
def strstr (pat : Bytes) : Bytes → Option Bytes
  | [] => if pat = [] then some [] else none
  | b :: t => if pat.isPrefixOf (b :: t) then some (b :: t) else strstr pat t

/-- `strrchr`: the offset of the last occurrence of a byte. -/
def strrchr (c : UInt8) : Bytes → Option Nat
  | [] => none
  | b :: t =>
      match strrchr c t with
      | some i => some (i + 1)
      | none => if b = c then some 0 else none

theorem strrchr_eq_none {c : UInt8} {t : Bytes} (h : c ∉ t) : strrchr c t = none := by
  induction t with
  | nil => rfl
  | cons b t ih =>
      have hb : b ≠ c := fun hb => h (hb ▸ List.mem_cons_self)
      rw [strrchr, ih fun ht => h (List.mem_cons_of_mem b ht)]
      exact if_neg hb

/-- The last separator is the one before a piece without separators. -/
theorem strrchr_append {c : UInt8} {last : Bytes} (h : c ∉ last) (front : Bytes) :
    strrchr c (front ++ c :: last) = some front.length := by
  induction front with
  | nil => simp [strrchr, strrchr_eq_none h]
  | cons b front ih => simp [strrchr, ih]

/-- The first separator of a text is not behind another one. -/
theorem length_le_of_append_cons {c : UInt8} {u v s t : Bytes} (hu : c ∉ u)
    (h : u ++ c :: s = v ++ c :: t) : u.length ≤ v.length := by
  induction u generalizing v with
  | nil => exact Nat.zero_le _
  | cons a u ih =>
      obtain ⟨ha, hu⟩ := List.ne_and_not_mem_of_not_mem_cons hu
      cases v with
      | nil => exact absurd (List.cons.inj h).1.symm ha
      | cons b v => exact Nat.succ_le_succ (ih hu (List.cons.inj h).2)

/-- Two pieces without separators that are followed by one are the same. -/
theorem append_cons_inj {c : UInt8} {u v s t : Bytes} (hu : c ∉ u) (hv : c ∉ v)
    (h : u ++ c :: s = v ++ c :: t) : u = v ∧ s = t := by
  have hlen : u.length = v.length :=
    Nat.le_antisymm (length_le_of_append_cons hu h) (length_le_of_append_cons hv h.symm)
  rcases List.append_inj h hlen with ⟨huv, hst⟩
  exact ⟨huv, (List.cons.inj hst).2⟩

theorem isPrefixOf_segment {c : UInt8} {m seg : Bytes} (hm : c ∉ m) (hseg : c ∉ seg)
    (rest : Bytes) :
    (m ++ [c]).isPrefixOf (seg ++ c :: rest) ↔ m = seg := by
  rw [List.isPrefixOf_iff_prefix]
  constructor
  · intro hpre
    rcases hpre with ⟨u, hu⟩
    rw [List.append_assoc, List.singleton_append] at hu
    exact (append_cons_inj hm hseg hu).1
  · intro heq
    exact ⟨rest, by rw [heq, List.append_assoc, List.singleton_append]⟩

/-- A search for `m` and a separator, over one segment of a separated text: it
stops there exactly when the segment ends in `m`. -/
theorem strstr_segment {c : UInt8} {m seg : Bytes} (hm : c ∉ m) (hne : m ≠ [])
    (hseg : c ∉ seg) (rest : Bytes) :
    strstr (m ++ [c]) (seg ++ c :: rest) =
      if m <:+ seg then some (m ++ c :: rest) else strstr (m ++ [c]) rest := by
  induction seg with
  | nil =>
      have hmiss : ¬ (m ++ [c]).isPrefixOf (c :: rest) := by
        intro hp
        exact hne ((isPrefixOf_segment hm List.not_mem_nil rest).mp hp)
      rw [if_neg (by simpa using hne), List.nil_append, strstr, if_neg hmiss]
  | cons b seg ih =>
      have hhit := isPrefixOf_segment hm hseg rest
      rw [List.cons_append] at hhit
      rw [List.cons_append, strstr]
      by_cases heq : m = b :: seg
      · rw [if_pos (hhit.mpr heq), if_pos (heq ▸ List.suffix_refl m), heq, List.cons_append]
      · rw [if_neg (mt hhit.mp heq), ih fun h => hseg (List.mem_cons_of_mem b h)]
        simp only [List.suffix_cons_iff, heq, false_or]

/-- A search for one byte stops at the first of it. -/
theorem strstr_byte {c : UInt8} {seg : Bytes} (hseg : c ∉ seg) (rest : Bytes) :
    strstr [c] (seg ++ c :: rest) = some (c :: rest) := by
  induction seg with
  | nil => simp [strstr]
  | cons b seg ih =>
      obtain ⟨hb, hseg⟩ := List.ne_and_not_mem_of_not_mem_cons hseg
      have hmiss : ¬ [c].isPrefixOf (b :: (seg ++ c :: rest)) := by simpa using hb
      rw [List.cons_append, strstr, if_neg hmiss]
      exact ih hseg

theorem strstr_eq_some {pat t u : Bytes} (h : strstr pat t = some u) :
    pat <+: u ∧ ∃ front, t = front ++ u := by
  induction t with
  | nil =>
      rw [strstr] at h
      split at h
      · next hp =>
          cases h
          exact ⟨hp ▸ List.prefix_refl _, [], rfl⟩
      · cases h
  | cons b t ih =>
      rw [strstr] at h
      split at h
      · next hp =>
          cases h
          exact ⟨List.isPrefixOf_iff_prefix.mp hp, [], rfl⟩
      · rcases ih h with ⟨hp, front, hfront⟩
        exact ⟨hp, b :: front, by rw [hfront, List.cons_append]⟩

/-- A search stops at an occurrence or before it. -/
theorem length_le_of_strstr {pat t u : Bytes} (h : strstr pat t = some u) {front v : Bytes}
    (ht : t = front ++ v) (hv : pat <+: v) : v.length ≤ u.length := by
  induction t generalizing front with
  | nil =>
      have hnil := List.append_eq_nil_iff.mp ht.symm
      simp [hnil.2]
  | cons b t ih =>
      rw [strstr] at h
      split at h
      · cases h
        rw [ht, List.length_append]
        omega
      · next hmiss =>
          cases front with
          | nil => exact absurd (List.isPrefixOf_iff_prefix.mpr (ht ▸ hv)) hmiss
          | cons a front => exact ih h (List.cons.inj ht).2

/-! ## Formats -/

/-- The directives of the formats that the code uses. -/
inductive Directive
  -- an ordinary character
  | lit (b : UInt8)
  -- `%<width>[^<stop>]`
  | scanset (width : Nat) (stop : UInt8)
  -- `%s`
  | word
  -- `%d`
  | int
deriving DecidableEq

inductive Capture
  | text (s : Bytes)
  | int (i : Int)
deriving DecidableEq

/-- The bytes that `%<width>[^<stop>]` takes. -/
def takeSet (stop : UInt8) : Nat → Bytes → Bytes
  | 0, _ => []
  | _ + 1, [] => []
  | n + 1, b :: t => if b = stop then [] else b :: takeSet stop n t

/-- The captures of a scan, up to the first directive that does not match. Their
number is what `sscanf` returns. -/
def sscanf : List Directive → Bytes → List Capture
  | [], _ => []
  | .lit _ :: _, [] => []
  | .lit b :: fmt, c :: t => if c = b then sscanf fmt t else []
  | .scanset width stop :: fmt, t =>
      let s := takeSet stop width t
      if s = [] then [] else .text s :: sscanf fmt (t.drop s.length)
  | .word :: fmt, t =>
      let u := t.dropWhile isSpace
      let s := u.takeWhile (!isSpace ·)
      if s = [] then [] else .text s :: sscanf fmt (u.drop s.length)
  | .int :: fmt, t =>
      let (neg, u) := takeSign (t.dropWhile isSpace)
      let ds := u.takeWhile isDigit
      if ds = [] then []
      else .int (if neg then -(digitsValue ds : Int) else digitsValue ds) ::
        sscanf fmt (u.drop ds.length)

/-- The literal part of a format. -/
def lits (s : String) : List Directive := (ascii s).map .lit

@[simp] theorem sscanf_lit (b : UInt8) (fmt : List Directive) (t : Bytes) :
    sscanf (.lit b :: fmt) (b :: t) = sscanf fmt t := by
  rw [sscanf, if_pos rfl]

theorem sscanf_lits (s : String) (fmt : List Directive) (t : Bytes) :
    sscanf (lits s ++ fmt) (ascii s ++ t) = sscanf fmt t := by
  unfold lits
  induction ascii s with
  | nil => rfl
  | cons b s ih => simpa using ih

theorem takeSet_append {stop : UInt8} {width : Nat} {s : Bytes} (hs : stop ∉ s)
    (hwidth : s.length ≤ width) (t : Bytes) : takeSet stop width (s ++ stop :: t) = s := by
  induction s generalizing width with
  | nil => cases width <;> simp [takeSet]
  | cons b s ih =>
      obtain ⟨hb, hs⟩ := List.ne_and_not_mem_of_not_mem_cons hs
      cases width with
      | zero => cases hwidth
      | succ n => simp [takeSet, ih hs (Nat.le_of_succ_le_succ hwidth), Ne.symm hb]

/-- A scanned segment: it stops at the separator when the width allows. -/
theorem sscanf_scanset {width : Nat} {stop : UInt8} {s : Bytes} (hne : s ≠ []) (hs : stop ∉ s)
    (hwidth : s.length ≤ width) (fmt : List Directive) (t : Bytes) :
    sscanf (.scanset width stop :: fmt) (s ++ stop :: t) =
      .text s :: sscanf fmt (stop :: t) := by
  simp only [sscanf, takeSet_append hs hwidth, if_neg hne, List.drop_left]

theorem sscanf_word {s : Bytes} (hne : s ≠ []) (hs : ∀ b ∈ s, isSpace b = false) :
    sscanf [.word] s = [.text s] := by
  have hdrop : s.dropWhile isSpace = s := by
    rw [List.dropWhile_eq_self_iff]
    intro hlen
    simp [hs _ (List.getElem_mem hlen)]
  have htake : s.takeWhile (!isSpace ·) = s := by
    rw [List.takeWhile_eq_self_iff]
    intro b hb
    simp [hs b hb]
  simp only [sscanf, hdrop, htake, if_neg hne]

/-! ## What a successful scan says about the text -/

theorem sscanf_lit_eq_cons {b : UInt8} {fmt : List Directive} {t : Bytes} {cap : Capture}
    {caps : List Capture} (h : sscanf (.lit b :: fmt) t = cap :: caps) :
    ∃ rest, t = b :: rest ∧ sscanf fmt rest = cap :: caps := by
  cases t with
  | nil => cases h
  | cons c t =>
      rw [sscanf] at h
      split at h
      · next hc => exact ⟨t, by rw [hc], h⟩
      · cases h

theorem sscanf_lits_eq_cons {s : String} {fmt : List Directive} {t : Bytes} {cap : Capture}
    {caps : List Capture} (h : sscanf (lits s ++ fmt) t = cap :: caps) :
    ∃ rest, t = ascii s ++ rest ∧ sscanf fmt rest = cap :: caps := by
  unfold lits at h
  generalize ascii s = bs at h ⊢
  induction bs generalizing t with
  | nil => exact ⟨t, rfl, h⟩
  | cons b bs ih =>
      rcases sscanf_lit_eq_cons h with ⟨u, rfl, hu⟩
      rcases ih hu with ⟨rest, rfl, hrest⟩
      exact ⟨rest, rfl, hrest⟩

/-- The text of a scanset: a piece without the stop byte, cut only at the width. -/
structure Scanned (width : Nat) (stop : UInt8) (s rest : Bytes) : Prop where
  no_stop : stop ∉ s
  le_width : s.length ≤ width
  stopped : s.length < width → rest = [] ∨ ∃ rest', rest = stop :: rest'

theorem takeSet_scanned (stop : UInt8) (width : Nat) (t : Bytes) :
    ∃ rest, t = takeSet stop width t ++ rest ∧ Scanned width stop (takeSet stop width t) rest := by
  induction width generalizing t with
  | zero => exact ⟨t, rfl, List.not_mem_nil, Nat.le_refl 0, fun h => absurd h (Nat.lt_irrefl 0)⟩
  | succ n ih =>
      cases t with
      | nil => exact ⟨[], rfl, List.not_mem_nil, Nat.zero_le _, fun _ => .inl rfl⟩
      | cons b t =>
          rw [takeSet]
          by_cases hb : b = stop
          · rw [if_pos hb]
            exact ⟨b :: t, rfl, List.not_mem_nil, Nat.zero_le _, fun _ => .inr ⟨t, by rw [hb]⟩⟩
          · obtain ⟨rest, ht, hno, hle, hstop⟩ := ih t
            rw [if_neg hb]
            refine ⟨rest, by rw [List.cons_append, ← ht], ?_, Nat.succ_le_succ hle, ?_⟩
            · exact List.not_mem_cons_of_ne_of_not_mem (Ne.symm hb) hno
            · intro hlt
              exact hstop (Nat.lt_of_succ_lt_succ hlt)

theorem sscanf_scanset_eq_cons {width : Nat} {stop : UInt8} {fmt : List Directive} {t s : Bytes}
    {caps : List Capture} (h : sscanf (.scanset width stop :: fmt) t = .text s :: caps) :
    ∃ rest, t = s ++ rest ∧ s ≠ [] ∧ Scanned width stop s rest ∧ sscanf fmt rest = caps := by
  rw [sscanf] at h
  split at h
  · cases h
  · next hne =>
      rcases List.cons.inj h with ⟨htext, hcaps⟩
      have hs : takeSet stop width t = s := Capture.text.inj htext
      rcases takeSet_scanned stop width t with ⟨rest, ht, hscanned⟩
      rw [hs] at hne hcaps ht hscanned
      rw [ht, List.drop_left] at hcaps
      exact ⟨rest, ht, hne, hscanned, hcaps⟩

end EzIot.CText
