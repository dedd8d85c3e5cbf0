import Mathlib.Data.List.Basic

/-! # Nested lists

A tree of nested sibling lists is addressed by paths: a position in the list,
then a path inside that child. The operations used on such trees are an update
in place, an update of the first matching child that adds one when none matches
(`upsert`), and a traversal that threads a state and may stop early (`sweep`).
For each of them a lemma lifts what happens inside one child to the whole list,
so a tree of any depth is handled one level at a time.
-/

namespace EzIot.Nested

variable {α β κ π σ : Type*}

/-- The item at a path. -/
def itemAt (get : α → π → Option κ) (l : List α) (p : Nat × π) : Option κ :=
  l[p.1]?.bind fun a => get a p.2

section Paths

variable (get : α → π → Option κ) (a : α) (l : List α) (i : Nat) (p : π)

@[simp] theorem itemAt_nil (q : Nat × π) : itemAt get [] q = none := by simp [itemAt]

@[simp] theorem itemAt_cons_zero : itemAt get (a :: l) (0, p) = get a p := by simp [itemAt]

@[simp] theorem itemAt_cons_succ :
    itemAt get (a :: l) (i + 1, p) = itemAt get l (i, p) := by simp [itemAt]

end Paths

/-- What an update does at one path: an item that was there is changed as `R`
says, and an item that was not there may appear as `F` says. -/
inductive Extends (R : κ → κ → Prop) (F : κ → Prop) : Option κ → Option κ → Prop
  | absent : Extends R F none none
  | added {k : κ} : F k → Extends R F none (some k)
  | kept {k k' : κ} : R k k' → Extends R F (some k) (some k')

namespace Extends

variable {R R' : κ → κ → Prop} {F : κ → Prop}

theorem refl (hR : ∀ k, R k k) : ∀ x, Extends R F x x
  | none => .absent
  | some k => .kept (hR k)

theorem mono {x y : Option κ} (h : Extends R F x y) (hR : ∀ k k', R k k' → R' k k') :
    Extends R' F x y := by
  cases h with
  | absent => exact .absent
  | added hf => exact .added hf
  | kept hr => exact .kept (hR _ _ hr)

theorem trans {x y z : Option κ} (hR : ∀ k₁ k₂ k₃, R k₁ k₂ → R k₂ k₃ → R k₁ k₃)
    (hF : ∀ k k', F k → R k k' → F k') (h : Extends R F x y) (h' : Extends R F y z) :
    Extends R F x z := by
  cases h with
  | absent => exact h'
  | added hf =>
      cases h' with
      | kept hr => exact .added (hF _ _ hf hr)
  | kept hr =>
      cases h' with
      | kept hr' => exact .kept (hR _ _ _ hr hr')

theorem of_some {k : κ} {y : Option κ} (h : Extends R F (some k) y) :
    ∃ k', y = some k' ∧ R k k' := by
  cases h with
  | kept hr => exact ⟨_, rfl, hr⟩

/-- An item of the result was there before or is a new one. -/
theorem to_some {x : Option κ} {k' : κ} (h : Extends R F x (some k')) :
    (∃ k, x = some k ∧ R k k') ∨ (x = none ∧ F k') := by
  cases h with
  | added hf => exact .inr ⟨rfl, hf⟩
  | kept hr => exact .inl ⟨_, rfl, hr⟩

end Extends

/-! ## Updates of every child, or of one -/

section Update

variable {get : α → π → Option κ} {f : α → α} {c : κ → κ}

/-- A change of every child changes every item the same way. -/
theorem itemAt_map (h : ∀ a p, get (f a) p = (get a p).map c) (l : List α) (p : Nat × π) :
    itemAt get (l.map f) p = (itemAt get l p).map c := by
  unfold itemAt
  rw [List.getElem?_map]
  cases l[p.1]? with
  | none => rfl
  | some a => exact h a p.2

theorem itemAt_modify {p : π} (h : ∀ a, get (f a) p = (get a p).map c) (l : List α) (i : Nat) :
    itemAt get (l.modify i f) (i, p) = (itemAt get l (i, p)).map c := by
  unfold itemAt
  rw [List.getElem?_modify]
  cases l[i]? with
  | none => rfl
  | some a => simpa using h a

theorem itemAt_modify_of_ne {p : π} (h : ∀ a q, q ≠ p → get (f a) q = get a q) (l : List α)
    (i : Nat) {q : Nat × π} (hq : q ≠ (i, p)) : itemAt get (l.modify i f) q = itemAt get l q := by
  unfold itemAt
  rw [List.getElem?_modify]
  cases l[q.1]? with
  | none => rfl
  | some a =>
      by_cases hi : i = q.1
      · have hp : q.2 ≠ p := fun hp => hq (by rw [hi, ← hp])
        simpa [hi] using h a q.2 hp
      · simp [hi]

theorem itemAt_modify_same (h : ∀ a p, get (f a) p = get a p) (l : List α) (i : Nat)
    (q : Nat × π) : itemAt get (l.modify i f) q = itemAt get l q := by
  unfold itemAt
  rw [List.getElem?_modify]
  cases l[q.1]? with
  | none => rfl
  | some a =>
      by_cases hi : i = q.1
      · simpa [hi] using h a q.2
      · simp [hi]

end Update

/-! ## Update of the first match, or append -/

/-- Update the first child that matches, or append an updated fresh one. -/
def upsert (m : α → Bool) (fresh : α) (f : α → α) : List α → List α
  | [] => [f fresh]
  | a :: l => if m a then f a :: l else a :: upsert m fresh f l

/-- The first match together with its position. -/
def locate (m : α → Bool) (l : List α) : Option (Nat × α) :=
  (l.find? m).map fun a => (l.findIdx m, a)

/-- Under distinct names a search finds the child it names, at its position. -/
theorem locate_of_nodup {name : α → β} {m : α → Bool} {l : List α} {i : Nat} {a : α}
    (hnodup : (l.map name).Nodup) (hm : ∀ b, m b = true ↔ name b = name a)
    (h : l[i]? = some a) : locate m l = some (i, a) := by
  induction l generalizing i with
  | nil => simp at h
  | cons b l ih =>
      rw [List.map_cons, List.nodup_cons] at hnodup
      cases i with
      | zero =>
          have hb : b = a := by simpa using h
          subst hb
          have hself : m b = true := (hm b).mpr rfl
          simp [locate, hself, List.findIdx_cons]
      | succ i =>
          have hget : l[i]? = some a := by simpa using h
          have hother : ¬ m b = true := fun hmb =>
            hnodup.1 (List.mem_map.mpr ⟨a, List.mem_of_getElem? hget, ((hm b).mp hmb).symm⟩)
          have hrest := ih hnodup.2 hget
          unfold locate at hrest ⊢
          obtain ⟨c, hc, heq⟩ := Option.map_eq_some_iff.mp hrest
          rw [Prod.mk.injEq] at heq
          simp [hother, hc, List.findIdx_cons, heq.1, heq.2]

theorem locate_of_find? {m : α → Bool} {l : List α} {a : α} (h : l.find? m = some a) :
    locate m l = some (l.findIdx m, a) := by
  simp [locate, h]

theorem getElem?_of_locate {m : α → Bool} {l : List α} {i : Nat} {a : α}
    (h : locate m l = some (i, a)) : l[i]? = some a := by
  obtain ⟨b, hb, heq⟩ := Option.map_eq_some_iff.mp h
  cases heq
  rw [← List.find?_eq_getElem?_findIdx]
  exact hb

section Upsert

variable {m : α → Bool} {fresh : α} {f : α → α}

/-- `upsert` acts at one position: the first match, or the end. -/
theorem getElem?_upsert (l : List α) (i : Nat) :
    (upsert m fresh f l)[i]? =
      if i = l.findIdx m then some (f ((l.find? m).getD fresh)) else l[i]? := by
  induction l generalizing i with
  | nil => cases i <;> simp [upsert]
  | cons a l ih =>
      unfold upsert
      by_cases ha : m a
      · cases i <;> simp [ha, List.findIdx_cons]
      · cases i <;> simp [ha, List.findIdx_cons, ih]

theorem itemAt_upsert {R : κ → κ → Prop} {F : κ → Prop} {get : α → π → Option κ}
    (hR : ∀ k, R k k) (h : ∀ a p, Extends R F (get a p) (get (f a) p))
    (hfresh : ∀ p, get fresh p = none) (l : List α) (p : Nat × π) :
    Extends R F (itemAt get l p) (itemAt get (upsert m fresh f l) p) := by
  unfold itemAt
  rw [getElem?_upsert]
  split
  · rename_i hi
    rw [hi, ← List.find?_eq_getElem?_findIdx]
    cases l.find? m with
    | none => simpa [hfresh] using h fresh p.2
    | some a => simpa using h a p.2
  · exact Extends.refl hR _

/-- The paths an `upsert` acts on, given those its update acts on. -/
def UpsertAt (m : α → Bool) (fresh : α) (sub : α → π → Prop) (l : List α) (p : Nat × π) :
    Prop :=
  p.1 = l.findIdx m ∧ sub ((l.find? m).getD fresh) p.2

theorem itemAt_upsert_of_not {get : α → π → Option κ} {sub : α → π → Prop}
    (h : ∀ a p, ¬ sub a p → get (f a) p = get a p) (hfresh : ∀ p, get fresh p = none)
    {l : List α} {p : Nat × π} (hp : ¬ UpsertAt m fresh sub l p) :
    itemAt get (upsert m fresh f l) p = itemAt get l p := by
  unfold itemAt
  rw [getElem?_upsert]
  split
  · rename_i hi
    have hsub : ¬ sub ((l.find? m).getD fresh) p.2 := fun hs => hp ⟨hi, hs⟩
    have hget := h _ _ hsub
    rw [hi, ← List.find?_eq_getElem?_findIdx, Option.bind_some, hget]
    cases l.find? m with
    | none => simpa using hfresh p.2
    | some a => rfl
  · rfl

theorem upsert_ne_nil (l : List α) : upsert m fresh f l ≠ [] := by
  cases l with
  | nil => simp [upsert]
  | cons a l =>
      unfold upsert
      split <;> simp

/-- A search for the name that was just written finds the updated child. -/
theorem find?_upsert_self (hfresh : m (f fresh)) (hf : ∀ a, m (f a) = m a) (l : List α) :
    (upsert m fresh f l).find? m = some (f ((l.find? m).getD fresh)) := by
  induction l with
  | nil => simp [upsert, hfresh]
  | cons a l ih =>
      unfold upsert
      by_cases ha : m a
      · simp [ha, hf]
      · simpa [ha] using ih

/-- A search for another name finds what it found before. -/
theorem find?_upsert_of_disjoint {q : α → Bool} (hne : ∀ a, m a → q (f a) = false ∧ q a = false)
    (hfresh : q (f fresh) = false) (l : List α) :
    (upsert m fresh f l).find? q = l.find? q := by
  induction l with
  | nil => simp [upsert, hfresh]
  | cons a l ih =>
      unfold upsert
      by_cases ha : m a
      · simp [ha, hne a ha]
      · simp [ha, List.find?_cons, ih]

/-- The names after an `upsert` that does not rename: a fresh one may be added. -/
theorem map_upsert {name : α → β} (hf : ∀ a, name (f a) = name a) (l : List α) :
    (upsert m fresh f l).map name =
      if l.any m then l.map name else l.map name ++ [name fresh] := by
  induction l with
  | nil => simp [upsert, hf]
  | cons a l ih =>
      unfold upsert
      by_cases ha : m a
      · simp [ha, hf]
      · by_cases hl : l.any m
        · simp [ha, hl, ih]
        · simp [ha, hl, ih]

theorem mem_upsert {l : List α} {b : α} (h : b ∈ upsert m fresh f l) :
    b ∈ l ∨ ∃ a, (a ∈ l ∨ a = fresh) ∧ b = f a := by
  induction l with
  | nil => exact .inr ⟨fresh, .inr rfl, by simpa [upsert] using h⟩
  | cons a l ih =>
      unfold upsert at h
      split at h
      · rcases List.mem_cons.mp h with rfl | hl
        · exact .inr ⟨a, .inl List.mem_cons_self, rfl⟩
        · exact .inl (List.mem_cons_of_mem _ hl)
      · rcases List.mem_cons.mp h with rfl | hl
        · exact .inl List.mem_cons_self
        · rcases ih hl with hold | ⟨c, hc, rfl⟩
          · exact .inl (List.mem_cons_of_mem _ hold)
          · exact .inr ⟨c, hc.imp_left (List.mem_cons_of_mem _), rfl⟩

/-- The first match exists and satisfies `P`. -/
def Hits (m : α → Bool) (P : α → Prop) (l : List α) : Prop := ∃ a, l.find? m = some a ∧ P a

/-- What is looked up under the name that was just written is an updated child. -/
theorem Hits.upsert_self {P : α → Prop} (hfresh : m (f fresh)) (hf : ∀ a, m a → m (f a))
    (hP : ∀ a, m a ∨ a = fresh → P (f a)) (l : List α) : Hits m P (upsert m fresh f l) := by
  induction l with
  | nil => exact ⟨f fresh, by simp [upsert, hfresh], hP fresh (.inr rfl)⟩
  | cons a l ih =>
      unfold upsert
      by_cases ha : m a
      · exact ⟨f a, by simp [ha, hf a ha], hP a (.inl ha)⟩
      · rcases ih with ⟨b, hb, hPb⟩
        exact ⟨b, by simpa [ha] using hb, hPb⟩

theorem Hits.upsert {q : α → Bool} {P : α → Prop} {l : List α} (h : Hits q P l)
    (hf : ∀ a, q (f a) = q a) (hP : ∀ a, P a → P (f a)) : Hits q P (upsert m fresh f l) := by
  obtain ⟨a, ha, hPa⟩ := h
  induction l with
  | nil => simp at ha
  | cons b l ih =>
      unfold Nested.upsert
      by_cases hq : q b
      · have hba : b = a := by simpa [hq] using ha
        subst hba
        split
        · exact ⟨f b, by simp [hf, hq], hP b hPa⟩
        · exact ⟨b, by simp [hq], hPa⟩
      · have hl : l.find? q = some a := by simpa [hq] using ha
        split
        · exact ⟨a, by simpa [hf, hq] using hl, hPa⟩
        · rcases ih hl with ⟨c, hc, hPc⟩
          exact ⟨c, by simpa [hq] using hc, hPc⟩

/-- Removing a child of another name does not disturb a search. -/
theorem Hits.eraseP {q : α → Bool} {P : α → Prop} {l : List α} (h : Hits q P l)
    (hne : ∀ a, m a → q a = false) : Hits q P (l.eraseP m) := by
  rcases h with ⟨a, ha, hPa⟩
  refine ⟨a, ?_, hPa⟩
  induction l with
  | nil => simp at ha
  | cons b l ih =>
      by_cases hm : m b
      · have hl : l.find? q = some a := by simpa [hne b hm] using ha
        simpa [List.eraseP_cons, hm] using hl
      · by_cases hq : q b
        · simpa [List.eraseP_cons, hm, hq] using ha
        · have hl : l.find? q = some a := by simpa [hq] using ha
          simpa [List.eraseP_cons, hm, hq] using ih hl

/-- Siblings of pairwise distinct names, each of them good. -/
def Distinct (name : α → β) (good : α → Prop) (l : List α) : Prop :=
  (l.map name).Nodup ∧ ∀ a ∈ l, good a

theorem Distinct.nil {name : α → β} {good : α → Prop} : Distinct name good [] := by
  simp [Distinct]

/-- Names stay distinct when the search is for the name that the fresh child is
stored under. -/
theorem Distinct.upsert {name : α → β} {good : α → Prop} {l : List α}
    (h : Distinct name good l) {k : β} (hm : ∀ a, m a = true ↔ name a = k)
    (hfresh : name fresh = k) (hf : ∀ a, name (f a) = name a)
    (hgood : ∀ a, good a → good (f a)) (hnew : good fresh) :
    Distinct name good (upsert m fresh f l) := by
  obtain ⟨hnodup, hall⟩ := h
  induction l with
  | nil => simpa [Distinct, Nested.upsert] using hgood fresh hnew
  | cons a l ih =>
      rw [List.map_cons, List.nodup_cons] at hnodup
      have hl : ∀ b ∈ l, good b := fun b hb => hall b (List.mem_cons_of_mem a hb)
      have ha : good a := hall a List.mem_cons_self
      unfold Nested.upsert
      by_cases hma : m a
      · refine ⟨by simpa [hma, hf] using hnodup, ?_⟩
        intro b hb
        rw [if_pos hma] at hb
        rcases List.mem_cons.mp hb with rfl | hbl
        · exact hgood a ha
        · exact hl b hbl
      · rcases ih hnodup.2 hl with ⟨hrest, hgoods⟩
        have hne : name a ≠ k := fun heq => hma ((hm a).mpr heq)
        have hnot : name a ∉ (Nested.upsert m fresh f l).map name := by
          intro hmem
          rcases List.mem_map.mp hmem with ⟨b, hb, hname⟩
          rcases mem_upsert hb with hold | ⟨c, hc, rfl⟩
          · exact hnodup.1 (List.mem_map.mpr ⟨b, hold, hname⟩)
          · rw [hf] at hname
            rcases hc with hcl | rfl
            · exact hnodup.1 (List.mem_map.mpr ⟨c, hcl, hname⟩)
            · exact hne (hname.symm.trans hfresh)
        rw [if_neg hma]
        refine ⟨by simpa using ⟨by simpa using hnot, hrest⟩, ?_⟩
        intro b hb
        rcases List.mem_cons.mp hb with rfl | hbl
        · exact ha
        · exact hgoods b hbl

theorem Distinct.eraseP {name : α → β} {good : α → Prop} {l : List α}
    (h : Distinct name good l) : Distinct name good (l.eraseP m) :=
  ⟨h.1.sublist ((List.eraseP_sublist).map name), fun a ha => h.2 a (List.mem_of_mem_eraseP ha)⟩

/-- Under distinct names the first match is the only one. -/
theorem Distinct.eraseP_eq_filter {name : α → β} {good : α → Prop} {k : β}
    (hm : ∀ a, m a = true → name a = k) {l : List α} (h : Distinct name good l) :
    l.eraseP m = l.filter fun a => !m a := by
  obtain ⟨hnodup, hall⟩ := h
  clear hall
  induction l with
  | nil => rfl
  | cons a l ih =>
      rw [List.map_cons, List.nodup_cons] at hnodup
      by_cases ha : m a
      · have hnone : ∀ b ∈ l, m b = false := by
          intro b hb
          by_contra hmb
          have hnames : name b = name a := (hm b (by simpa using hmb)).trans (hm a ha).symm
          exact hnodup.1 (List.mem_map.mpr ⟨b, hb, hnames⟩)
        have hkeep : (l.filter fun b => !m b) = l := by
          rw [List.filter_eq_self]
          intro b hb
          simp [hnone b hb]
        simp [ha, hkeep]
      · simpa [List.eraseP_cons, ha] using ih hnodup.2

end Upsert

/-! ## Erasing the first match -/

/-- Where item `i` goes when the first match is erased; the match itself goes nowhere. -/
def erasedIndex (m : α → Bool) : List α → Nat → Option Nat
  | [], i => some i
  | a :: _, 0 => if m a then none else some 0
  | a :: l, i + 1 => if m a then some i else (erasedIndex m l i).map (· + 1)

theorem getElem?_eraseP {m : α → Bool} {l : List α} {i j : Nat}
    (h : erasedIndex m l i = some j) : (l.eraseP m)[j]? = l[i]? := by
  induction l generalizing i j with
  | nil => simp
  | cons a l ih =>
      cases i with
      | zero =>
          rw [erasedIndex] at h
          split at h
          next => cases h
          next hm =>
            cases h
            rw [List.eraseP_cons_of_neg hm]
            rfl
      | succ i =>
          rw [erasedIndex] at h
          split at h
          next hm =>
            cases h
            rw [List.eraseP_cons_of_pos hm]
            rfl
          next hm =>
            obtain ⟨j', hj, rfl⟩ := Option.map_eq_some_iff.mp h
            rw [List.eraseP_cons_of_neg hm, List.getElem?_cons_succ, List.getElem?_cons_succ]
            exact ih hj

theorem itemAt_eraseP {get : α → π → Option κ} {m : α → Bool} {l : List α} {i j : Nat}
    (h : erasedIndex m l i = some j) (p : π) :
    itemAt get (l.eraseP m) (j, p) = itemAt get l (i, p) := by
  rw [itemAt, itemAt, getElem?_eraseP h]

/-! ## The place of an item in a traversal -/

/-- The number of items before the one at a path, where `flat` lists the items of a child. -/
def rank (flat : α → List β) (sub : α → π → Nat) (l : List α) (p : Nat × π) : Nat :=
  ((l.take p.1).flatMap flat).length +
    match l[p.1]? with
    | none => 0
    | some a => sub a p.2

theorem getElem?_rank {flat : α → List β} {sub : α → π → Nat} {get : α → π → Option κ}
    {P : β → κ → Prop} {l : List α} {p : Nat × π} {k : κ} (h : itemAt get l p = some k)
    (hsub : ∀ a, get a p.2 = some k → ∃ b, (flat a)[sub a p.2]? = some b ∧ P b k) :
    ∃ b, (l.flatMap flat)[rank flat sub l p]? = some b ∧ P b k := by
  obtain ⟨a, ha, hget⟩ := Option.bind_eq_some_iff.mp h
  obtain ⟨b, hb, hP⟩ := hsub a hget
  refine ⟨b, ?_, hP⟩
  have hlt : sub a p.2 < (flat a).length := (List.getElem?_eq_some_iff.mp hb).choose
  have hflat : l.flatMap flat =
      (l.take p.1).flatMap flat ++ (flat a ++ (l.drop (p.1 + 1)).flatMap flat) := by
    obtain ⟨hlen, rfl⟩ := List.getElem?_eq_some_iff.mp ha
    rw [← List.flatMap_cons, ← List.flatMap_append, List.getElem_cons_drop, List.take_append_drop]
  rw [rank, ha, hflat, List.getElem?_append_right (Nat.le_add_right _ _), Nat.add_sub_cancel_left,
    List.getElem?_append_left hlt]
  exact hb

/-! ## Traversal with a state and an early exit -/

/-- Visit the children in order with a state; a visit may change the child and
may end the traversal, which leaves the later children as they are. The flag of
the result says that some visit ended it. -/
def sweep (f : σ → α → σ × α × Bool) : σ → List α → σ × List α × Bool
  | s, [] => (s, [], false)
  | s, a :: l =>
      match f s a with
      | (s', a', true) => (s', a' :: l, true)
      | (s', a', false) =>
          match sweep f s' l with
          | (s'', l', stop) => (s'', a' :: l', stop)

section Sweep

variable {f : σ → α → σ × α × Bool}

theorem sweep_nil (s : σ) : sweep f s [] = (s, [], false) := rfl

theorem sweep_cons_stop {s : σ} {a : α} (l : List α) (h : (f s a).2.2 = true) :
    sweep f s (a :: l) = ((f s a).1, (f s a).2.1 :: l, true) := by
  rw [sweep]
  rcases hf : f s a with ⟨s', a', stop⟩
  rw [hf] at h
  cases h
  rfl

theorem sweep_cons_next {s : σ} {a : α} (l : List α) (h : (f s a).2.2 = false) :
    sweep f s (a :: l) = ((sweep f (f s a).1 l).1,
      (f s a).2.1 :: (sweep f (f s a).1 l).2.1, (sweep f (f s a).1 l).2.2) := by
  rw [sweep]
  rcases hf : f s a with ⟨s', a', stop⟩
  rw [hf] at h
  cases h
  rfl

/-- The state in which a traversal comes to item `n`. There is none when a visit before it
ends the traversal. -/
def reached (f : σ → α → σ × α × Bool) : σ → List α → Nat → Option σ
  | s, _, 0 => some s
  | _, [], _ + 1 => none
  | s, a :: l, n + 1 => if (f s a).2.2 then none else reached f (f s a).1 l n

/-- An item is what its visit left, or is untouched. -/
theorem getElem?_sweep (l : List α) (s : σ) (n : Nat) : (sweep f s l).2.1[n]? =
    l[n]?.map fun a =>
      match reached f s l n with
      | none => a
      | some t => (f t a).2.1 := by
  induction l generalizing s n with
  | nil => rfl
  | cons a l ih =>
      cases hstop : (f s a).2.2 with
      | true =>
          rw [sweep_cons_stop l hstop]
          cases n with
          | zero => rfl
          | succ n => simp [reached, hstop]
      | false =>
          rw [sweep_cons_next l hstop]
          cases n with
          | zero => rfl
          | succ n => simp [reached, hstop, ih]

/-- A traversal whose visits leave the items alone. -/
theorem itemAt_sweep_same {get : α → π → Option κ} (h : ∀ s a p, get (f s a).2.1 p = get a p)
    (l : List α) (s : σ) (p : Nat × π) : itemAt get (sweep f s l).2.1 p = itemAt get l p := by
  unfold itemAt
  rw [getElem?_sweep]
  cases l[p.1]? with
  | none => rfl
  | some a =>
      cases reached f s l p.1 with
      | none => rfl
      | some t => exact h t a p.2

/-- What every visit keeps true of the state, a traversal keeps. -/
theorem sweep_state {P : σ → Prop} (h : ∀ s a, P s → P (f s a).1) (l : List α) {s : σ} (hs : P s) :
    P (sweep f s l).1 := by
  induction l generalizing s with
  | nil => exact hs
  | cons a l ih =>
      cases hstop : (f s a).2.2 with
      | true =>
          rw [sweep_cons_stop l hstop]
          exact h s a hs
      | false =>
          rw [sweep_cons_next l hstop]
          exact ih (h s a hs)

/-- If every visit leaves a good item or marks the state, and one that ends the traversal marks it,
all items are good in the end or the state is marked. -/
theorem sweep_marks {P : σ → Prop} {Q : α → Prop} (hP : ∀ s a, P s → P (f s a).1)
    (hQ : ∀ s a, Q (f s a).2.1 ∨ P (f s a).1) (hstop : ∀ s a, (f s a).2.2 = true → P (f s a).1)
    (l : List α) (s : σ) : (∀ a ∈ (sweep f s l).2.1, Q a) ∨ P (sweep f s l).1 := by
  induction l generalizing s with
  | nil => exact .inl fun a ha => absurd ha List.not_mem_nil
  | cons a l ih =>
      cases hend : (f s a).2.2 with
      | true =>
          rw [sweep_cons_stop l hend]
          exact .inr (hstop s a hend)
      | false =>
          rw [sweep_cons_next l hend]
          rcases hQ s a with hgood | hmark
          · refine (ih (f s a).1).imp_left fun hrest b hb => ?_
            rcases List.mem_cons.mp hb with rfl | hb
            · exact hgood
            · exact hrest b hb
          · exact .inr (sweep_state hP l hmark)

/-- A traversal without an early exit comes to every item. -/
theorem reached_of_no_exit (h : ∀ s a, (f s a).2.2 = false) {l : List α} {s : σ} {n : Nat}
    (hn : n ≤ l.length) : (reached f s l n).isSome := by
  induction l generalizing s n with
  | nil =>
      cases Nat.le_zero.mp hn
      rfl
  | cons a l ih =>
      cases n with
      | zero => rfl
      | succ n =>
          rw [reached, h, if_neg Bool.false_ne_true]
          exact ih (Nat.le_of_succ_le_succ hn)

/-- A traversal that does not come to an item was ended by a visit before it. -/
theorem exit_of_not_reached {l : List α} {s : σ} {n : Nat} (hn : n ≤ l.length)
    (h : reached f s l n = none) : ∃ m t a, m < n ∧ reached f s l m = some t ∧ l[m]? = some a ∧
      (f t a).2.2 = true := by
  induction l generalizing s n with
  | nil =>
      cases Nat.le_zero.mp hn
      cases h
  | cons a l ih =>
      cases n with
      | zero => cases h
      | succ n =>
          cases hstop : (f s a).2.2 with
          | true => exact ⟨0, s, a, Nat.zero_lt_succ n, rfl, rfl, hstop⟩
          | false =>
              rw [reached, hstop, if_neg Bool.false_ne_true] at h
              obtain ⟨m, t, b, hm, hreached, hget, hend⟩ := ih (Nat.le_of_succ_le_succ hn) h
              refine ⟨m + 1, t, b, Nat.succ_lt_succ hm, ?_, hget, hend⟩
              rwa [reached, hstop, if_neg Bool.false_ne_true]

/-- The traversal rule. The state only moves along `le`; what a visit may do to
an item is judged by a relation `R` that may look at the state and that later
states keep true. -/
theorem itemAt_sweep {get : α → π → Option κ} {le : σ → σ → Prop} {R : σ → κ → κ → Prop}
    {F : κ → Prop} (hle : ∀ s, le s s) (htrans : ∀ s t u, le s t → le t u → le s u)
    (hR : ∀ s k, R s k k) (hmono : ∀ s t k k', le s t → R s k k' → R t k k')
    (h : ∀ s a, le s (f s a).1 ∧
      ∀ p, Extends (R (f s a).1) F (get a p) (get (f s a).2.1 p)) (l : List α) (s : σ) :
    le s (sweep f s l).1 ∧ ∀ p,
      Extends (R (sweep f s l).1) F (itemAt get l p) (itemAt get (sweep f s l).2.1 p) := by
  induction l generalizing s with
  | nil => exact ⟨hle s, fun p => by simpa [sweep] using Extends.absent⟩
  | cons a l ih =>
      rcases h s a with ⟨hstep, hitem⟩
      cases hstop : (f s a).2.2 with
      | true =>
          rw [sweep_cons_stop l hstop]
          refine ⟨hstep, ?_⟩
          rintro ⟨i, p⟩
          cases i with
          | zero => simpa using hitem p
          | succ i => simpa using Extends.refl (hR _) _
      | false =>
          rw [sweep_cons_next l hstop]
          rcases ih (f s a).1 with ⟨hrest, hitems⟩
          refine ⟨htrans _ _ _ hstep hrest, ?_⟩
          rintro ⟨i, p⟩
          cases i with
          | zero => simpa using (hitem p).mono fun k k' => hmono _ _ k k' hrest
          | succ i => simpa using hitems (i, p)

/-- A traversal of children that are themselves traversed is one traversal of
the flattened items. -/
theorem sweep_flatMap {g : σ → β → σ × β × Bool} {flat : α → List β}
    (h : ∀ s a, sweep g s (flat a) = ((f s a).1, flat (f s a).2.1, (f s a).2.2))
    (l : List α) (s : σ) :
    sweep g s (l.flatMap flat) =
      ((sweep f s l).1, (sweep f s l).2.1.flatMap flat, (sweep f s l).2.2) := by
  have happend : ∀ (xs ys : List β) (s : σ), sweep g s (xs ++ ys) =
      if (sweep g s xs).2.2 then ((sweep g s xs).1, (sweep g s xs).2.1 ++ ys, true)
      else ((sweep g (sweep g s xs).1 ys).1,
        (sweep g s xs).2.1 ++ (sweep g (sweep g s xs).1 ys).2.1,
        (sweep g (sweep g s xs).1 ys).2.2) := by
    intro xs ys
    induction xs with
    | nil => intro s; simp [sweep_nil]
    | cons b xs ih =>
        intro s
        cases hstop : (g s b).2.2 with
        | true => simp [sweep_cons_stop _ hstop]
        | false =>
            simp only [List.cons_append, sweep_cons_next _ hstop, ih]
            split <;> simp
  induction l generalizing s with
  | nil => simp [sweep_nil]
  | cons a l ih =>
      rw [List.flatMap_cons, happend, h]
      cases hstop : (f s a).2.2 with
      | true => simp [sweep_cons_stop _ hstop]
      | false => simp [sweep_cons_next _ hstop, ih]

end Sweep

end EzIot.Nested
