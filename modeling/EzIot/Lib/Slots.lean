import Mathlib.Data.List.TakeWhile

/-! # Fixed tables that end at the first free slot

A zeroed array is filled from the front and every loop over it stops at the first
slot that looks free. What the table holds is then the list of its slots before
that one, as long as no slot behind it is in use.
-/

namespace EzIot.Slots

variable {σ : Type*}

/-- The slots that a loop visits which stops at the first free one. -/
def used (free : σ → Bool) (t : List σ) : List σ := t.takeWhile fun s => !free s

/-- No slot behind a free one is in use. -/
def Compact (free : σ → Bool) (t : List σ) : Prop := ∀ s ∈ t.dropWhile fun s => !free s, free s

/-- How a search for a slot ends. -/
inductive Put
  | stored
  | present
  | full
deriving DecidableEq

/-- Fill the first free slot, unless a slot on the way holds the same thing. -/
def put (free same : σ → Bool) (fill : σ → σ) : List σ → Put × List σ
  | [] => (.full, [])
  | s :: t =>
      if free s then (.stored, fill s :: t)
      else if same s then (.present, s :: t)
      else ((put free same fill t).1, s :: (put free same fill t).2)

section Put

variable {free same : σ → Bool} {fill : σ → σ} {t : List σ}

theorem put_stored (h : (put free same fill t).1 = .stored) :
    ∃ a s b, t = a ++ s :: b ∧ (∀ x ∈ a, free x = false ∧ same x = false) ∧ free s = true ∧
      (put free same fill t).2 = a ++ fill s :: b := by
  induction t with
  | nil => simp [put] at h
  | cons s t ih =>
      by_cases hs : free s
      · exact ⟨[], s, t, rfl, by simp, hs, by simp [put, hs]⟩
      · by_cases hsame : same s
        · simp [put, hs, hsame] at h
        · rcases ih (by simpa [put, hs, hsame] using h) with ⟨a, x, b, ht, ha, hx, hput⟩
          refine ⟨s :: a, x, b, by simp [ht], ?_, hx, by simp [put, hs, hsame, hput]⟩
          intro y hy
          rcases List.mem_cons.mp hy with rfl | hold
          · exact ⟨by simpa using hs, by simpa using hsame⟩
          · exact ha y hold

theorem put_unchanged (h : (put free same fill t).1 ≠ .stored) : (put free same fill t).2 = t := by
  induction t with
  | nil => rfl
  | cons s t ih =>
      by_cases hs : free s
      · simp [put, hs] at h
      · by_cases hsame : same s
        · simp [put, hs, hsame]
        · have hrest := ih (by simpa [put, hs, hsame] using h)
          simp [put, hs, hsame, hrest]

theorem put_again (h : (put free same fill t).1 = .stored) (hfree : ∀ s, free (fill s) = false)
    (hsame : ∀ s, same (fill s) = true) :
    (put free same fill (put free same fill t).2).1 = .present := by
  induction t with
  | nil => simp [put] at h
  | cons s t ih =>
      by_cases hs : free s
      · simp [put, hs, hfree, hsame]
      · by_cases hmatch : same s
        · simp [put, hs, hmatch] at h
        · have hrest := ih (by simpa [put, hs, hmatch] using h)
          simp [put, hs, hmatch, hrest]

theorem forall_mem_put {P : σ → Prop} (h : ∀ s ∈ t, P s) (hfill : ∀ s, P s → P (fill s)) :
    ∀ s ∈ (put free same fill t).2, P s := by
  by_cases hput : (put free same fill t).1 = .stored
  · rcases put_stored hput with ⟨a, s, b, rfl, -, -, heq⟩
    rw [heq]
    simp only [List.forall_mem_append, List.forall_mem_cons] at h ⊢
    exact ⟨h.1, hfill s h.2.1, h.2.2⟩
  · rw [put_unchanged hput]
    exact h

theorem used_of_not_stored (hsame : ∀ s ∈ t, same s = false)
    (h : (put free same fill t).1 ≠ .stored) : used free t = t := by
  induction t with
  | nil => rfl
  | cons s t ih =>
      rw [List.forall_mem_cons] at hsame
      by_cases hs : free s
      · simp [put, hs] at h
      · have hrest := ih hsame.2 (by simpa [put, hs, hsame.1] using h)
        unfold used at hrest ⊢
        rw [List.takeWhile_cons_of_pos (by simpa using hs), hrest]

theorem used_append {a : List σ} (ha : ∀ x ∈ a, free x = false) (b : List σ) :
    used free (a ++ b) = a ++ used free b :=
  List.takeWhile_append_of_pos fun x hx => by simp [ha x hx]

theorem compact_append {a : List σ} (ha : ∀ x ∈ a, free x = false) (b : List σ) :
    Compact free (a ++ b) ↔ Compact free b := by
  unfold Compact
  rw [List.dropWhile_append_of_pos fun x hx => by simp [ha x hx]]

theorem compact_of_all_free (h : ∀ s ∈ t, free s = true) : Compact free t :=
  fun s hs => h s ((List.dropWhile_suffix _).subset hs)

theorem used_of_all_free (h : ∀ s ∈ t, free s = true) : used free t = [] := by
  cases t with
  | nil => rfl
  | cons s t => simp [used, h s]

theorem tail_free_of_compact {s : σ} (h : Compact free (s :: t)) (hs : free s = true) :
    ∀ x ∈ t, free x = true := by
  intro x hx
  refine h x ?_
  rw [List.dropWhile_cons_of_neg (by simp [hs])]
  exact List.mem_cons_of_mem s hx

/-- A thing that does not look free is appended to what the table holds. -/
theorem used_put (hc : Compact free t) (hfill : ∀ s, free (fill s) = false)
    (h : (put free same fill t).1 = .stored) :
    Compact free (put free same fill t).2 ∧
      ∃ s, used free (put free same fill t).2 = used free t ++ [fill s] := by
  rcases put_stored h with ⟨a, s, b, rfl, ha, hs, hput⟩
  have hused : ∀ x ∈ a, free x = false := fun x hx => (ha x hx).1
  have hb := tail_free_of_compact ((compact_append hused _).mp hc) hs
  have hfilled : ∀ x ∈ a ++ [fill s], free x = false := by
    intro x hx
    rcases List.mem_append.mp hx with hold | hnew
    · exact hused x hold
    · rw [List.mem_singleton.mp hnew]
      exact hfill s
  have hshape : a ++ fill s :: b = (a ++ [fill s]) ++ b := by simp
  rw [hput, hshape, compact_append hfilled, used_append hfilled, used_of_all_free hb,
    used_append hused]
  refine ⟨compact_of_all_free hb, s, ?_⟩
  simp [used, hs]

/-- A thing that looks free leaves the slot free: nothing is held, and the next
one takes its place. -/
theorem used_put_of_free (hc : Compact free t) (hfill : ∀ s, free (fill s) = true)
    (h : (put free same fill t).1 = .stored) :
    Compact free (put free same fill t).2 ∧
      used free (put free same fill t).2 = used free t := by
  rcases put_stored h with ⟨a, s, b, rfl, ha, hs, hput⟩
  have hused : ∀ x ∈ a, free x = false := fun x hx => (ha x hx).1
  have hb := tail_free_of_compact ((compact_append hused _).mp hc) hs
  have hall : ∀ x ∈ fill s :: b, free x = true := by
    intro x hx
    rcases List.mem_cons.mp hx with rfl | hold
    · exact hfill s
    · exact hb x hold
  rw [hput, compact_append hused, used_append hused, used_of_all_free hall, used_append hused]
  refine ⟨compact_of_all_free hall, ?_⟩
  simp [used, hs]

theorem Compact.put {x : σ} (hc : Compact free t) :
    Compact free (put free same (fun _ => x) t).2 := by
  by_cases hput : (Slots.put free same (fun _ => x) t).1 = .stored
  · by_cases hx : free x = true
    · exact (used_put_of_free hc (fun _ => hx) hput).1
    · exact (used_put hc (fun _ => by simpa using hx) hput).1
  · rw [put_unchanged hput]
    exact hc

/-- Nothing on the way stops the search: a table takes as many things as it has
free slots, in order, and drops the others. -/
theorem used_foldl_put {free : σ → Bool} (l : List σ) (hl : ∀ x ∈ l, free x = false) {t : List σ}
    (hc : Compact free t) :
    used free (l.foldl (fun t x => (put free (fun _ => false) (fun _ => x) t).2) t) =
      used free t ++ l.take (t.length - (used free t).length) := by
  induction l generalizing t with
  | nil => simp
  | cons x l ih =>
      have hx : free x = false := hl x List.mem_cons_self
      have hrest : ∀ y ∈ l, free y = false := fun y hy => hl y (List.mem_cons_of_mem x hy)
      rw [List.foldl_cons]
      by_cases hput : (put free (fun _ => false) (fun _ => x) t).1 = .stored
      · have hnew := used_put hc (fun _ => hx) hput
        rcases hnew.2 with ⟨_, hused⟩
        rcases put_stored hput with ⟨a, s, b, rfl, ha, hs, heq⟩
        have holdUsed : used free (a ++ s :: b) = a := by
          rw [used_append fun y hy => (ha y hy).1]
          simp [used, hs]
        have hlen : (put free (fun _ => false) (fun _ => x) (a ++ s :: b)).2.length =
            (a ++ s :: b).length := by simp [heq]
        have hroom : (a ++ s :: b).length - a.length = b.length + 1 := by simp
        have hless : (a ++ s :: b).length - (a ++ [x]).length = b.length := by
          simp only [List.length_append, List.length_cons, List.length_nil]
          omega
        rw [ih hrest hnew.1, hused, hlen, holdUsed, hroom, hless, List.take_succ_cons]
        simp
      · have hfull : used free t = t := by
          refine used_of_not_stored ?_ hput
          simp
        rw [put_unchanged hput, ih hrest hc, hfull, Nat.sub_self]
        simp

end Put

/-! ## The first slot of a kind -/

/-- Write to the first slot of a kind. -/
def modifyFirst (p : σ → Bool) (f : σ → σ) : List σ → List σ
  | [] => []
  | s :: t => if p s then f s :: t else s :: modifyFirst p f t

section First

variable {p q : σ → Bool} {f : σ → σ}

theorem find?_modifyFirst_self (hf : ∀ s, p (f s) = p s) (t : List σ) :
    (modifyFirst p f t).find? p = (t.find? p).map f := by
  induction t with
  | nil => rfl
  | cons s t ih =>
      by_cases hs : p s
      · simp [modifyFirst, hs, hf]
      · simp [modifyFirst, hs, ih]

theorem find?_modifyFirst_of_disjoint (hf : ∀ s, q (f s) = q s) (hne : ∀ s, p s → q s = false)
    (t : List σ) : (modifyFirst p f t).find? q = t.find? q := by
  induction t with
  | nil => rfl
  | cons s t ih =>
      by_cases hs : p s
      · simp [modifyFirst, hs, hf, hne s hs]
      · simp [modifyFirst, hs, List.find?_cons, ih]

theorem forall_mem_modifyFirst {P : σ → Prop} {t : List σ} (h : ∀ s ∈ t, P s)
    (hf : ∀ s, P s → P (f s)) : ∀ s ∈ modifyFirst p f t, P s := by
  induction t with
  | nil => exact h
  | cons s t ih =>
      rw [List.forall_mem_cons] at h
      unfold modifyFirst
      split
      · exact List.forall_mem_cons.mpr ⟨hf s h.1, h.2⟩
      · exact List.forall_mem_cons.mpr ⟨h.1, ih h.2⟩

theorem modifyFirst_of_none {t : List σ} (h : ∀ s ∈ t, p s = false) : modifyFirst p f t = t := by
  induction t with
  | nil => rfl
  | cons s t ih =>
      rw [List.forall_mem_cons] at h
      simp [modifyFirst, h.1, ih h.2]

/-- What the write keeps of every slot, it keeps of the table. -/
theorem map_modifyFirst {τ : Type*} {k : σ → τ} (hf : ∀ s, k (f s) = k s) {t : List σ} :
    (modifyFirst p f t).map k = t.map k := by
  induction t with
  | nil => rfl
  | cons s t ih =>
      unfold modifyFirst
      split
      · rw [List.map_cons, hf, List.map_cons]
      · rw [List.map_cons, ih, List.map_cons]

theorem mem_modifyFirst_of_neg {t : List σ} {s : σ} (hs : s ∈ t) (h : p s = false) :
    s ∈ modifyFirst p f t := by
  induction t with
  | nil => exact hs
  | cons x t ih =>
      unfold modifyFirst
      split
      next hx =>
        rcases List.mem_cons.mp hs with rfl | hmem
        · rw [h] at hx
          cases hx
        · exact List.mem_cons_of_mem _ hmem
      next =>
        rcases List.mem_cons.mp hs with rfl | hmem
        · exact List.mem_cons_self
        · exact List.mem_cons_of_mem x (ih hmem)

/-- What is new in the table comes from the first slot of the kind. -/
theorem mem_modifyFirst {t : List σ} {s : σ} (h : s ∈ modifyFirst p f t) :
    s ∈ t ∨ ∃ x, t.find? p = some x ∧ s = f x := by
  induction t with
  | nil => exact .inl h
  | cons x t ih =>
      unfold modifyFirst at h
      split at h
      next hx =>
        rcases List.mem_cons.mp h with rfl | hmem
        · exact .inr ⟨x, List.find?_cons_of_pos hx, rfl⟩
        · exact .inl (List.mem_cons_of_mem x hmem)
      next hx =>
        rcases List.mem_cons.mp h with rfl | hmem
        · exact .inl List.mem_cons_self
        · rcases ih hmem with hold | ⟨y, hy, hrest⟩
          · exact .inl (List.mem_cons_of_mem x hold)
          · exact .inr ⟨y, (List.find?_cons_of_neg hx).trans hy, hrest⟩

theorem modifyFirst_map {τ : Type*} {k : τ → σ} {p' : τ → Bool} {f' : τ → τ}
    (hp : ∀ x, p (k x) = p' x) (hf : ∀ x, f (k x) = k (f' x)) (t : List τ) :
    modifyFirst p f (t.map k) = (modifyFirst p' f' t).map k := by
  induction t with
  | nil => rfl
  | cons x t ih =>
      rw [List.map_cons, modifyFirst, modifyFirst, hp]
      split
      · rw [hf, List.map_cons]
      · rw [ih, List.map_cons]

theorem modifyFirst_append {a : List σ} (ha : ∀ x ∈ a, p x = false) {s : σ} (hs : p s = true)
    (b : List σ) : modifyFirst p f (a ++ s :: b) = a ++ f s :: b := by
  induction a with
  | nil => simp [modifyFirst, hs]
  | cons x a ih =>
      rw [List.forall_mem_cons] at ha
      simp [modifyFirst, ha.1, ih ha.2]

/-- Where at most one slot is of the kind, the first one is every one. -/
theorem modifyFirst_eq_map {t : List σ} (h : t.Pairwise fun x y => p x = true → p y = false) :
    modifyFirst p f t = t.map fun x => if p x then f x else x := by
  induction t with
  | nil => rfl
  | cons x t ih =>
      rw [List.pairwise_cons] at h
      rw [modifyFirst, List.map_cons]
      split
      next hx =>
        have hrest : t.map (fun y => if p y then f y else y) = t.map id :=
          List.map_congr_left fun y hy => by simp [h.1 y hy hx]
        rw [hrest, List.map_id]
      next => rw [ih h.2]

theorem eraseP_eq_filter {t : List σ} (h : t.Pairwise fun x y => p x = true → p y = false) :
    t.eraseP p = t.filter fun x => !p x := by
  induction t with
  | nil => rfl
  | cons x t ih =>
      rw [List.pairwise_cons] at h
      by_cases hx : p x = true
      · rw [List.eraseP_cons_of_pos hx, List.filter_cons_of_neg (by simp [hx]), eq_comm]
        exact List.filter_eq_self.mpr fun y hy => by simp [h.1 y hy hx]
      · rw [List.eraseP_cons_of_neg hx, List.filter_cons_of_pos (by simp [hx]), ih h.2]

end First

/-! ## Loops that stop at the first miss -/

section Misses

variable {p q : σ → Bool} {l : List σ}

theorem length_takeWhile_le_filter (p : σ → Bool) (l : List σ) :
    (l.takeWhile p).length ≤ (l.filter p).length := by
  rw [← List.filter_eq_self.mpr fun a ha => List.mem_takeWhile_imp (p := p) (l := l) ha]
  exact ((List.takeWhile_sublist p).filter p).length_le

theorem takeWhile_eq_filter (h : l.Pairwise fun a b => p b → p a) :
    l.takeWhile p = l.filter p := by
  induction l with
  | nil => rfl
  | cons a l ih =>
      rw [List.pairwise_cons] at h
      by_cases ha : p a
      · simp [ha, ih h.2]
      · rw [List.takeWhile_cons_of_neg ha, List.filter_cons_of_neg ha, eq_comm,
          List.filter_eq_nil_iff]
        exact fun b hb hpb => ha (h.1 b hb hpb)

/-- A loop that stops at the first miss misses nothing exactly when every hit
comes before every miss. -/
theorem length_takeWhile_eq_filter :
    (l.takeWhile p).length = (l.filter p).length ↔ l.Pairwise fun a b => p b → p a := by
  refine ⟨fun hlen => ?_, fun h => by rw [takeWhile_eq_filter h]⟩
  induction l with
  | nil => exact .nil
  | cons a l ih =>
      by_cases ha : p a
      · rw [List.pairwise_cons]
        exact ⟨fun _ _ _ => ha, ih (by simpa [ha] using hlen)⟩
      · rw [List.takeWhile_cons_of_neg ha, List.filter_cons_of_neg ha] at hlen
        have hmiss : ∀ b ∈ l, ¬ p b = true :=
          List.filter_eq_nil_iff.mp (List.eq_nil_of_length_eq_zero hlen.symm)
        rw [List.pairwise_cons]
        refine ⟨fun b hb hpb => absurd hpb (hmiss b hb), ?_⟩
        exact List.pairwise_of_forall_mem_list fun x hx y hy hpy => absurd hpy (hmiss y hy)

/-- The same for a loop that sees only a part of the list. -/
theorem length_takeWhile_filter_eq :
    ((l.filter q).takeWhile p).length = (l.filter p).length ↔
      (∀ a ∈ l, p a → q a) ∧ (l.filter q).Pairwise fun a b => p b → p a := by
  have hle := length_takeWhile_le_filter p (l.filter q)
  have hsub : (l.filter q).filter p = (l.filter p).filter q := by
    rw [List.filter_filter, List.filter_filter]
    exact List.filter_congr fun a _ => Bool.and_comm ..
  have hsubLe : ((l.filter q).filter p).length ≤ (l.filter p).length := by
    rw [hsub]
    exact List.length_filter_le _ _
  have hall : ((l.filter q).filter p).length = (l.filter p).length ↔ ∀ a ∈ l, p a → q a := by
    rw [hsub, List.length_filter_eq_length_iff]
    simp [List.mem_filter]
  rw [← hall, ← length_takeWhile_eq_filter]
  omega

/-- What such a loop calls is, up to order, what it was meant to call exactly when
it stops too early nowhere. -/
theorem filterMap_takeWhile_perm {τ : Type*} {f : σ → Option τ} :
    (((l.filter q).takeWhile fun a => (f a).isSome).filterMap f).Perm (l.filterMap f) ↔
      (∀ a ∈ l, (f a).isSome → q a) ∧
        (l.filter q).Pairwise fun a b => (f b).isSome → (f a).isSome := by
  have hlen : ∀ l : List σ, (l.filterMap f).length = (l.filter fun a => (f a).isSome).length :=
    fun l => by rw [List.length_filterMap_eq_countP, List.countP_eq_length_filter]
  have hkeep : ∀ l : List σ, (l.filter fun a => (f a).isSome).filterMap f = l.filterMap f := by
    intro l
    rw [List.filterMap_filter]
    refine congrArg (List.filterMap · l) (funext fun a => ?_)
    cases f a with
    | none => rfl
    | some b => rfl
  constructor
  · intro hperm
    have hhits : ∀ a ∈ (l.filter q).takeWhile fun a => (f a).isSome, (f a).isSome :=
      fun a ha => List.mem_takeWhile_imp (p := fun a => (f a).isSome) ha
    have hcount := hperm.length_eq
    rw [hlen, hlen, List.filter_eq_self.mpr hhits] at hcount
    exact length_takeWhile_filter_eq.mp hcount
  · intro ⟨hsee, hfirst⟩
    have hpart : (l.filter q).filter (fun a => (f a).isSome) = l.filter fun a => (f a).isSome := by
      rw [List.filter_filter]
      refine List.filter_congr fun a ha => ?_
      by_cases hfa : (f a).isSome
      · simp [hfa, hsee a ha hfa]
      · simp [hfa]
    rw [takeWhile_eq_filter hfirst, hpart, hkeep]

end Misses

end EzIot.Slots
