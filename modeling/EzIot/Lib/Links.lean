import Mathlib.Data.List.Nodup
import Mathlib.Logic.Function.Basic

/-! # Chains of links

A memory of nodes is a function from a node to the link it holds. A chain is a list of
nodes of which each holds a link to the one behind it. Where the null link has a place of
its own to be followed from, a thread leads from there through its nodes and back.
-/

namespace EzIot.Links

variable {α : Type*}

def Chain (next : α → Option α) : Option α → List α → Option α → Prop
  | p, [], q => p = q
  | p, x :: l, q => p = some x ∧ Chain next (next x) l q

/-- Follow `k` links. There is no result where a null link is followed. -/
def walk (next : α → Option α) : Nat → Option α → Option (Option α)
  | 0, p => some p
  | _ + 1, none => none
  | k + 1, some x => walk next k (next x)

/-- The first `n` nodes from a link on. -/
def nodes (next : α → Option α) : Nat → Option α → List α
  | 0, _ => []
  | _ + 1, none => []
  | n + 1, some x => x :: nodes next n (next x)

section Rules

variable {next next' : α → Option α} {p q : Option α} {l l' : List α} {x y : α} {k : Nat}

@[simp] theorem chain_nil : Chain next p [] q ↔ p = q := Iff.rfl

@[simp] theorem chain_cons : Chain next p (x :: l) q ↔ p = some x ∧ Chain next (next x) l q :=
  Iff.rfl

theorem chain_append_cons :
    Chain next p (l ++ x :: l') q ↔ Chain next p l (some x) ∧ Chain next (next x) l' q := by
  induction l generalizing p with
  | nil => exact Iff.rfl
  | cons y l ih =>
      rw [List.cons_append, chain_cons, chain_cons, ih]
      exact and_assoc.symm

/-- A chain only depends on the links that its nodes hold. -/
theorem Chain.congr (h : ∀ y ∈ l, next y = next' y) (hc : Chain next p l q) :
    Chain next' p l q := by
  induction l generalizing p with
  | nil => exact hc
  | cons y l ih =>
      have hy : next y = next' y := h y List.mem_cons_self
      have hrest := ih (fun z hz => h z (List.mem_cons_of_mem y hz)) hc.2
      exact ⟨hc.1, hy ▸ hrest⟩

theorem Chain.update [DecidableEq α] (hx : x ∉ l) (hc : Chain next p l q) (v : Option α) :
    Chain (Function.update next x v) p l q := by
  refine hc.congr fun y hy => ?_
  have hne : y ≠ x := fun heq => hx (heq ▸ hy)
  exact (Function.update_of_ne hne v next).symm

theorem Chain.head (hc : Chain next p l none) : p = l.head? := by
  cases l with
  | nil => exact hc
  | cons y l => exact hc.1

/-- Where another link is put in the place of the last one, the chain leads there. -/
theorem Chain.redirect [DecidableEq α] (hc : Chain next p (l ++ [x]) q) (hx : x ∉ l)
    (v : Option α) : Chain (Function.update next x v) p (l ++ [x]) v := by
  have hfront := (chain_append_cons.mp hc).1
  refine chain_append_cons.mpr ⟨hfront.update hx v, ?_⟩
  exact Function.update_self x v next

theorem walk_chain (hc : Chain next p l none) :
    walk next k p = if k ≤ l.length then some l[k]? else none := by
  induction k generalizing p l with
  | zero =>
      have hhead := hc.head
      rw [walk, if_pos (Nat.zero_le _), hhead, List.head?_eq_getElem?]
  | succ k ih =>
      cases l with
      | nil =>
          have hnull : p = none := hc
          subst hnull
          rfl
      | cons y l =>
          have hp : p = some y := hc.1
          subst hp
          rw [walk, ih hc.2]
          simp

theorem nodes_chain (hc : Chain next p l none) : nodes next l.length p = l := by
  induction l generalizing p with
  | nil => rfl
  | cons y l ih =>
      have hp : p = some y := hc.1
      subst hp
      rw [List.length_cons, nodes, ih hc.2]

end Rules

/-! ## Threads -/

/-- From the null link the nodes of a list lead back to it. -/
def Threaded (f : Option α → Option α) (l : List α) : Prop :=
  Chain (fun x => f (some x)) (f none) l none

section Threads

variable {f : Option α → Option α} {a b : List α} {x : α}

/-- A thread behind some of its nodes. -/
theorem threaded_append : Threaded f (a ++ b) ↔
    Chain (fun x => f (some x)) (f none) a b.head? ∧
      Chain (fun x => f (some x)) (f a.getLast?) b none ∧ f a.getLast? = b.head? := by
  unfold Threaded
  rcases List.eq_nil_or_concat' a with rfl | ⟨a, p, rfl⟩
  · constructor
    · exact fun h => ⟨h.head, h, h.head⟩
    · exact fun h => h.2.1
  · rw [List.append_assoc, List.singleton_append, chain_append_cons, chain_append_cons,
      List.getLast?_concat]
    constructor
    · exact fun h => ⟨⟨h.1, h.2.head⟩, h.2, h.2.head⟩
    · exact fun h => ⟨h.1.1, h.2.1⟩

theorem not_getLast?_of_nodup (h : (a ++ b).Nodup) : ∀ y ∈ b, a.getLast? ≠ some y := by
  intro y hy hlast
  exact (List.nodup_append.mp h).2.2 y (List.mem_of_getLast? hlast) y hy rfl

variable [DecidableEq α]

/-- Behind `a`, the thread goes on as it is told there. -/
theorem chain_update_getLast? (h : a.Nodup) {q : Option α}
    (hc : Chain (fun x => f (some x)) (f none) a q) (v : Option α) :
    Chain (fun x => Function.update f a.getLast? v (some x))
      (Function.update f a.getLast? v none) a v := by
  rcases List.eq_nil_or_concat' a with rfl | ⟨a, p, rfl⟩
  · exact Function.update_self none v f
  · rw [List.getLast?_concat]
    have hp : p ∉ a := fun hmem => by
      exact (List.nodup_append.mp h).2.2 p hmem p (List.mem_singleton_self p) rfl
    have hne : (none : Option α) ≠ some p := by simp
    have hnull : Function.update f (some p) v none = f none := Function.update_of_ne hne v f
    have hlinks : (fun x => Function.update f (some p) v (some x)) =
        Function.update (fun x => f (some x)) p v := by
      funext y
      by_cases hy : y = p
      · subst hy
        rw [Function.update_self, Function.update_self]
      · rw [Function.update_of_ne hy, Function.update_of_ne (by simpa using hy)]
    rw [hnull, hlinks]
    exact hc.redirect hp v

theorem Threaded.insert (h : Threaded f (a ++ b)) (hnodup : (a ++ b).Nodup) (hx : x ∉ a ++ b) :
    Threaded (Function.update (Function.update f a.getLast? (some x)) (some x) b.head?)
      (a ++ x :: b) := by
  have hfront := (threaded_append.mp h).1
  have hback := (threaded_append.mp h).2.1
  have hlink := (threaded_append.mp h).2.2
  have hxa : x ∉ a := fun hmem => hx (List.mem_append_left b hmem)
  have hxb : x ∉ b := fun hmem => hx (List.mem_append_right a hmem)
  have hfirst := chain_update_getLast? (List.nodup_append.mp hnodup).1 hfront (some x)
  unfold Threaded
  rw [chain_append_cons, Function.update_of_ne (by simp)]
  refine ⟨hfirst.congr fun y hy => ?_, ?_⟩
  · have hne : y ≠ x := fun heq => hxa (heq ▸ hy)
    exact (Function.update_of_ne (by simpa using hne) _ _).symm
  · rw [Function.update_self, ← hlink]
    refine hback.congr fun y hy => ?_
    have hne : y ≠ x := fun heq => hxb (heq ▸ hy)
    have hlast : some y ≠ a.getLast? := fun heq => not_getLast?_of_nodup hnodup y hy heq.symm
    rw [Function.update_of_ne (by simpa using hne), Function.update_of_ne hlast]

theorem Threaded.erase (h : Threaded f (a ++ x :: b)) (hnodup : (a ++ x :: b).Nodup) :
    Threaded (Function.update f a.getLast? b.head?) (a ++ b) := by
  have hfront := (threaded_append.mp h).1
  have hback := (threaded_append.mp h).2.1
  have hnodup' : (a ++ b).Nodup := hnodup.sublist (by simp)
  have hfirst := chain_update_getLast? (List.nodup_append.mp hnodup).1 hfront b.head?
  rw [threaded_append, Function.update_self]
  refine ⟨hfirst, ?_, rfl⟩
  have hrest := hback.2
  rw [← hrest.head]
  refine hrest.congr fun y hy => ?_
  have hlast : some y ≠ a.getLast? := fun heq => not_getLast?_of_nodup hnodup' y hy heq.symm
  exact (Function.update_of_ne hlast _ _).symm

end Threads

end EzIot.Links
