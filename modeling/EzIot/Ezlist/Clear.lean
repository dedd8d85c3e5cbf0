import EzIot.Ezlist.List

/-! # Lists that are cleared

A list may be cleared at any time, which frees its nodes. The memory of a node that was freed
is not used for anything else, so that what is left there can still be read: a node that was
deleted before may hold a link to it.
-/

namespace EzIot.Ezlist

open Links Run

variable {α : Type}

/-! ## Clearing -/

/-- The loop of `ezlist_clear`: the nodes that it frees from a link on. There is no result
where it has not come to a null link. -/
def EzList.freeFrom (l : EzList α) : Nat → Option α → Option (List α)
  | _, none => some []
  | 0, some _ => none
  | n + 1, some p1 => (l.freeFrom n (l.next (some p1))).map fun freed => p1 :: freed

variable [DecidableEq α]

/-- `ezlist_clear`: the nodes that are freed and the list that is left. -/
def EzList.ezlistClear (l : EzList α) (fuel : Nat) : Option (List α × EzList α) :=
  if 0 < l.size then
    (l.freeFrom fuel (l.next none)).map fun freed =>
      (freed, ((l.setSize 0).setNext none none).setPrev none none)
  else some ([], l)

/-! ## Sequences of operations -/

inductive ListCall (α : Type)
  | op (op : ListOp α)
  | clear

/-- A list beside the nodes that it has freed; the nodes that were added are only those that
still have their memory. -/
structure Owned (α : Type) extends Built α where
  freed : List α

def Owned.init (node : α → EzNode α) : Owned α := ⟨.init node, []⟩

def Owned.step (s : Owned α) : ListCall α → Option (Owned α)
  | .op op => (s.toBuilt.step op).map fun b => { toBuilt := b, freed := s.freed }
  | .clear => (s.list.ezlistClear s.list.size).map fun r =>
      { list := r.2, added := s.added.filter fun x => decide (x ∉ r.1), freed := r.1 ++ s.freed }

def ListOp.adds : ListOp α → Option α
  | .addLast pnode => some pnode
  | .addAt _ pnode => some pnode
  | .delete _ => none

def ListCall.adds : ListCall α → Option α
  | .op o => o.adds
  | .clear => none

/-- Nothing is added that is in the list or was freed. -/
def Allowed (s : Owned α) : ListCall α → Prop
  | .op op => Proper s.toBuilt op ∧ ∀ x, op.adds = some x → x ∉ s.freed
  | .clear => True

/-! ## What is meant -/

/-- What a call makes of a list. -/
def ListCall.meant (xs : List α) : ListCall α → List α
  | .op o => o.meant xs
  | .clear => []

/-- The nodes that a call frees. -/
def ListCall.frees (xs : List α) : ListCall α → List α
  | .op _ => []
  | .clear => xs

/-- A call does what it is meant for; a node that is not in the list any more is not deleted
again, and clearing frees the nodes of the list. -/
structure CallSound (s : Owned α) (call : ListCall α) (s' : Owned α) : Prop where
  list : s'.list.toList = call.meant s.list.toList
  again : ∀ x, call = .op (.delete x) → x ∉ s.list.toList → s' = s
  freed : s'.freed = call.frees s.list.toList ++ s.freed

section Clear

omit [DecidableEq α]

variable {l : EzList α} {xs : List α} {p : Option α} {fuel : Nat}

/-- The loop comes to the end of a chain. -/
theorem freeFrom_chain (h : Chain (fun x => l.next (some x)) p xs none) (hfuel : xs.length ≤ fuel) :
    l.freeFrom fuel p = some xs := by
  induction xs generalizing p fuel with
  | nil =>
      have hp : p = none := h
      subst hp
      cases fuel <;> rfl
  | cons x xs ih =>
      have hp : p = some x := h.1
      subst hp
      cases fuel with
      | zero => exact absurd hfuel (Nat.not_succ_le_zero _)
      | succ n =>
          rw [EzList.freeFrom, ih h.2 (Nat.le_of_succ_le_succ hfuel)]
          rfl

end Clear

section Steps

variable {l : EzList α} {s s' : Owned α} {xs : List α}

theorem Represents.ezlistClear (h : Represents l xs) {fuel : Nat} (hfuel : l.size ≤ fuel) :
    ∃ l', l.ezlistClear fuel = some (xs, l') ∧ Represents l' [] ∧
      l'.next = Function.update l.next none none ∧ l'.prev = Function.update l.prev none none := by
  have hsize := h.size
  unfold EzList.ezlistClear
  by_cases hpos : 0 < l.size
  · have hfree : l.freeFrom fuel (l.next none) = some xs :=
      freeFrom_chain h.forward (hsize ▸ hfuel)
    have hnext : (((l.setSize 0).setNext none none).setPrev none none).next =
        Function.update l.next none none := by simp
    have hprev : (((l.setSize 0).setNext none none).setPrev none none).prev =
        Function.update l.prev none none := by simp
    rw [if_pos hpos, hfree]
    refine ⟨_, rfl, ⟨?_, ?_, .nil, rfl⟩, hnext, hprev⟩
    · rw [hnext]
      exact Function.update_self none none l.next
    · rw [hprev]
      exact Function.update_self none none l.prev
  · have hnil : xs = [] := List.eq_nil_of_length_eq_zero (by omega)
    subst hnil
    have hfirst : l.next none = none := h.forward
    have hlast : l.prev none = none := h.backward
    rw [if_neg hpos]
    refine ⟨l, rfl, h, ?_, ?_⟩
    · exact Function.eq_update_self_iff.mpr hfirst
    · exact Function.eq_update_self_iff.mpr hlast

/-- A node that was deleted is not linked from a cleared list either. -/
theorem Inv.clear (h : Inv s.toBuilt xs) : ∃ s', s.step .clear = some s' ∧ Inv s'.toBuilt [] ∧
    s'.freed = xs ++ s.freed := by
  obtain ⟨l', hclear, hempty, hnext, hprev⟩ := h.represents.ezlistClear (Nat.le_refl _)
  refine ⟨_, by rw [Owned.step, hclear]; rfl, ⟨hempty, Nat.zero_le _, by simp, ?_⟩, rfl⟩
  intro x hx _
  obtain ⟨hadded, hout⟩ := List.mem_filter.mp hx
  have hold := h.detached x hadded (of_decide_eq_true hout)
  show l'.next (l'.prev (some x)) ≠ some x
  have hnode : (some x : Option α) ≠ none := by simp
  rw [hnext, hprev, Function.update_of_ne hnode]
  by_cases hfirst : s.list.prev (some x) = none
  · rw [hfirst, Function.update_self]
    exact hnode.symm
  · rw [Function.update_of_ne hfirst]
    exact hold

/-- An operation returns unless a node is added that cannot be counted. -/
theorem exists_step (b : Built α) {op : ListOp α} (hroom : op.adds = none ∨ b.list.size ≠ intMax) :
    ∃ b', b.step op = some b' := by
  cases op with
  | addLast pnode =>
      have hsize := hroom.resolve_left (by simp [ListOp.adds])
      exact ⟨_, if_neg hsize⟩
  | addAt pprev pnode =>
      have hsize := hroom.resolve_left (by simp [ListOp.adds])
      exact ⟨_, if_neg hsize⟩
  | delete pnode => exact ⟨_, rfl⟩

theorem Inv.sound (h : Inv s.toBuilt xs) {call : ListCall α} (hallowed : Allowed s call)
    (hroom : call.adds = none ∨ s.list.size ≠ intMax) :
    ∃ s', s.step call = some s' ∧ CallSound s call s' ∧ ∃ xs', Inv s'.toBuilt xs' := by
  have hlist := h.represents.toList
  cases call with
  | clear =>
      obtain ⟨s', hstep, hinv, hfreed⟩ := h.clear
      refine ⟨s', hstep, ⟨hinv.represents.toList, fun x hx => absurd hx (by simp), ?_⟩, _, hinv⟩
      rw [hfreed, hlist]
      rfl
  | op o =>
      obtain ⟨b', hb⟩ := exists_step s.toBuilt hroom
      have hinv := h.step hallowed.1 hb
      refine ⟨_, congrArg (Option.map _) hb, ⟨?_, ?_, rfl⟩, _, hinv⟩
      · rw [hlist]
        exact hinv.represents.toList
      · intro x hx hout
        cases hx
        cases hb
        have hsame := h.delete_again hallowed.1 (hlist ▸ hout)
        show { toBuilt := ⟨s.list.ezlistDelete x, s.added⟩, freed := s.freed } = s
        rw [hsame]

theorem reach_owned_inv {node : α → EzNode α} (h : Reach Owned.step Allowed (.init node) s) :
    ∃ xs, Inv s.toBuilt xs := by
  refine h.invariant (I := fun s => ∃ xs, Inv s.toBuilt xs) ⟨[], .init node⟩ ?_
  intro s call s' hs hallowed hstep
  obtain ⟨xs, hs⟩ := hs
  cases call with
  | clear =>
      obtain ⟨t, ht, hinv, -⟩ := hs.clear
      cases ht.symm.trans hstep
      exact ⟨[], hinv⟩
  | op o =>
      obtain ⟨b', hb, rfl⟩ := Option.map_eq_some_iff.mp hstep
      exact ⟨_, hs.step hallowed.1 hb⟩

end Steps

/-- In every list that is built, deleted from and cleared, the chains from its two ends are
reverses of each other and hold the counted nodes once each; and the next call does what it is
meant for, if there is a number for a node that it adds. -/
theorem linked_list_sound {node : α → EzNode α} {s : Owned α}
    (h : Reach Owned.step Allowed (.init node) s) :
    Represents s.list s.list.toList ∧ ∀ call, Allowed s call →
      (call.adds = none ∨ s.list.size ≠ intMax) →
        ∃ s', s.step call = some s' ∧ CallSound s call s' := by
  obtain ⟨xs, hinv⟩ := reach_owned_inv h
  constructor
  · rw [hinv.represents.toList]
    exact hinv.represents
  · intro call hallowed hroom
    obtain ⟨s', hstep, hsound, -⟩ := hinv.sound hallowed hroom
    exact ⟨s', hstep, hsound⟩

/-- The nodes 1 and 2. -/
def sampleOwned : Owned Nat := ⟨sampleBuilt 2, []⟩

/-- The first of two nodes is deleted. -/
theorem linked_list_sound_two : Represents sampleOwned.list [1, 2] ∧
    ∃ s', sampleOwned.step (.op (.delete 1)) = some s' ∧ s'.list.toList = [2] := by
  have hallowed : ∀ s : Owned Nat, s.freed = [] → ∀ op, Proper s.toBuilt op → Allowed s (.op op) :=
    fun s hfreed op hproper => ⟨hproper, fun x _ => by simp [hfreed]⟩
  have h₁ : Reach Owned.step Allowed (.init fun _ => ⟨none, none⟩) ⟨sampleBuilt 1, []⟩ :=
    .next (i := .op (.addLast 1)) .start (hallowed _ rfl _ (by decide)) rfl
  have h₂ : Reach Owned.step Allowed (.init fun _ => ⟨none, none⟩) sampleOwned :=
    .next (i := .op (.addLast 2)) h₁ (hallowed _ rfl _ (by decide)) rfl
  obtain ⟨hrepresents, hcall⟩ := linked_list_sound h₂
  obtain ⟨s', hstep, hsound⟩ := hcall (.op (.delete 1)) (hallowed _ rfl _ (by decide)) (.inl rfl)
  exact ⟨hrepresents, s', hstep, hsound.list⟩

end EzIot.Ezlist
