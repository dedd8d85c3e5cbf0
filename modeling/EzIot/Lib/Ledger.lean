import Mathlib.Data.List.Nodup
import Mathlib.Data.List.Perm.Basic

/-! # Accounts of what is allocated and freed

Allocations are numbered in their order, and every free is written down with the numbers
it frees. Between two moments the account is settled if each number that was given out
in between was freed once, and no other number was.
-/

namespace EzIot

structure Ledger where
  next : Nat
  freed : List Nat
deriving DecidableEq

namespace Ledger

/-- The numbers of the next `n` allocations. -/
def fresh (n : Nat) (l : Ledger) : List Nat := List.range' l.next n

def alloc (n : Nat) (l : Ledger) : Ledger := { l with next := l.next + n }

def free (ids : List Nat) (l : Ledger) : Ledger := { l with freed := l.freed ++ ids }

@[simp] theorem free_nil (l : Ledger) : l.free [] = l := by
  unfold free
  rw [List.append_nil]

/-- Of the numbers given out in between `held` are in use, and the others were freed once. -/
structure Owes (l l' : Ledger) (held : List Nat) : Prop where
  le : l.next ≤ l'.next
  account : ∃ fs, l'.freed = l.freed ++ fs ∧
    (fs ++ held).Perm (List.range' l.next (l'.next - l.next))

def Settled (l l' : Ledger) : Prop := Owes l l' []

variable {l l' l'' : Ledger} {held held' ids : List Nat} {n : Nat}

/-- Settled: each number is freed as often as it was given out in between. -/
theorem settled_iff : Settled l l' ↔ l.next ≤ l'.next ∧ ∃ fs, l'.freed = l.freed ++ fs ∧
    ∀ id, fs.count id = if l.next ≤ id ∧ id < l'.next then 1 else 0 := by
  have hcount (hle : l.next ≤ l'.next) (id : Nat) :
      (List.range' l.next (l'.next - l.next)).count id =
        if l.next ≤ id ∧ id < l'.next then 1 else 0 := by
    rw [(List.nodup_range' 1).count]
    simp only [List.mem_range'_1]
    congr 1
    rw [eq_iff_iff]
    omega
  constructor
  · rintro ⟨hle, fs, hfreed, hperm⟩
    rw [List.append_nil] at hperm
    exact ⟨hle, fs, hfreed, fun id => (hperm.count_eq id).trans (hcount hle id)⟩
  · rintro ⟨hle, fs, hfreed, hfs⟩
    refine ⟨hle, fs, hfreed, ?_⟩
    rw [List.append_nil]
    exact List.perm_iff_count.mpr fun id => (hfs id).trans (hcount hle id).symm

namespace Owes

theorem rfl : Owes l l [] := by
  refine ⟨Nat.le_refl _, [], (List.append_nil _).symm, ?_⟩
  rw [Nat.sub_self]
  exact .refl _

theorem perm (h : Owes l l' held) (hperm : held.Perm held') : Owes l l' held' := by
  obtain ⟨hle, fs, hfreed, haccount⟩ := h
  exact ⟨hle, fs, hfreed, (hperm.symm.append_left fs).trans haccount⟩

theorem alloc (h : Owes l l' held) (n : Nat) :
    Owes l (l'.alloc n) (held ++ l'.fresh n) := by
  obtain ⟨hle, fs, hfreed, haccount⟩ := h
  have hnext : (l'.alloc n).next = l'.next + n := Eq.refl _
  refine ⟨by omega, fs, hfreed, ?_⟩
  have hrange : List.range' l.next ((l'.alloc n).next - l.next) =
      List.range' l.next (l'.next - l.next) ++ l'.fresh n := by
    have hsplit : (l'.alloc n).next - l.next = (l'.next - l.next) + n := by omega
    have hstart : l.next + 1 * (l'.next - l.next) = l'.next := by omega
    rw [hsplit, ← List.range'_append, hstart]
    exact Eq.refl _
  rw [hrange, ← List.append_assoc]
  exact haccount.append_right _

theorem first (l : Ledger) (n : Nat) : Owes l (l.alloc n) (l.fresh n) := Owes.rfl.alloc n

theorem free (h : Owes l l' (ids ++ held)) : Owes l (l'.free ids) held := by
  obtain ⟨hle, fs, hfreed, haccount⟩ := h
  refine ⟨hle, fs ++ ids, ?_, ?_⟩
  · change l'.freed ++ ids = _
    rw [hfreed, List.append_assoc]
  · rw [List.append_assoc]
    exact haccount

theorem free_all (h : Owes l l' held) : Settled l (l'.free held) :=
  free ((List.append_nil held).symm ▸ h)

theorem held_perm (h : Owes l l' held) (h' : Owes l l' held') : held.Perm held' := by
  obtain ⟨-, fs, hfreed, haccount⟩ := h
  obtain ⟨-, fs', hfreed', haccount'⟩ := h'
  have hfs : fs = fs' := List.append_cancel_left (hfreed.symm.trans hfreed')
  subst hfs
  exact (List.perm_append_left_iff fs).mp (haccount.trans haccount'.symm)

/-- What is still in use was leaked. -/
theorem not_settled (h : Owes l l' held) (hne : held ≠ []) : ¬ Settled l l' :=
  fun hsettled => hne (h.held_perm hsettled).eq_nil

/-- What is freed without being in use was freed twice. -/
theorem not_settled_free (h : Owes l l' held) {id : Nat} (hid : id ∈ ids) (hheld : id ∉ held) :
    ¬ Settled l (l'.free ids) := by
  intro hsettled
  obtain ⟨-, fs, hfreed, haccount⟩ := h
  obtain ⟨-, fs', hfreed', haccount'⟩ := hsettled
  have hfs : fs' = fs ++ ids := by
    have hboth : l'.freed ++ ids = l.freed ++ fs' := hfreed'
    rw [hfreed, List.append_assoc] at hboth
    exact (List.append_cancel_left hboth).symm
  rw [List.append_nil, hfs] at haccount'
  have hnodup : (fs ++ ids).Nodup := haccount'.nodup_iff.mpr List.nodup_range'
  have hrange : id ∈ List.range' l.next ((l'.free ids).next - l.next) :=
    haccount'.mem_iff.mp (List.mem_append_right fs hid)
  have hfirst : id ∈ fs ++ held := haccount.mem_iff.mpr hrange
  rcases List.mem_append.mp hfirst with hmem | hmem
  · exact (List.nodup_append.mp hnodup).2.2 id hmem id hid (Eq.refl id)
  · exact hheld hmem

end Owes

end Ledger

end EzIot
