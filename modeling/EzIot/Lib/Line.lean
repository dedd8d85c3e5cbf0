import EzIot.Lib.Logged
import EzIot.Lib.CText
import Mathlib.Data.List.Basic

/-! # Lines that take a part of what they are given

Every write to a line fails or takes some number of bytes, at most those it was
given. A writer that does not look at this number goes on with its next piece.
-/

namespace EzIot

open CText Program

/-- What the next writes will do, and the bytes that have arrived at the other end.
Behind the end of the list everything is taken. -/
structure Line (ε : Type) where
  results : List (Except ε Nat)
  sent : Bytes

namespace Line

variable {ε : Type}

def write (piece : Bytes) : Program (Line ε) ε Unit := fun line =>
  match line.results with
  | [] => (.ok (), ⟨[], line.sent ++ piece⟩)
  | .ok n :: rest => (.ok (), ⟨rest, line.sent ++ piece.take n⟩)
  | .error e :: rest => (.error e, ⟨rest, line.sent⟩)

def writeAll : List Bytes → Program (Line ε) ε Unit
  | [] => pure ()
  | piece :: pieces => write piece >>= fun _ => writeAll pieces

/-- The bytes that arrive. -/
def taken : List (Except ε Nat) → List Bytes → Bytes
  | _, [] => []
  | [], piece :: pieces => piece ++ taken [] pieces
  | .ok n :: rest, piece :: pieces => piece.take n ++ taken rest pieces
  | .error _ :: _, _ :: _ => []

/-- Every piece is taken whole. -/
def TakesAll : List (Except ε Nat) → List Bytes → Prop
  | _, [] => True
  | [], _ :: _ => True
  | .ok n :: rest, piece :: pieces => piece.length ≤ n ∧ TakesAll rest pieces
  | .error _ :: _, _ :: _ => False

def Fails (results : List (Except ε Nat)) (count : Nat) : Prop :=
  ∃ e, .error e ∈ results.take count

theorem fails_cons_ok {n : Nat} {rest : List (Except ε Nat)} {count : Nat} :
    Fails (.ok n :: rest) (count + 1) ↔ Fails rest count := by
  simp [Fails]

/-- What arrives in every case, and when all writes succeed. -/
theorem writeAll_run (line : Line ε) (pieces : List Bytes) :
    (writeAll pieces line).2.sent = line.sent ++ taken line.results pieces ∧
      ((writeAll pieces line).1 = .ok () ↔ ¬ Fails line.results pieces.length) := by
  induction pieces generalizing line with
  | nil =>
      refine ⟨?_, ?_⟩
      · rw [taken, List.append_nil]
        rfl
      · simp [writeAll, Fails]
        rfl
  | cons piece pieces ih =>
      rcases line with ⟨results, sent⟩
      rw [writeAll, bind_run]
      cases results with
      | nil =>
          have h := ih ⟨[], sent ++ piece⟩
          refine ⟨?_, ?_⟩
          · rw [taken, ← List.append_assoc]
            exact h.1
          · refine h.2.trans ?_
            simp [Fails]
      | cons r rest =>
          cases r with
          | ok n =>
              have h := ih ⟨rest, sent ++ piece.take n⟩
              refine ⟨?_, ?_⟩
              · rw [taken, ← List.append_assoc]
                exact h.1
              · rw [List.length_cons, fails_cons_ok]
                exact h.2
          | error e =>
              refine ⟨?_, ?_⟩
              · rw [taken, List.append_nil]
                rfl
              · refine iff_of_false (fun h => nomatch h) fun h => h ⟨e, ?_⟩
                simp

theorem length_taken_le (results : List (Except ε Nat)) (pieces : List Bytes) :
    (taken results pieces).length ≤ pieces.flatten.length := by
  induction pieces generalizing results with
  | nil => cases results <;> exact Nat.le_refl 0
  | cons piece pieces ih =>
      rw [List.flatten_cons, List.length_append]
      cases results with
      | nil =>
          have h := ih []
          rw [taken, List.length_append]
          omega
      | cons r rest =>
          cases r with
          | ok n =>
              have h := ih rest
              rw [taken, List.length_append, List.length_take]
              omega
          | error e => exact Nat.zero_le _

theorem taken_of_takesAll {results : List (Except ε Nat)} {pieces : List Bytes}
    (h : TakesAll results pieces) : taken results pieces = pieces.flatten := by
  induction pieces generalizing results with
  | nil => cases results <;> rfl
  | cons piece pieces ih =>
      rw [List.flatten_cons]
      cases results with
      | nil =>
          have hrest : TakesAll ([] : List (Except ε Nat)) pieces := by
            cases pieces <;> trivial
          rw [taken, ih hrest]
      | cons r rest =>
          cases r with
          | ok n => rw [taken, List.take_of_length_le h.1, ih h.2]
          | error e => exact h.elim

/-- With a last piece that is not empty, all bytes arrive only when every piece is
taken whole. -/
theorem taken_eq_flatten_iff {results : List (Except ε Nat)} {pieces : List Bytes} {last : Bytes}
    (hlast : last ≠ []) :
    taken results (pieces ++ [last]) = (pieces ++ [last]).flatten ↔
      TakesAll results (pieces ++ [last]) := by
  refine ⟨?_, taken_of_takesAll⟩
  have hpos := List.length_pos_iff.mpr hlast
  induction pieces generalizing results with
  | nil =>
      intro h
      cases results with
      | nil => trivial
      | cons r rest =>
          have hlen := congrArg List.length h
          cases r with
          | ok n =>
              simp only [List.nil_append, taken, List.append_nil, List.flatten_cons,
                List.flatten_nil, List.length_take] at hlen
              exact ⟨by omega, by cases rest <;> trivial⟩
          | error e =>
              simp only [List.nil_append, taken, List.flatten_cons, List.flatten_nil,
                List.append_nil, List.length_nil] at hlen
              omega
  | cons piece pieces ih =>
      intro h
      have hlen := congrArg List.length h
      have htotal : 0 < (pieces ++ [last]).flatten.length := by
        rw [List.flatten_append, List.length_append, List.flatten_singleton]
        omega
      rw [List.cons_append, List.flatten_cons] at h hlen
      cases results with
      | nil => trivial
      | cons r rest =>
          cases r with
          | ok n =>
              have hle := length_taken_le rest (pieces ++ [last])
              rw [taken, List.length_append, List.length_append, List.length_take] at hlen
              have hn : piece.length ≤ n := by omega
              rw [taken, List.take_of_length_le hn] at h
              exact ⟨hn, ih (List.append_cancel_left h)⟩
          | error e =>
              rw [taken, List.length_nil, List.length_append] at hlen
              omega

end Line

end EzIot
