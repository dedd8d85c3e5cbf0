import EzIot.Shadow.Report

/-! # Which keys a pass serves

The loops of a pass share one early exit. A key is served when its visit takes place, and
its visit takes place when none before it has failed.
-/

namespace EzIot.Shadow

open CText CJson Nested

section Visits

variable {own : CString} {env : Nat → Visit} {s : Pass} {l : List Entry} {n : Nat} {e : Entry}

/-- The pass comes to entry `n` exactly if no visit before it fails, and that is visit `n`. -/
theorem reached_visit (h : n ≤ l.length) :
    (reached (visitEntry own env) s l n).isSome ↔
      ∀ m e, m < n → l[m]? = some e → e.fails own (env (s.visited + m)) = false := by
  induction l generalizing s n with
  | nil =>
      cases Nat.le_zero.mp h
      exact iff_of_true rfl fun m _ hm => absurd hm (Nat.not_lt_zero m)
  | cons a l ih =>
      cases n with
      | zero => exact iff_of_true rfl fun m _ hm => absurd hm (Nat.not_lt_zero m)
      | succ n =>
          rw [reached, visitEntry_stop]
          cases hfails : a.fails own (env s.visited) with
          | true =>
              refine iff_of_false (by simp) fun hall => ?_
              exact absurd (hfails.symm.trans (hall 0 a (Nat.zero_lt_succ n) rfl)) (by decide)
          | false =>
              rw [if_neg Bool.false_ne_true, ih (Nat.le_of_succ_le_succ h), visitEntry_visited]
              constructor
              · intro hall m e hm hget
                cases m with
                | zero =>
                    cases hget
                    exact hfails
                | succ m =>
                    have hlater := hall m e (Nat.lt_of_succ_lt_succ hm) hget
                    rwa [Nat.add_assoc, Nat.add_comm 1 m] at hlater
              · intro hall m e hm hget
                have hlater := hall (m + 1) e (Nat.succ_lt_succ hm) hget
                rwa [Nat.add_assoc, Nat.add_comm 1 m]

theorem reached_visited {t : Pass} (h : reached (visitEntry own env) s l n = some t) :
    t.visited = s.visited + n := by
  induction l generalizing s n with
  | nil =>
      cases n with
      | zero => cases h; rfl
      | succ n => cases h
  | cons a l ih =>
      cases n with
      | zero => cases h; rfl
      | succ n =>
          rw [reached] at h
          split at h
          · cases h
          · rw [ih h, visitEntry_visited]
            omega

end Visits

/-! ## What a pass sends -/

/-- The report that the visit of entry `n` sends. -/
def reportOf (own : CString) (env : Nat → Visit) (s : Pass) (l : List Entry) (n : Nat) :
    Option Report :=
  (reached (visitEntry own env) s l n).bind fun t => l[n]?.bind fun e =>
    (doReport own (env t.visited) t.drawn e.devSn e.type e.index e.domain e.node).2.2

abbrev reportAt (own : CString) (env : Nat → Visit) (drawn : Nat) (g : Modules) (n : Nat) :
    Option Report :=
  reportOf own env ⟨0, drawn, 0, []⟩ (entries g) n

theorem sweep_sent (own : CString) (env : Nat → Visit) (l : List Entry) (s : Pass) :
    (sweep (visitEntry own env) s l).1.sent =
      s.sent ++ (List.range l.length).filterMap (reportOf own env s l) := by
  induction l generalizing s with
  | nil => simp [sweep_nil]
  | cons e l ih =>
      have hsent : (visitEntry own env s e).1.sent =
          s.sent ++ (reportOf own env s (e :: l) 0).toList := rfl
      have hlater : ∀ n, reportOf own env s (e :: l) (n + 1) =
          if (visitEntry own env s e).2.2 then none
          else reportOf own env (visitEntry own env s e).1 l n := by
        intro n
        unfold reportOf
        rw [reached, List.getElem?_cons_succ]
        split <;> rfl
      have hrange : (List.range (e :: l).length).filterMap (reportOf own env s (e :: l)) =
          (reportOf own env s (e :: l) 0).toList ++
            (List.range l.length).filterMap fun n => reportOf own env s (e :: l) (n + 1) := by
        rw [List.length_cons, List.range_succ_eq_map, List.filterMap_cons, List.filterMap_map]
        cases reportOf own env s (e :: l) 0 <;> rfl
      rw [hrange]
      simp only [hlater]
      cases hstop : (visitEntry own env s e).2.2 with
      | true => simp [sweep_cons_stop l hstop, hsent]
      | false => simp [sweep_cons_next l hstop, hsent, ih, List.append_assoc]

theorem shadowProcReport_sent (own : CString) (env : Nat → Visit) (drawn : Nat) (g : Modules) :
    (shadowProcReport own env drawn g).sent =
      (List.range (entries g).length).filterMap (reportAt own env drawn g) := by
  have hsent : (shadowProcReport own env drawn g).sent = (pass own env drawn g).1.sent := by
    rw [pass, sweep_entries]
    rfl
  rw [hsent, pass, sweep_sent]
  rfl

/-! ## What is given to the kernel -/

/-- The key is due: it needs a report, and its report timer is not running. -/
def Entry.due (v : Visit) (e : Entry) : Bool := e.node.needReport && !e.node.waiting v

/-- The value that a visit gives to `shadow_protocol_report`. -/
def Entry.offered (own : CString) (v : Visit) (e : Entry) : Option Value :=
  if e.due v then
    match e.pending own v with
    | .json value => some value
    | _ => none
  else none

/-- The calls of `shadow_protocol_report` in a pass, each with the number of its visit. -/
def protocolCalls (own : CString) (env : Nat → Visit) : Pass → List Entry → List (Nat × Value)
  | _, [] => []
  | s, e :: l =>
      (e.offered own (env s.visited)).toList.map (s.visited, ·) ++
        if (visitEntry own env s e).2.2 then []
        else protocolCalls own env (visitEntry own env s e).1 l

/-- The calls that are made for entry `n`. -/
abbrev callsFor (own : CString) (env : Nat → Visit) (drawn : Nat) (g : Modules) (n : Nat) :
    List (Nat × Value) :=
  (protocolCalls own env ⟨0, drawn, 0, []⟩ (entries g)).filter fun c => c.1 = n

section Calls

variable {own : CString} {env : Nat → Visit} {s : Pass} {l : List Entry} {n : Nat}

theorem protocolCalls_later {c : Nat × Value} (h : c ∈ protocolCalls own env s l) :
    s.visited ≤ c.1 := by
  induction l generalizing s with
  | nil => cases h
  | cons e l ih =>
      rcases List.mem_append.mp h with hnow | hlater
      · obtain ⟨value, -, rfl⟩ := List.mem_map.mp hnow
        exact Nat.le_refl _
      · split at hlater
        · cases hlater
        · exact Nat.le_of_succ_le (ih hlater)

/-- A visit makes its call once, if it takes place. -/
theorem filter_protocolCalls : (protocolCalls own env s l).filter (fun c => c.1 = s.visited + n) =
    (((reached (visitEntry own env) s l n).bind fun _ => l[n]?).bind
      (Entry.offered own (env (s.visited + n)))).toList.map (s.visited + n, ·) := by
  induction l generalizing s n with
  | nil => cases n <;> rfl
  | cons e l ih =>
      rw [protocolCalls, List.filter_append]
      cases n with
      | zero =>
          have hrest : (if (visitEntry own env s e).2.2 then []
              else protocolCalls own env (visitEntry own env s e).1 l).filter
                (fun c => c.1 = s.visited + 0) = [] := by
            rw [List.filter_eq_nil_iff]
            intro c hc
            split at hc
            · cases hc
            · have hlater := protocolCalls_later hc
              rw [visitEntry_visited] at hlater
              simp only [decide_eq_true_eq]
              omega
          rw [hrest, List.append_nil, Nat.add_zero, reached, Option.bind_some, List.getElem?_cons_zero,
            Option.bind_some]
          cases e.offered own (env s.visited) with
          | none => rfl
          | some value => simp
      | succ n =>
          have hnow : ((e.offered own (env s.visited)).toList.map (s.visited, ·)).filter
              (fun c => c.1 = s.visited + (n + 1)) = [] := by
            rw [List.filter_eq_nil_iff]
            intro c hc
            obtain ⟨value, -, rfl⟩ := List.mem_map.mp hc
            simp
          rw [hnow, List.nil_append, reached]
          split
          · rfl
          · have hnext := ih (s := (visitEntry own env s e).1) (n := n)
            rw [visitEntry_visited, Nat.add_assoc, Nat.add_comm 1 n] at hnext
            rw [hnext]
            rfl

end Calls

/-! ## Serving every due key -/

section Serving

variable {own : CString} {env : Nat → Visit} {drawn : Nat} {g : Modules} {n : Nat} {e : Entry}

/-- The key is given to the kernel once, or is no longer due because its callback is absent or
has failed. -/
def Attended (own : CString) (env : Nat → Visit) (drawn : Nat) (g : Modules) (n : Nat) (e : Entry) :
    Prop :=
  (callsFor own env drawn g n).length = 1 ∨
    (e.pending own (env n) = .nothing ∧
      ((entries (shadowProcReport own env drawn g).modules)[n]?.map (·.node.needReport)) = some false)

/-- The visit of a key takes place, and its value can be encoded. -/
def Unblocked (own : CString) (env : Nat → Visit) (g : Modules) (n : Nat) (e : Entry) : Prop :=
  e.pending own (env n) ≠ .invalid ∧
    ∀ m e', m < n → (entries g)[m]? = some e' → e'.fails own (env m) = false

theorem due_node (h : e.due (env n) = true) :
    e.node.needReport = true ∧ e.node.waiting (env n) = false := by
  simpa [Entry.due] using h

/-- A due key without a value is dropped by its visit. -/
theorem visitEntry_nothing {s : Pass} (hdue : e.due (env s.visited) = true)
    (hnothing : e.pending own (env s.visited) = .nothing) :
    (visitEntry own env s e).2.1.node.needReport = false := by
  obtain ⟨hneed, hwait⟩ := due_node hdue
  rw [visitEntry_needReport own env s e (by simp [Entry.waits, hwait]) (by simp [Entry.fails, hnothing])]
  simp [Entry.sends, hnothing]

theorem callsFor_eq : callsFor own env drawn g n =
    (((reached (visitEntry own env) ⟨0, drawn, 0, []⟩ (entries g) n).bind fun _ =>
      (entries g)[n]?).bind (Entry.offered own (env n))).toList.map (n, ·) := by
  have hcalls := @filter_protocolCalls own env ⟨0, drawn, 0, []⟩ (entries g) n
  simpa only [Nat.zero_add] using hcalls

/-- The one call for a due key is made if the visit takes place and there is a value. -/
theorem callsFor_length (hget : (entries g)[n]? = some e) (hdue : e.due (env n) = true) :
    (callsFor own env drawn g n).length = 1 ↔
      (reached (visitEntry own env) ⟨0, drawn, 0, []⟩ (entries g) n).isSome ∧
        ∃ value, e.pending own (env n) = .json value := by
  rw [callsFor_eq, List.length_map, hget]
  cases reached (visitEntry own env) ⟨0, drawn, 0, []⟩ (entries g) n with
  | none => simp
  | some t =>
      rw [Option.bind_some, Option.bind_some, Entry.offered, if_pos hdue]
      cases e.pending own (env n) <;> simp

theorem attended_iff (hget : (entries g)[n]? = some e) (hdue : e.due (env n) = true) :
    Attended own env drawn g n e ↔ Unblocked own env g n e := by
  have hlen : n ≤ (entries g).length := Nat.le_of_lt (List.getElem?_eq_some_iff.mp hget).choose
  have hreached : (reached (visitEntry own env) ⟨0, drawn, 0, []⟩ (entries g) n).isSome ↔
      ∀ m e', m < n → (entries g)[m]? = some e' → e'.fails own (env (0 + m)) = false :=
    reached_visit hlen
  simp only [Nat.zero_add] at hreached
  unfold Attended Unblocked
  rw [callsFor_length hget hdue, ← hreached, shadowProcReport_entries, getElem?_sweep, hget]
  cases hvisit : reached (visitEntry own env) ⟨0, drawn, 0, []⟩ (entries g) n with
  | none => simp [(due_node hdue).1]
  | some t =>
      have hn : t.visited = n := by
        rw [reached_visited hvisit, Nat.zero_add]
      subst hn
      cases hpending : e.pending own (env t.visited) with
      | nothing => simp [visitEntry_nothing hdue hpending]
      | invalid => simp
      | json value => simp

end Serving

/-- A pass attends to every due key exactly if each of them has a value that can be encoded,
or none at all, and stands behind no key that fails. -/
theorem pass_attends_iff (own : CString) (env : Nat → Visit) (drawn : Nat) (g : Modules) :
    (∀ n e, (entries g)[n]? = some e → e.due (env n) = true → Attended own env drawn g n e) ↔
      ∀ n e, (entries g)[n]? = some e → e.due (env n) = true → Unblocked own env g n e :=
  forall₄_congr fun _ _ hget hdue => attended_iff hget hdue

/-- Two keys, the first with a callback that writes a value of length 0. -/
def blockedTree : Modules :=
  (shadowCoreModuleAddv3 (.lit "OWN") ⟨.lit "SUB1", .lit "Video", 0, .lit "light",
    [⟨.strncpy (.lit "name"), none, some 1⟩, ⟨.strncpy (.lit "power"), none, some 2⟩]⟩ []).2

def emptyValueVisit : Visit :=
  { sampleVisit with dev2cloud := fun cb _ => some (if cb = 1 then ⟨0, .string (.lit "")⟩ else ⟨4, .int 1⟩) }

/-- The second key is not reported, and the same holds for the next pass. -/
theorem empty_value_blocks :
    let env := fun _ : Nat => emptyValueVisit
    (¬ ∀ n e, (entries blockedTree)[n]? = some e → e.due (env n) = true →
      Attended (.lit "OWN") env 0 blockedTree n e) ∧
      (shadowProcReport (.lit "OWN") env 0 blockedTree).modules = blockedTree := by
  refine ⟨fun hall => ?_, rfl⟩
  rcases hall 1 _ rfl rfl with hcall | ⟨hnothing, -⟩
  · exact absurd hcall (by decide)
  · cases hnothing

end EzIot.Shadow
