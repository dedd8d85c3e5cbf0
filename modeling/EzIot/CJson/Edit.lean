import EzIot.CJson.Tree
import EzIot.Lib.Slots

/-! # Lists of records as arrays of objects

Components keep lists of records as the text of an array. They search it for the first
element with a certain text under a name, and append, replace or delete elements.
-/

namespace EzIot.CJson

open CText

def Value.valuestring : Value → Option CString
  | .string s => some (.ofMem s)
  | _ => none

def Value.valueint : Value → Int
  | .number d => d.valueint
  | .bool true => 1
  | _ => 0

/-- A text element of a structure: empty if there is no member of that name. There is
no result where the text is copied from a null pointer. -/
def Value.stringElement (v : Value) (name : String) : Option CString :=
  match v.getObjectItem (ascii name) with
  | none => some (.lit "")
  | some x => x.valuestring

/-- An integer element of a structure. -/
def Value.intElement (v : Value) (name : String) : Int :=
  match v.getObjectItem (ascii name) with
  | none => 0
  | some x => x.valueint

/-- `cJSON_ReplaceItemInObject`: the new member stands where the first of that name was. -/
def Value.replaceItemInObject (v : Value) (name : String) (x : Value) : Value :=
  match v with
  | .object members =>
      .object (Slots.modifyFirst (fun m => sameName (ascii name) m.1) (fun _ => (ascii name, x)) members)
  | v => v

/-- The position of the first element with that text under `name`. There is no result
where a null pointer is compared. -/
def findByText (name : String) (text : CString) : List Value → Option (Option Nat)
  | [] => some none
  | v :: vs =>
      match v.getObjectItem (ascii name) with
      | none => (findByText name text vs).map (Option.map (· + 1))
      | some x =>
          match x.valuestring with
          | none => none
          | some s =>
              if s = text then some (some 0)
              else (findByText name text vs).map (Option.map (· + 1))

/-! ## Records -/

section Records

variable {α : Type*} {name : String}

theorem valuestring_string (s : CString) : (Value.string s.val).valuestring = some s := by
  unfold Value.valuestring
  exact congrArg some (CString.ext (cstr_of_no_zero s.noNul))

/-- In the array of some records, the search finds a record. -/
theorem findByText_map (toJson : α → Value) (key : α → CString)
    (h : ∀ a, (toJson a).getObjectItem (ascii name) = some (.string (key a).val))
    (text : CString) (l : List α) :
    findByText name text (l.map toJson) = some (l.findIdx? fun a => decide (key a = text)) := by
  induction l with
  | nil => rfl
  | cons a l ih =>
      rw [List.map_cons, findByText, h a]
      simp only [valuestring_string, List.findIdx?_cons, decide_eq_true_eq]
      split
      · rfl
      · rw [ih]
        rfl

theorem findIdx?_eq_some_split {p : α → Bool} {l : List α} {i : Nat}
    (h : l.findIdx? p = some i) :
    ∃ pre a post, l = pre ++ a :: post ∧ i = pre.length ∧ p a = true ∧ ∀ x ∈ pre, p x = false := by
  induction l generalizing i with
  | nil => cases h
  | cons x l ih =>
      rw [List.findIdx?_cons] at h
      split at h
      next hx =>
        cases h
        exact ⟨[], x, l, rfl, rfl, hx, fun y hy => absurd hy List.not_mem_nil⟩
      next hx =>
        obtain ⟨j, hj, rfl⟩ := Option.map_eq_some_iff.mp h
        rcases ih hj with ⟨pre, a, post, rfl, rfl, ha, hpre⟩
        refine ⟨x :: pre, a, post, rfl, rfl, ha, fun y hy => ?_⟩
        rcases List.mem_cons.mp hy with rfl | hmem
        · simpa using hx
        · exact hpre y hmem

end Records

/-! ## Printed records -/

section Printed

variable {printNumber : Rat → Bytes}

/-- A record: an object of texts, numbers and flags. -/
structure IsRecord (printNumber : Rat → Bytes) (v : Value) : Prop where
  members : ∃ ms, v = .object ms ∧ (∀ m ∈ ms, (0 : UInt8) ∉ m.1) ∧
    ∀ m ∈ ms, m.2.children = [] ∧ m.2.isContainer = false ∧ Printable printNumber m.2

theorem fits_leaf {d : Nat} {v : Value} (hleaf : v.isContainer = false) (hchild : v.children = []) :
    Fits d v := by
  refine .node (fun hv => absurd hv (by simp [hleaf])) fun x hx => ?_
  rw [hchild] at hx
  exact absurd hx List.not_mem_nil

theorem IsRecord.fits {v : Value} (h : IsRecord printNumber v) {d : Nat} (hd : d < nestingLimit) :
    Fits d v := by
  obtain ⟨ms, rfl, -, hms⟩ := h.members
  refine .node (fun _ => hd) fun x hx => ?_
  obtain ⟨m, hm, rfl⟩ := List.mem_map.mp hx
  exact fits_leaf (hms m hm).2.1 (hms m hm).1

theorem IsRecord.printable {v : Value} (h : IsRecord printNumber v) :
    Each (Printable printNumber) v := by
  obtain ⟨ms, rfl, hnames, hms⟩ := h.members
  refine .node hnames fun x hx => ?_
  obtain ⟨m, hm, rfl⟩ := List.mem_map.mp hx
  refine .node (hms m hm).2.2 fun y hy => ?_
  rw [(hms m hm).1] at hy
  exact absurd hy List.not_mem_nil

theorem fits_records {items : List Value} (h : ∀ v ∈ items, IsRecord printNumber v) :
    Fits 0 (.array items) := by
  refine .node (fun _ => by decide) fun x hx => ?_
  rw [children_array] at hx
  exact (h x hx).fits (by decide)

theorem printable_records {items : List Value} (h : ∀ v ∈ items, IsRecord printNumber v) :
    Each (Printable printNumber) (.array items) := by
  refine .node trivial fun x hx => ?_
  rw [children_array] at hx
  exact (h x hx).printable

theorem cJSONParse_printRecords {items : List Value} (h : ∀ v ∈ items, IsRecord printNumber v) :
    cJSONParse (printValue printNumber (.array items)) = some (.array items) :=
  cJSONParse_printValue rfl (fits_records h) (printable_records h)

theorem cJSONParse_printRecord {v : Value} (h : IsRecord printNumber v) :
    cJSONParse (printValue printNumber v) = some v := by
  have hobject : v.isContainer = true := by
    obtain ⟨ms, rfl, -, -⟩ := h.members
    rfl
  exact cJSONParse_printValue hobject (h.fits (by decide)) h.printable

/-- Only the whole text of an array of records is one. -/
theorem cJSONParse_cutRecords {items : List Value} (h : ∀ v ∈ items, IsRecord printNumber v)
    {t b : Bytes} (ht : printValue printNumber (.array items) = t ++ b) (hb : b ≠ []) :
    cJSONParse t = none :=
  cJSONParse_prefix rfl (fits_records h) (printable_records h) ht hb

theorem printArray_ne_nil (items : List Value) : printValue printNumber (.array items) ≠ [] := by
  rw [printValue]
  exact List.cons_ne_nil _ _

theorem length_printElements_le {s t : List Value} (h : s.Sublist t) :
    (printElements printNumber s).length ≤ (printElements printNumber t).length := by
  induction h with
  | slnil => exact Nat.le_refl _
  | @cons s t v _ ih =>
      rw [printElements]
      split
      next hnil =>
        rw [hnil] at ih
        rw [List.append_nil]
        exact Nat.le_trans ih (Nat.zero_le _)
      next =>
        rw [List.length_append, List.length_cons]
        omega
  | @cons_cons s t v hsub ih =>
      rw [printElements, printElements, List.length_append, List.length_append]
      split
      next =>
        rw [List.length_nil]
        omega
      next hne =>
        have hne' : t ≠ [] := by
          rintro rfl
          exact hne (List.sublist_nil.mp hsub)
        rw [if_neg hne', List.length_cons, List.length_cons]
        omega

theorem length_printElements_congr {s t : List Value} (h : List.Forall₂ (fun v w =>
      (printValue printNumber v).length = (printValue printNumber w).length) s t) :
    (printElements printNumber s).length = (printElements printNumber t).length := by
  induction h with
  | nil => rfl
  | @cons v w s t hhead htail ih =>
      rw [printElements, printElements, List.length_append, List.length_append, hhead]
      cases htail with
      | nil => rfl
      | cons =>
          rw [if_neg (List.cons_ne_nil _ _), if_neg (List.cons_ne_nil _ _), List.length_cons,
            List.length_cons, ih]

theorem length_printArray_le {s t : List Value} (h : s.Sublist t) :
    (printValue printNumber (.array s)).length ≤ (printValue printNumber (.array t)).length := by
  have hle : (printElements printNumber s).length ≤ (printElements printNumber t).length :=
    length_printElements_le h
  simp only [printValue, List.length_cons, List.length_append]
  omega

end Printed

end EzIot.CJson
