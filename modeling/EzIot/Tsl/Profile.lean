import EzIot.Lib.Buffer
import EzIot.Tsl.Schema

/-! # Profiles

`profile_parse` turns the text of a profile into the tree that the lookups walk over.
The local indexes of a resource lie behind each other in one buffer, eight bytes for
each. Of the members of the tree, those are kept that some lookup reads.
-/

namespace EzIot.Tsl

open CText CJson

namespace Err

def general : Nat := 0x40004
def devNotFound : Nat := 0x40006
def indexNotFound : Nat := 0x40008
def domainNotFound : Nat := 0x40009
def keyNotFound : Nat := 0x4000a

end Err

/-! ## The tree -/

/-- `tsl_domain_prop`. -/
structure DomainProp where
  identifier : CField 32
  accessRead : Bool
  accessWrite : Bool
  propDesc : SchemaDesc

/-- `tsl_domain_event`. -/
structure DomainEvent where
  identifier : CField 32
  inputSchema : SchemaDesc

/-- `tsl_rsc_domain`. -/
structure RscDomain where
  identifier : CField 32
  prop : List DomainProp
  event : List DomainEvent

/-- `tsl_profile_resource`; `index` is the buffer behind the pointer. -/
structure ProfileResource where
  rscCategory : CField 32
  indexNum : Nat
  index : Bytes
  domain : List RscDomain

structure Capacity where
  devType : CField 24
  devFwVer : CField 36
  resource : List ProfileResource

/-- Memory that is all zero. -/
def RscDomain.zero : RscDomain := ⟨.strncpy (.lit ""), [], []⟩

/-! ## Parsing -/

/-- How a parse stops: with a return code, where C leaves a conversion open, or with a
write outside of a buffer. -/
inductive Stop
  | code (rv : Nat)
  | conversion
  | overrun
deriving DecidableEq

def textKeyword (js : Value) (name : String) : Option CString :=
  match keyword js name with
  | some (.string s) => some (.ofMem s)
  | _ => none

/-- The elements of an array, each parsed into zeroed memory of that size. Without the
array, or without elements, nothing is allocated. -/
def parseElements {α : Type} (p : Platform) (size : Nat) (parse : Value → Except Stop α)
    (js : Value) (name : String) : Except Stop (List α) :=
  match arrayKeyword js name with
  | none => .ok []
  | some items =>
      if items = [] then .ok []
      else if p.malloc (size * items.length) = true then items.mapM parse
      else .error (.code Err.memory)

/-- The description under `schema`, which has to be there. -/
def parseSchemaKeyword (p : Platform) (absent : Nat) (js : Value) : Except Stop SchemaDesc :=
  match keyword js "schema" with
  | some (.object members) =>
      match profileParseSchema p (.object members) with
      | none => .error .conversion
      | some (rv, desc) => if rv ≠ 0 then .error (.code rv) else .ok desc
  | _ => .error (.code absent)

/-- The description of an input or output, which may be missing. -/
def parseDirection (p : Platform) (absent : Nat) (js : Value) (name : String) :
    Except Stop SchemaDesc :=
  match keyword js name with
  | some (.object members) => parseSchemaKeyword p absent (.object members)
  | _ => .ok .zero

section Strong

/- `strong` is whether `CONFIG_EZIOT_TSL_LEGALITY_CHECK_STRONG` is set. -/
variable (p : Platform) (strong : Bool)

/-- The description of a property, which only the strong checks read. -/
def parsePropDesc (js : Value) : Except Stop SchemaDesc :=
  if strong then parseSchemaKeyword p Err.paramInvalid js else .ok .zero

/-- One round of `profile_parse_domain_props`. -/
def parseProp : Value → Except Stop DomainProp
  | .object members =>
      match textKeyword (.object members) "identifier" with
      | none => .error (.code Err.paramInvalid)
      | some identifier =>
          match textKeyword (.object members) "access" with
          | none => .error (.code Err.paramInvalid)
          | some access => do
              let desc ← parsePropDesc p strong (.object members)
              .ok ⟨.strncpy identifier, decide (114 ∈ access.val), decide (119 ∈ access.val), desc⟩
  | _ => .error (.code Err.paramInvalid)

/-- One round of `profile_parse_domain_actions`; nothing reads what is stored. -/
def parseAction : Value → Except Stop Unit
  | .object members =>
      if textKeyword (.object members) "identifier" = none then .error (.code Err.paramInvalid)
      else if strong then
        if textKeyword (.object members) "direction" = none then .error (.code Err.paramInvalid)
        else do
          let _ ← parseDirection p Err.paramInvalid (.object members) "input"
          let _ ← parseDirection p Err.paramInvalid (.object members) "output"
          .ok ()
      else .ok ()
  | _ => .error (.code Err.general)

/-- The memory for the types of an event. -/
def parseEventType (js : Value) : Except Stop Unit :=
  match arrayKeyword js "eventType" with
  | none => .error (.code Err.paramInvalid)
  | some items =>
      if items = [] ∨ p.malloc (32 * items.length) = true then .ok ()
      else .error (.code Err.memory)

/-- One round of `profile_parse_domain_events`. -/
def parseEvent : Value → Except Stop DomainEvent
  | .object members =>
      match textKeyword (.object members) "identifier" with
      | none => .error (.code Err.paramInvalid)
      | some identifier =>
          if strong then do
            parseEventType p (.object members)
            let input ← parseDirection p Err.general (.object members) "input"
            let _ ← parseDirection p Err.general (.object members) "output"
            .ok ⟨.strncpy identifier, input⟩
          else .ok ⟨.strncpy identifier, .zero⟩
  | _ => .error (.code Err.general)

/-- The sizes of the entries in memory. -/
def propSize : Nat := if strong then 144 else 36
def actionSize : Nat := if strong then 248 else 32
def eventSize : Nat := if strong then 248 else 32

/-- One round of `profile_parse_domain`. -/
def parseDomain (members : List (Bytes × Value)) : Except Stop RscDomain :=
  match textKeyword (.object members) "identifier" with
  | none => .error (.code Err.paramInvalid)
  | some identifier => do
      let props ← parseElements p (propSize strong) (parseProp p strong) (.object members) "props"
      let _ ← parseElements p (actionSize strong) (parseAction p strong) (.object members) "actions"
      let events ← parseElements p (eventSize strong) (parseEvent p strong) (.object members)
        "events"
      .ok ⟨.strncpy identifier, props, events⟩

/-- `profile_parse_domain`: an entry that is no object ends the loop without an error,
and the memory of the rest stays zero. -/
def profileParseDomain : List Value → Except Stop (List RscDomain)
  | [] => .ok []
  | .object members :: rest => do
      let d ← parseDomain p strong members
      let ds ← profileParseDomain rest
      .ok (d :: ds)
  | _ :: rest => .ok (List.replicate (rest.length + 1) .zero)

/-- What `ezos_strncpy` writes for a text with the length 7. -/
def padded (s : CString) : Bytes := s.val.take 7 ++ List.replicate (7 - s.length) 0

/-- The loop over the local indexes of the resource at position `i`: every text is
written to the same place, and an entry that is no string ends the loop. -/
def storeIndexes (i : Nat) : List Value → Bytes → Except Stop Bytes
  | [], buf => .ok buf
  | .string s :: rest, buf =>
      match memcpy buf i (padded (.ofMem s)) with
      | none => .error .overrun
      | some buf => storeIndexes i rest buf
  | _ :: _, buf => .ok buf

def maxLocalIndexLength : Nat := 8

/-- One round of the loop of `profile_parse` over the resources, at position `i`. -/
def parseResource (i : Nat) (js : Value) : Except Stop ProfileResource :=
  match textKeyword js "resourceCategory" with
  | none => .error (.code Err.paramInvalid)
  | some category =>
      match arrayKeyword js "localIndex" with
      | none => .error (.code Err.paramInvalid)
      | some indexes =>
          if indexes = [] then .error (.code Err.general)
          else if p.malloc (maxLocalIndexLength * indexes.length) = false then
            .error (.code Err.memory)
          else do
            let index ← storeIndexes i indexes
              (List.replicate (maxLocalIndexLength * indexes.length) 0)
            match arrayKeyword js "domains" with
            | none => .error (.code Err.paramInvalid)
            | some domains =>
                if domains = [] then .error (.code Err.general)
                else if p.malloc (80 * domains.length) = false then .error (.code Err.memory)
                else do
                  let domain ← profileParseDomain p strong domains
                  .ok ⟨.strncpy category, indexes.length, index, domain⟩

def parseResources : Nat → List Value → Except Stop (List ProfileResource)
  | _, [] => .ok []
  | i, js :: rest => do
      let r ← parseResource p strong i js
      let rs ← parseResources (i + 1) rest
      .ok (r :: rs)

/-- `profile_parse`; the result are the resources of the capacity. -/
def profileParse (profile : CString) : Except Stop (List ProfileResource) :=
  match cJSONParse profile.val with
  | none => .error (.code Err.memory)
  | some root =>
      if textKeyword root "version" = none then .error (.code Err.paramInvalid)
      else
        match arrayKeyword root "resources" with
        | none => .error (.code Err.paramInvalid)
        | some resources =>
            if resources = [] then .error (.code Err.general)
            else if p.malloc (64 * resources.length) = false then .error (.code Err.memory)
            else parseResources p strong 0 resources

end Strong

/-! ## Successful parses -/

section Bind

variable {α β : Type} {x : Except Stop α} {f : α → Except Stop β}

theorem bind_eq_ok {b : β} : (x >>= f) = .ok b ↔ ∃ a, x = .ok a ∧ f a = .ok b := by
  cases x with
  | error e => simp [bind, Except.bind]
  | ok a => simp [bind, Except.bind]

theorem bind_eq_error {e : Stop} :
    (x >>= f) = .error e ↔ x = .error e ∨ ∃ a, x = .ok a ∧ f a = .error e := by
  cases x with
  | error e' => simp [bind, Except.bind]
  | ok a => simp [bind, Except.bind]

theorem forall₂_of_mapM {items : List α} {out : List β} (h : items.mapM f = .ok out) :
    List.Forall₂ (fun a b => f a = .ok b) items out := by
  induction items generalizing out with
  | nil =>
      cases h
      exact .nil
  | cons a items ih =>
      rw [List.mapM_cons, bind_eq_ok] at h
      obtain ⟨b, hb, h⟩ := h
      obtain ⟨bs, hbs, h⟩ := bind_eq_ok.mp h
      cases h
      exact .cons hb (ih hbs)

theorem mem_of_mapM_error {items : List α} {e : Stop} (h : items.mapM f = .error e) :
    ∃ a ∈ items, f a = .error e := by
  induction items with
  | nil => cases h
  | cons a items ih =>
      rw [List.mapM_cons, bind_eq_error] at h
      rcases h with h | ⟨b, -, h⟩
      · exact ⟨a, List.mem_cons_self, h⟩
      · rcases bind_eq_error.mp h with h | ⟨bs, -, h⟩
        · obtain ⟨a', hmem, ha'⟩ := ih h
          exact ⟨a', List.mem_cons_of_mem a hmem, ha'⟩
        · cases h

end Bind

section Parsed

variable {p : Platform} {strong : Bool}

theorem forall₂_of_parseElements {α : Type} {size : Nat} {parse : Value → Except Stop α}
    {js : Value} {name : String} {out : List α} (h : parseElements p size parse js name = .ok out) :
    List.Forall₂ (fun v a => parse v = .ok a) ((arrayKeyword js name).getD []) out := by
  unfold parseElements at h
  cases hitems : arrayKeyword js name with
  | none =>
      rw [hitems] at h
      cases h
      exact .nil
  | some items =>
      rw [hitems] at h
      dsimp only at h
      split at h
      · next hnil =>
          cases h
          rw [hnil]
          exact .nil
      · split at h
        · exact forall₂_of_mapM h
        · cases h

theorem identifier_of_parseProp {v : Value} {k : DomainProp} (h : parseProp p strong v = .ok k) :
    ∃ s, textKeyword v "identifier" = some s ∧ k.identifier = .strncpy s := by
  cases v with
  | object members =>
      rw [parseProp] at h
      split at h
      · cases h
      · next identifier hident =>
          split at h
          · cases h
          · obtain ⟨desc, -, h⟩ := bind_eq_ok.mp h
            cases h
            exact ⟨identifier, hident, rfl⟩
  | null | bool | number | string | array => cases h

theorem identifier_of_parseEvent {v : Value} {k : DomainEvent}
    (h : parseEvent p strong v = .ok k) :
    ∃ s, textKeyword v "identifier" = some s ∧ k.identifier = .strncpy s := by
  cases v with
  | object members =>
      rw [parseEvent] at h
      split at h
      · cases h
      · next identifier hident =>
          split at h
          · obtain ⟨_, -, h⟩ := bind_eq_ok.mp h
            obtain ⟨_, -, h⟩ := bind_eq_ok.mp h
            obtain ⟨_, -, h⟩ := bind_eq_ok.mp h
            cases h
            exact ⟨identifier, hident, rfl⟩
          · cases h
            exact ⟨identifier, hident, rfl⟩
  | null | bool | number | string | array => cases h

theorem parseDomain_ok {members : List (Bytes × Value)} {d : RscDomain}
    (h : parseDomain p strong members = .ok d) :
    ∃ s, textKeyword (.object members) "identifier" = some s ∧ d.identifier = .strncpy s ∧
      List.Forall₂ (fun v k => parseProp p strong v = .ok k)
        ((arrayKeyword (.object members) "props").getD []) d.prop ∧
      List.Forall₂ (fun v k => parseEvent p strong v = .ok k)
        ((arrayKeyword (.object members) "events").getD []) d.event := by
  unfold parseDomain at h
  split at h
  · cases h
  · next identifier hident =>
      obtain ⟨props, hprops, h⟩ := bind_eq_ok.mp h
      obtain ⟨_, -, h⟩ := bind_eq_ok.mp h
      obtain ⟨events, hevents, h⟩ := bind_eq_ok.mp h
      cases h
      exact ⟨identifier, hident, rfl, forall₂_of_parseElements hprops,
        forall₂_of_parseElements hevents⟩

theorem forall₂_of_profileParseDomain {ds : List Value} {doms : List RscDomain}
    (hobject : ∀ d ∈ ds, ∃ members, d = .object members)
    (h : profileParseDomain p strong ds = .ok doms) :
    List.Forall₂ (fun d dom => ∃ members, d = .object members ∧
      parseDomain p strong members = .ok dom) ds doms := by
  induction ds generalizing doms with
  | nil =>
      cases h
      exact .nil
  | cons d ds ih =>
      obtain ⟨members, rfl⟩ := hobject d List.mem_cons_self
      obtain ⟨dom, hdom, h⟩ := bind_eq_ok.mp h
      obtain ⟨rest, hrest, h⟩ := bind_eq_ok.mp h
      cases h
      exact .cons ⟨members, rfl, hdom⟩
        (ih (fun d hd => hobject d (List.mem_cons_of_mem _ hd)) hrest)

/-- What a parsed resource holds. -/
structure ParsedResource (p : Platform) (strong : Bool) (i : Nat) (js : Value) (r : ProfileResource)
    (category : CString) (indexes domains : List Value) : Prop where
  category_eq : textKeyword js "resourceCategory" = some category
  stored : r.rscCategory = .strncpy category
  indexes_eq : arrayKeyword js "localIndex" = some indexes
  some_index : indexes ≠ []
  indexNum : r.indexNum = indexes.length
  packed : storeIndexes i indexes (List.replicate (maxLocalIndexLength * indexes.length) 0) =
    .ok r.index
  domains_eq : arrayKeyword js "domains" = some domains
  parsed : profileParseDomain p strong domains = .ok r.domain

theorem parseResource_ok {i : Nat} {js : Value} {r : ProfileResource}
    (h : parseResource p strong i js = .ok r) :
    ∃ category indexes domains, ParsedResource p strong i js r category indexes domains := by
  unfold parseResource at h
  split at h
  · cases h
  · next category hcategory =>
      split at h
      · cases h
      · next indexes hindexes =>
          split at h
          · cases h
          · next hne =>
              split at h
              · cases h
              · obtain ⟨index, hindex, h⟩ := bind_eq_ok.mp h
                split at h
                · cases h
                · next domains hdomains =>
                    split at h
                    · cases h
                    · split at h
                      · cases h
                      · obtain ⟨domain, hdomain, h⟩ := bind_eq_ok.mp h
                        cases h
                        exact ⟨category, indexes, domains, hcategory, rfl, hindexes, hne, rfl,
                          hindex, hdomains, hdomain⟩

/-- Every resource is parsed at its position. -/
theorem forall₂_of_parseResources {i : Nat} {items : List Value} {rs : List ProfileResource}
    (h : parseResources p strong i items = .ok rs) :
    List.Forall₂ (fun x r => parseResource p strong x.2 x.1 = .ok r) (items.zipIdx i) rs := by
  induction items generalizing i rs with
  | nil =>
      cases h
      exact .nil
  | cons js items ih =>
      obtain ⟨r, hr, h⟩ := bind_eq_ok.mp h
      obtain ⟨rs, hrs, h⟩ := bind_eq_ok.mp h
      cases h
      rw [List.zipIdx_cons]
      exact .cons hr (ih hrs)

end Parsed

/-! ## Failed parses -/

/-- An error code, or a conversion that C leaves open. -/
def Stop.IsError : Stop → Prop
  | .code rv => rv ≠ Err.succ
  | .conversion => True
  | .overrun => False

/-- Where a part fails, it says why, and it writes nothing outside of a buffer. -/
def FailsProperly {α : Type} (x : Except Stop α) : Prop := ∀ e, x = .error e → e.IsError

section Fails

variable {α β : Type} {x : Except Stop α} {f : α → Except Stop β}

theorem FailsProperly.ok (a : α) : FailsProperly (.ok a) := fun _ h => by cases h

theorem FailsProperly.error {e : Stop} (h : e.IsError) : FailsProperly (.error e : Except Stop α) :=
  fun _ heq => by
    cases heq
    exact h

theorem FailsProperly.code {rv : Nat} (h : rv ≠ Err.succ) :
    FailsProperly (.error (.code rv) : Except Stop α) := .error h

theorem FailsProperly.bind (hx : FailsProperly x) (hf : ∀ a, FailsProperly (f a)) :
    FailsProperly (x >>= f) := by
  intro e h
  rcases bind_eq_error.mp h with h | ⟨a, -, h⟩
  · exact hx e h
  · exact hf a e h

theorem FailsProperly.mapM (hf : ∀ a, FailsProperly (f a)) (items : List α) :
    FailsProperly (items.mapM f) := by
  intro e h
  obtain ⟨a, -, ha⟩ := mem_of_mapM_error h
  exact hf a e ha

end Fails

section Overrun

variable {p : Platform} {strong : Bool}

theorem parseSchemaKeyword_fails {absent : Nat} (h : absent ≠ Err.succ) (js : Value) :
    FailsProperly (parseSchemaKeyword p absent js) := by
  unfold parseSchemaKeyword
  split
  · split
    · exact .error trivial
    · split
      next hrv => exact .code hrv
      next => exact .ok _
  · exact .code h

theorem parseDirection_fails {absent : Nat} (h : absent ≠ Err.succ) (js : Value) (name : String) :
    FailsProperly (parseDirection p absent js name) := by
  unfold parseDirection
  split
  · exact parseSchemaKeyword_fails h _
  · exact .ok _

theorem parsePropDesc_fails (js : Value) : FailsProperly (parsePropDesc p strong js) := by
  unfold parsePropDesc
  split
  · exact parseSchemaKeyword_fails (by decide) _
  · exact .ok _

theorem parseProp_fails (v : Value) : FailsProperly (parseProp p strong v) := by
  cases v with
  | object members =>
      rw [parseProp]
      split
      · exact .code (by decide)
      · split
        · exact .code (by decide)
        · exact (parsePropDesc_fails _).bind fun _ => .ok _
  | null | bool | number | string | array => exact .code (by decide)

theorem parseAction_fails (v : Value) : FailsProperly (parseAction p strong v) := by
  cases v with
  | object members =>
      rw [parseAction]
      split
      · exact .code (by decide)
      · split
        · split
          · exact .code (by decide)
          · exact (parseDirection_fails (by decide) _ _).bind fun _ =>
              (parseDirection_fails (by decide) _ _).bind fun _ => .ok _
        · exact .ok _
  | null | bool | number | string | array => exact .code (by decide)

theorem parseEventType_fails (js : Value) : FailsProperly (parseEventType p js) := by
  unfold parseEventType
  split
  · exact .code (by decide)
  · split
    · exact .ok _
    · exact .code (by decide)

theorem parseEvent_fails (v : Value) : FailsProperly (parseEvent p strong v) := by
  cases v with
  | object members =>
      rw [parseEvent]
      split
      · exact .code (by decide)
      · split
        · exact (parseEventType_fails _).bind fun _ =>
            (parseDirection_fails (by decide) _ _).bind fun _ =>
              (parseDirection_fails (by decide) _ _).bind fun _ => .ok _
        · exact .ok _
  | null | bool | number | string | array => exact .code (by decide)

theorem parseElements_fails {α : Type} {parse : Value → Except Stop α}
    (h : ∀ v, FailsProperly (parse v)) (size : Nat) (js : Value) (name : String) :
    FailsProperly (parseElements p size parse js name) := by
  unfold parseElements
  split
  · exact .ok _
  · split
    · exact .ok _
    · split
      · exact .mapM h _
      · exact .code (by decide)

theorem parseDomain_fails (members : List (Bytes × Value)) :
    FailsProperly (parseDomain p strong members) := by
  unfold parseDomain
  split
  · exact .code (by decide)
  · exact (parseElements_fails parseProp_fails _ _ _).bind fun _ =>
      (parseElements_fails parseAction_fails _ _ _).bind fun _ =>
        (parseElements_fails parseEvent_fails _ _ _).bind fun _ => .ok _

theorem profileParseDomain_fails (ds : List Value) :
    FailsProperly (profileParseDomain p strong ds) := by
  induction ds with
  | nil => exact .ok _
  | cons d ds ih =>
      cases d with
      | object members => exact (parseDomain_fails members).bind fun _ => ih.bind fun _ => .ok _
      | null | bool | number | string | array => exact .ok _

theorem storeIndexes_fails {i : Nat} {items : List Value} {buf : Bytes} {e : Stop}
    (h : storeIndexes i items buf = .error e) : e = .overrun := by
  induction items generalizing buf with
  | nil => cases h
  | cons v items ih =>
      cases v with
      | string s =>
          rw [storeIndexes] at h
          split at h
          · cases h
            rfl
          · exact ih h
      | null | bool | number | array | object => cases h

/-- A resource fails properly, but for its local indexes. -/
theorem parseResource_fails {i : Nat} {js : Value} {e : Stop}
    (h : parseResource p strong i js = .error e) :
    e.IsError ∨ e = .overrun ∧ ∃ indexes, arrayKeyword js "localIndex" = some indexes ∧
      storeIndexes i indexes (List.replicate (maxLocalIndexLength * indexes.length) 0) =
        .error .overrun := by
  unfold parseResource at h
  split at h
  · exact .inl (FailsProperly.code (by decide) e h)
  · split at h
    · exact .inl (FailsProperly.code (by decide) e h)
    · next indexes hindexes =>
        split at h
        · exact .inl (FailsProperly.code (by decide) e h)
        · split at h
          · exact .inl (FailsProperly.code (by decide) e h)
          · rcases bind_eq_error.mp h with h | ⟨index, -, h⟩
            · obtain rfl := storeIndexes_fails h
              exact .inr ⟨rfl, indexes, hindexes, h⟩
            · left
              split at h
              · exact FailsProperly.code (by decide) e h
              · split at h
                · exact FailsProperly.code (by decide) e h
                · split at h
                  · exact FailsProperly.code (by decide) e h
                  · exact (profileParseDomain_fails _).bind (fun _ => .ok _) e h

/-- Only the local indexes are written outside of their buffer. -/
theorem parseResource_overrun {i : Nat} {js : Value}
    (h : parseResource p strong i js = .error .overrun) :
    ∃ indexes, arrayKeyword js "localIndex" = some indexes ∧
      storeIndexes i indexes (List.replicate (maxLocalIndexLength * indexes.length) 0) =
        .error .overrun := by
  rcases parseResource_fails h with herror | ⟨-, hindexes⟩
  · exact herror.elim
  · exact hindexes

/-- Where the resources fail, one of them does. -/
theorem parseResources_fails {i : Nat} {items : List Value} {e : Stop}
    (h : parseResources p strong i items = .error e) :
    ∃ x ∈ items.zipIdx i, parseResource p strong x.2 x.1 = .error e := by
  induction items generalizing i with
  | nil => cases h
  | cons js items ih =>
      rw [List.zipIdx_cons]
      rcases bind_eq_error.mp h with h | ⟨_, -, h⟩
      · exact ⟨(js, i), List.mem_cons_self, h⟩
      · rcases bind_eq_error.mp h with h | ⟨_, -, h⟩
        · obtain ⟨x, hx, hfail⟩ := ih h
          exact ⟨x, List.mem_cons_of_mem _ hx, hfail⟩
        · cases h

theorem profileParse_nil : profileParse p strong (.ofMem []) = .error (.code Err.memory) := by
  have hparse : cJSONParse (CString.ofMem []).val = none := by decide
  rw [profileParse, hparse]

/-- A profile that is not parsed is not registered as if it were. -/
theorem profileParse_ne_succ {profile : CString} :
    profileParse p strong profile ≠ .error (.code Err.succ) := by
  intro h
  unfold profileParse at h
  split at h
  · cases h
  · split at h
    · cases h
    · split at h
      · cases h
      · split at h
        · cases h
        · split at h
          · cases h
          · obtain ⟨x, -, hx⟩ := parseResources_fails h
            rcases parseResource_fails hx with herror | ⟨hover, -⟩
            · exact herror rfl
            · cases hover

end Overrun

/-! ## The buffer of the local indexes -/

section Buffer

variable {i : Nat} {items : List Value} {buf out : Bytes}

theorem length_padded (s : CString) : (padded s).length = 7 := by
  unfold padded CString.length
  rw [List.length_append, List.length_take, List.length_replicate]
  omega

/-- The text of a stored index, whatever follows its terminator. -/
theorem cstr_padded {s : CString} (h : s.length ≤ 7) (rest : Bytes) :
    cstr (padded s ++ 0 :: rest) = s.val := by
  have htake : s.val.take 7 = s.val := List.take_of_length_le h
  have hzeros : cstr (List.replicate (7 - s.length) 0 ++ 0 :: rest) = [] := by
    cases 7 - s.length with
    | zero => rfl
    | succ n => rfl
  rw [padded, htake, List.append_assoc, cstr_append_of_no_zero s.noNul, hzeros, List.append_nil]

theorem cstr_zeros (n : Nat) : cstr (List.replicate n 0) = [] := by
  cases n with
  | zero => rfl
  | succ n => rfl

theorem storeIndexes_cons {s : Bytes} :
    storeIndexes i (.string s :: items) buf = .ok out ↔
      ∃ buf', memcpy buf i (padded (.ofMem s)) = some buf' ∧ storeIndexes i items buf' = .ok out := by
  rw [storeIndexes]
  cases memcpy buf i (padded (.ofMem s)) with
  | none => simp
  | some buf' => simp

theorem room_of_storeIndexes {s : Bytes} (h : storeIndexes i (.string s :: items) buf = .ok out) :
    i + 7 ≤ buf.length := by
  obtain ⟨buf', hcopy, -⟩ := storeIndexes_cons.mp h
  have hfits := (memcpy_eq_some_iff.mp hcopy).1
  rwa [length_padded] at hfits

theorem storeIndexes_overrun (h : storeIndexes i items buf = .error .overrun) :
    buf.length < i + 7 := by
  induction items generalizing buf with
  | nil => cases h
  | cons v items ih =>
      cases v with
      | string s =>
          rw [storeIndexes] at h
          split at h
          · next hcopy =>
              by_contra hroom
              have hfits : i + (padded (.ofMem s)).length ≤ buf.length := by
                rw [length_padded]
                omega
              rw [memcpy, if_pos hfits] at hcopy
              cases hcopy
          · next buf' hcopy =>
              rw [← length_of_memcpy hcopy]
              exact ih h
      | null | bool | number | array | object => cases h

/-- Behind the first resource the front of the buffer stays zero. -/
theorem front_of_storeIndexes (hi : 0 < i) (h : storeIndexes i items buf = .ok out) :
    out[0]? = buf[0]? := by
  induction items generalizing buf with
  | nil =>
      cases h
      rfl
  | cons v items ih =>
      cases v with
      | string s =>
          obtain ⟨buf', hcopy, h⟩ := storeIndexes_cons.mp h
          rw [ih h, getElem?_of_memcpy hcopy hi]
      | null | bool | number | array | object =>
          cases h
          rfl

/-- In the first resource one of the texts stays at the front. -/
theorem first_of_storeIndexes {w rest : Bytes} (hw : w.length = 7)
    (hstring : ∀ v ∈ items, ∃ s, v = .string s) (h : storeIndexes 0 items (w ++ rest) = .ok out) :
    (items = [] ∧ out = w ++ rest) ∨
      ∃ s, .string s ∈ items ∧ out = padded (.ofMem s) ++ rest := by
  induction items generalizing w with
  | nil =>
      cases h
      exact .inl ⟨rfl, rfl⟩
  | cons v items ih =>
      obtain ⟨s, rfl⟩ := hstring v List.mem_cons_self
      obtain ⟨buf', hcopy, h⟩ := storeIndexes_cons.mp h
      have hlen : (padded (.ofMem s)).length = w.length := by rw [length_padded, hw]
      have hover : memcpy ([] ++ (w ++ rest)) 0 (padded (.ofMem s)) =
          some ([] ++ (padded (.ofMem s) ++ rest)) := memcpy_append rfl hlen rest
      rw [List.nil_append, List.nil_append, hcopy] at hover
      cases hover
      refine .inr ?_
      rcases ih (length_padded _) (fun v hv => hstring v (List.mem_cons_of_mem _ hv)) h with
        ⟨-, hout⟩ | ⟨s', hmem, hout⟩
      · exact ⟨s, List.mem_cons_self, hout⟩
      · exact ⟨s', List.mem_cons_of_mem _ hmem, hout⟩

/-- Empty texts leave the buffer zero. -/
theorem zeros_of_storeIndexes {n : Nat}
    (hempty : ∀ s, .string s ∈ items → (CString.ofMem s).val = [])
    (h : storeIndexes i items (List.replicate n 0) = .ok out) : out = List.replicate n 0 := by
  induction items with
  | nil =>
      cases h
      rfl
  | cons v items ih =>
      have hrest : ∀ s, .string s ∈ items → (CString.ofMem s).val = [] :=
        fun s hs => hempty s (List.mem_cons_of_mem _ hs)
      cases v with
      | string s =>
          obtain ⟨buf', hcopy, h⟩ := storeIndexes_cons.mp h
          have hzero : padded (.ofMem s) = List.replicate 7 0 := by
            simp [padded, CString.length, hempty s List.mem_cons_self]
          obtain ⟨hfits, hbuf⟩ := memcpy_eq_some_iff.mp hcopy
          rw [hzero, List.length_replicate, List.length_replicate] at hfits
          have hsame : buf' = List.replicate n 0 := by
            rw [hbuf, hzero, List.take_replicate, List.drop_replicate, List.replicate_append_replicate,
              List.replicate_append_replicate, List.length_replicate]
            congr 1
            omega
          rw [hsame] at h
          exact ih hrest h
      | null | bool | number | array | object =>
          cases h
          rfl

end Buffer

end EzIot.Tsl
