import EzIot.Lib.Aligned
import EzIot.Shadow.Registry
import EzIot.Tsl.Check
import EzIot.Tsl.Profile

/-! # Looking up what a profile declares

The checks of the application's calls walk from the resource over its local index and
domain to a key, and the shadow is given every key of the tree. Both read the local
indexes from the buffer that the parser has filled.
-/

namespace EzIot.Tsl

open CText CJson Shadow

/-! ## The lookups -/

section Check

variable {κ : Type} (p : Platform) (strong : Bool)

/-- The common walk of the two checks over a capacity; `keys` are the keys of a domain. -/
def legalityCheck (keys : RscDomain → List κ) (identifier : κ → CField 32) (desc : κ → SchemaDesc)
    (capacity : Option Capacity) (resType localIndex domain key : CString)
    (value : Option TslValue) : Option Nat :=
  match capacity with
  | none => some Err.devNotFound
  | some c =>
      match c.resource.find? fun r => r.rscCategory.toCString = resType with
      | none => some Err.devNotFound
      | some r =>
          -- every round of the loop reads the front of the buffer
          match (List.range r.indexNum).find? fun _ => localIndex = .ofMem r.index with
          | none => some Err.indexNotFound
          | some _ =>
              match r.domain.find? fun d => d.identifier.toCString = domain with
              | none => some Err.domainNotFound
              | some d =>
                  match (keys d).find? fun k => (identifier k).toCString = key with
                  | none => some Err.keyNotFound
                  | some k =>
                      match value with
                      | none => some Err.succ
                      | some v => if strong then checkSchemaValue p (desc k) v else some Err.succ

/-- `tsl_legality_property_check` with the capacity of the device. -/
def tslLegalityPropertyCheck : Option Capacity → CString → CString → CString → CString →
    Option TslValue → Option Nat :=
  legalityCheck p strong RscDomain.prop DomainProp.identifier DomainProp.propDesc

/-- `tsl_legality_event_check` with the capacity of the device. -/
def tslLegalityEventCheck : Option Capacity → CString → CString → CString → CString →
    Option TslValue → Option Nat :=
  legalityCheck p strong RscDomain.event DomainEvent.identifier DomainEvent.inputSchema

end Check

/-- The number of the `j`-th local index as `tsl_adapter_shadow_inst` reads it. -/
def ProfileResource.localIndex (r : ProfileResource) (j : Nat) : Int16 :=
  Int16.ofInt (atoi (cstr (r.index.drop (maxLocalIndexLength * j))))

/-- The calls that `tsl_adapter_shadow_inst` makes, with the numbers of its two
callbacks. A call that fails does not keep it from the next one. -/
def tslAdapterShadowInst (business2cloud business2dev : Callback) (devSn : CString)
    (capacity : Option Capacity) : List Call :=
  match capacity with
  | none => []
  | some c =>
      c.resource.flatMap fun r =>
        (List.range r.indexNum).flatMap fun j =>
          r.domain.flatMap fun d =>
            d.prop.map fun prop =>
              .reg ⟨.strncpy devSn, .strncpy r.rscCategory.toCString, r.localIndex j⟩
                d.identifier.toCString
                [⟨.strncpy prop.identifier.toCString,
                  if prop.accessWrite then some business2dev else none,
                  if prop.accessRead then some business2cloud else none⟩]

/-! ## What a profile declares -/

/-- The resource lists a local index. -/
def ListsIndex (r : Value) (index : CString) : Prop :=
  ∃ items, arrayKeyword r "localIndex" = some items ∧
    ∃ s, .string s ∈ items ∧ CString.ofMem s = index

/-- The resource has a domain with a key in the array of that name. -/
def DeclaresKey (keys : String) (r : Value) (domain key : CString) : Prop :=
  ∃ domains, arrayKeyword r "domains" = some domains ∧
    ∃ d ∈ domains, textKeyword d "identifier" = some domain ∧
      ∃ items, arrayKeyword d keys = some items ∧
        ∃ k ∈ items, textKeyword k "identifier" = some key

/-- The resources of a profile. -/
def resourcesOf (profile : CString) : List Value :=
  ((cJSONParse profile.val).bind fun root => arrayKeyword root "resources").getD []

/-- The profile declares a resource with that category, local index, domain and key. -/
def Declares (keys : String) (profile category index domain key : CString) : Prop :=
  ∃ r ∈ resourcesOf profile, textKeyword r "resourceCategory" = some category ∧
    ListsIndex r index ∧ DeclaresKey keys r domain key

/-- One of the calls registers the key under these names. -/
def Registers (calls : List Call) (category : CString) (index : Int) (domain key : CString) :
    Prop :=
  ∃ res b, Call.reg res domain [b] ∈ calls ∧ res.resType.toCString = category ∧
    res.localIndex.toInt = index ∧ b.key.toCString = key

/-- What the lookups find in a capacity is what the profile declares. -/
structure LookupExact (p : Platform) (strong : Bool) (business2cloud business2dev : Callback)
    (profile devSn : CString) (c : Capacity) : Prop where
  property : ∀ category index domain key,
    tslLegalityPropertyCheck p strong (some c) category index domain key none = some Err.succ ↔
      Declares "props" profile category index domain key
  event : ∀ category index domain key,
    tslLegalityEventCheck p strong (some c) category index domain key none = some Err.succ ↔
      Declares "events" profile category index domain key
  shadow : ∀ category n domain key,
    Registers (tslAdapterShadowInst business2cloud business2dev devSn (some c)) category n domain
        key ↔
      ∃ index, atoi index.val = n ∧ Declares "props" profile category index domain key

/-- The names of a profile have the lengths of the fields that they are stored in. -/
structure NamesFit (profile : CString) : Prop where
  category : ∀ r ∈ resourcesOf profile, ∀ s, textKeyword r "resourceCategory" = some s →
    s.length ≤ 31
  index : ∀ r ∈ resourcesOf profile, ∀ s, ListsIndex r s → s.length ≤ 7
  domain : ∀ r ∈ resourcesOf profile, ∀ domains, arrayKeyword r "domains" = some domains →
    ∀ d ∈ domains, ∀ s, textKeyword d "identifier" = some s → s.length ≤ 31
  key : ∀ r ∈ resourcesOf profile, ∀ keys, keys = "props" ∨ keys = "events" →
    ∀ domain s, DeclaresKey keys r domain s → s.length ≤ 31

/-- Nothing of a profile is named twice on one level, and the arrays of local indexes
and domains hold nothing else. -/
structure PlainProfile (profile : CString) : Prop where
  categories : (resourcesOf profile).Pairwise fun r r' => ∀ s,
    textKeyword r "resourceCategory" = some s → textKeyword r' "resourceCategory" ≠ some s
  indexes : ∀ r ∈ resourcesOf profile, ∀ items, arrayKeyword r "localIndex" = some items →
    ∀ v ∈ items, ∃ s, v = .string s
  domains : ∀ r ∈ resourcesOf profile, ∀ ds, arrayKeyword r "domains" = some ds →
    (∀ d ∈ ds, ∃ members, d = .object members) ∧
      ds.Pairwise fun d d' => ∀ s, textKeyword d "identifier" = some s →
        textKeyword d' "identifier" ≠ some s

/-- How many local indexes a resource lists. -/
def indexCount (r : Value) : Nat := ((arrayKeyword r "localIndex").getD []).length

/-- What the packing of the local indexes does not spoil: the buffer of a resource has
room for a text at the position of the resource. Whoever declares a key lists one
local index only, which is empty behind the first resource; for a property it is an
`ez_int16_t`, and zero if it is listed more than once. -/
structure PackedRight (profile : CString) : Prop where
  room : ∀ i r, (resourcesOf profile)[i]? = some r → i + 7 ≤ maxLocalIndexLength * indexCount r
  single : ∀ i r, (resourcesOf profile)[i]? = some r →
    (∃ keys domain key, (keys = "props" ∨ keys = "events") ∧ DeclaresKey keys r domain key) →
    ∀ s, ListsIndex r s → (i = 0 ∨ s.val = []) ∧ ∀ s', ListsIndex r s' → s = s'
  number : ∀ r ∈ resourcesOf profile, (∃ domain key, DeclaresKey "props" r domain key) →
    ∀ s, ListsIndex r s → (Int16.ofInt (atoi s.val)).toInt = atoi s.val ∧
      (1 < indexCount r → atoi s.val = 0)

/-! ## The tree follows the profile -/

section Tree

variable {p : Platform} {strong : Bool} {profile : CString} {rs : List ProfileResource}

theorem parseResources_of_profileParse (h : profileParse p strong profile = .ok rs) :
    parseResources p strong 0 (resourcesOf profile) = .ok rs := by
  unfold profileParse at h
  unfold resourcesOf
  split at h
  · cases h
  · next root hroot =>
      split at h
      · cases h
      · split at h
        · cases h
        · next items hitems =>
            split at h
            · cases h
            · split at h
              · cases h
              · simpa [hroot, hitems] using h

theorem parseResources_of_overrun (h : profileParse p strong profile = .error .overrun) :
    parseResources p strong 0 (resourcesOf profile) = .error .overrun := by
  unfold profileParse at h
  unfold resourcesOf
  split at h
  · cases h
  · next root hroot =>
      split at h
      · cases h
      · split at h
        · cases h
        · next items hitems =>
            split at h
            · cases h
            · split at h
              · cases h
              · simpa [hroot, hitems] using h

/-- The array of that name holds an element with the identifier. -/
def NamesKey (keys : String) (d : Value) (key : CString) : Prop :=
  ∃ items, arrayKeyword d keys = some items ∧ ∃ k ∈ items, textKeyword k "identifier" = some key

theorem namesKey_iff (keys : String) (d : Value) (key : CString) :
    NamesKey keys d key ↔
      ∃ k ∈ (arrayKeyword d keys).getD [], textKeyword k "identifier" = some key := by
  unfold NamesKey
  cases arrayKeyword d keys with
  | none => simp
  | some items => simp

theorem stored_eq_iff {stored : CField 32} {name key : CString} (hstored : stored = .strncpy name)
    (hfits : name.length ≤ 31) : stored.toCString = key ↔ some name = some key := by
  rw [hstored, CField.strncpy_of_fits hfits, Option.some.injEq]

/-- The keys of a parsed domain are those of the array that they come from. -/
theorem keys_iff {κ : Type} {identifier : κ → CField 32} {parse : Value → Except Stop κ}
    (hparse : ∀ v k, parse v = .ok k →
      ∃ s, textKeyword v "identifier" = some s ∧ identifier k = .strncpy s)
    {keys : String} {d : Value} {out : List κ}
    (h : List.Forall₂ (fun v k => parse v = .ok k) ((arrayKeyword d keys).getD []) out)
    (hfits : ∀ s, NamesKey keys d s → s.length ≤ 31) (key : CString) :
    (∃ k ∈ out, (identifier k).toCString = key) ↔ NamesKey keys d key := by
  rw [namesKey_iff]
  refine Aligned.exists_mem_iff h fun v hv k hk => ?_
  obtain ⟨s, hs, hstored⟩ := hparse v k hk
  rw [hs]
  exact stored_eq_iff hstored (hfits s ((namesKey_iff keys d s).mpr ⟨v, hv, hs⟩))

/-- The two kinds of keys: the array they come from, and how it is parsed. -/
structure KeyKind (p : Platform) (strong : Bool) {κ : Type} (keys : RscDomain → List κ)
    (identifier : κ → CField 32) (name : String) : Prop where
  kind : name = "props" ∨ name = "events"
  parsed : ∀ members d, parseDomain p strong members = .ok d →
    (∀ s, NamesKey name (.object members) s → s.length ≤ 31) → ∀ key,
      (∃ k ∈ keys d, (identifier k).toCString = key) ↔ NamesKey name (.object members) key

theorem propKind (p : Platform) (strong : Bool) :
    KeyKind p strong RscDomain.prop DomainProp.identifier "props" where
  kind := .inl rfl
  parsed := by
    intro members d h hfits key
    obtain ⟨_, -, -, hprops, -⟩ := parseDomain_ok h
    exact keys_iff (fun _ _ => identifier_of_parseProp) hprops hfits key

theorem eventKind (p : Platform) (strong : Bool) :
    KeyKind p strong RscDomain.event DomainEvent.identifier "events" where
  kind := .inr rfl
  parsed := by
    intro members d h hfits key
    obtain ⟨_, -, -, -, hevents⟩ := parseDomain_ok h
    exact keys_iff (fun _ _ => identifier_of_parseEvent) hevents hfits key

section Kind

variable {κ : Type} {keys : RscDomain → List κ} {identifier : κ → CField 32} {name : String}
  {js : Value} {r : ProfileResource} {category : CString} {indexes domains : List Value} {i : Nat}

theorem parseDomain_names (hkind : KeyKind p strong keys identifier name) (hfit : NamesFit profile)
    (hjs : js ∈ resourcesOf profile) (hdomains : arrayKeyword js "domains" = some domains)
    {members : List (Bytes × Value)} (hd : .object members ∈ domains) {dom : RscDomain}
    (hdom : parseDomain p strong members = .ok dom) :
    (∀ domain, dom.identifier.toCString = domain ↔
      textKeyword (.object members) "identifier" = some domain) ∧
    ∀ key, (∃ k ∈ keys dom, (identifier k).toCString = key) ↔
      NamesKey name (.object members) key := by
  obtain ⟨s, hs, hstored, -⟩ := parseDomain_ok hdom
  constructor
  · intro domain
    rw [hs]
    exact stored_eq_iff hstored (hfit.domain js hjs domains hdomains _ hd s hs)
  · exact hkind.parsed members dom hdom fun key hkey =>
      hfit.key js hjs name hkind.kind s key ⟨domains, hdomains, _, hd, hs, hkey⟩

theorem declaresKey_iff (hdomains : arrayKeyword js "domains" = some domains)
    (domain key : CString) : DeclaresKey name js domain key ↔
      ∃ d ∈ domains, textKeyword d "identifier" = some domain ∧ NamesKey name d key := by
  constructor
  · rintro ⟨domains', hdomains', hd⟩
    rw [hdomains] at hdomains'
    cases hdomains'
    exact hd
  · exact fun hd => ⟨domains, hdomains, hd⟩

/-- The first domain of that name is the only one. -/
theorem domain_find?_iff (hkind : KeyKind p strong keys identifier name) (hfit : NamesFit profile)
    (hplain : PlainProfile profile) (hjs : js ∈ resourcesOf profile)
    (hr : ParsedResource p strong i js r category indexes domains) (domain key : CString) :
    (∃ d, (r.domain.find? fun d => d.identifier.toCString = domain) = some d ∧
      ∃ k ∈ keys d, (identifier k).toCString = key) ↔ DeclaresKey name js domain key := by
  obtain ⟨hobject, hone⟩ := hplain.domains js hjs domains hr.domains_eq
  rw [declaresKey_iff hr.domains_eq]
  refine Aligned.exists_find?_iff (forall₂_of_profileParseDomain hobject hr.parsed) ?_ ?_
    (hone.imp fun h hN => h domain hN)
  · rintro d hd dom ⟨members, rfl, hdom⟩
    rw [decide_eq_true_iff]
    exact (parseDomain_names hkind hfit hjs hr.domains_eq hd hdom).1 domain
  · rintro d hd dom ⟨members, rfl, hdom⟩ _
    exact (parseDomain_names hkind hfit hjs hr.domains_eq hd hdom).2 key

theorem domain_mem_iff (hkind : KeyKind p strong keys identifier name) (hfit : NamesFit profile)
    (hplain : PlainProfile profile) (hjs : js ∈ resourcesOf profile)
    (hr : ParsedResource p strong i js r category indexes domains) (domain key : CString) :
    (∃ d ∈ r.domain, d.identifier.toCString = domain ∧
      ∃ k ∈ keys d, (identifier k).toCString = key) ↔ DeclaresKey name js domain key := by
  rw [declaresKey_iff hr.domains_eq]
  refine Aligned.exists_mem_iff (forall₂_of_profileParseDomain
    (hplain.domains js hjs domains hr.domains_eq).1 hr.parsed) ?_
  rintro d hd dom ⟨members, rfl, hdom⟩
  obtain ⟨hname, hkeys⟩ := parseDomain_names hkind hfit hjs hr.domains_eq hd hdom
  rw [hname domain, hkeys key]

/-- Every round of the loop over the local indexes compares the same. -/
theorem isSome_find?_range (n : Nat) (b : Bool) :
    ((List.range n).find? fun _ => b).isSome ↔ 0 < n ∧ b = true := by
  rw [List.find?_isSome]
  constructor
  · rintro ⟨k, hk, hb⟩
    exact ⟨Nat.zero_lt_of_lt (List.mem_range.mp hk), hb⟩
  · rintro ⟨hn, hb⟩
    exact ⟨0, List.mem_range.mpr hn, hb⟩

/-- The check without a value walks down to a key. -/
theorem legalityCheck_none_iff (desc : κ → SchemaDesc) (c : Capacity)
    (category index domain key : CString) :
    legalityCheck p strong keys identifier desc (some c) category index domain key none =
        some Err.succ ↔
      ∃ r, (c.resource.find? fun r => r.rscCategory.toCString = category) = some r ∧
        (0 < r.indexNum ∧ index = .ofMem r.index) ∧
        ∃ d, (r.domain.find? fun d => d.identifier.toCString = domain) = some d ∧
          ∃ k ∈ keys d, (identifier k).toCString = key := by
  unfold legalityCheck
  dsimp only
  cases c.resource.find? fun r => r.rscCategory.toCString = category with
  | none => simp [Err.devNotFound, Err.succ]
  | some r =>
      have hindex := isSome_find?_range r.indexNum (decide (index = .ofMem r.index))
      rw [decide_eq_true_iff] at hindex
      simp only [Option.some.injEq, exists_eq_left']
      rw [← hindex]
      cases (List.range r.indexNum).find? fun _ => decide (index = .ofMem r.index) with
      | none => simp [Err.indexNotFound, Err.succ]
      | some _ =>
          cases r.domain.find? fun d => d.identifier.toCString = domain with
          | none => simp [Err.domainNotFound, Err.succ]
          | some d =>
              have hkey : ((keys d).find? fun k => (identifier k).toCString = key).isSome ↔
                  ∃ k ∈ keys d, (identifier k).toCString = key := by
                rw [List.find?_isSome]
                simp only [decide_eq_true_eq]
              simp only [Option.isSome_some, true_and, Option.some.injEq, exists_eq_left']
              rw [← hkey]
              cases (keys d).find? fun k => (identifier k).toCString = key with
              | none => simp [Err.keyNotFound, Err.succ]
              | some k => simp

/-- What the check accepts: the declared keys under the text at the front of the buffer
of their resource. -/
theorem seen_iff (hkind : KeyKind p strong keys identifier name) (hfit : NamesFit profile)
    (hplain : PlainProfile profile) (hparse : profileParse p strong profile = .ok rs)
    (desc : κ → SchemaDesc) {c : Capacity} (hc : c.resource = rs)
    (category index domain key : CString) :
    legalityCheck p strong keys identifier desc (some c) category index domain key none =
        some Err.succ ↔
      ∃ x ∈ (resourcesOf profile).zipIdx, textKeyword x.1 "resourceCategory" = some category ∧
        DeclaresKey name x.1 domain key ∧
        ∃ r, parseResource p strong x.2 x.1 = .ok r ∧ index = .ofMem r.index := by
  have hmem : ∀ x ∈ (resourcesOf profile).zipIdx, x.1 ∈ resourcesOf profile :=
    fun x hx => List.mem_of_getElem? (List.mem_zipIdx_iff_getElem?.mp hx)
  have hone : (resourcesOf profile).zipIdx.Pairwise fun x x' =>
      textKeyword x.1 "resourceCategory" = some category →
        ¬ textKeyword x'.1 "resourceCategory" = some category := by
    have hpair := hplain.categories
    rw [← List.zipIdx_map_fst 0 (resourcesOf profile), List.pairwise_map] at hpair
    exact hpair.imp fun h => h category
  rw [legalityCheck_none_iff, hc]
  refine Aligned.exists_find?_iff
    (forall₂_of_parseResources (parseResources_of_profileParse hparse)) ?_ ?_ hone
  · intro x hx r hr
    obtain ⟨category', indexes, domains, hparsed⟩ := parseResource_ok hr
    rw [decide_eq_true_iff, hparsed.category_eq]
    exact stored_eq_iff hparsed.stored (hfit.category x.1 (hmem x hx) _ hparsed.category_eq)
  · intro x hx r hr _
    obtain ⟨category', indexes, domains, hparsed⟩ := parseResource_ok hr
    have hnum : 0 < r.indexNum := by
      rw [hparsed.indexNum]
      exact List.length_pos_iff.mpr hparsed.some_index
    rw [domain_find?_iff hkind hfit hplain (hmem x hx) hparsed, and_iff_right hnum, and_comm, hr]
    simp

end Kind

/-- What the shadow is given: the declared properties under every number that is read
from the buffer of their resource. -/
theorem registers_iff (hfit : NamesFit profile) (hplain : PlainProfile profile)
    (hparse : profileParse p strong profile = .ok rs) (business2cloud business2dev : Callback)
    (devSn : CString) {c : Capacity} (hc : c.resource = rs) (category : CString) (n : Int)
    (domain key : CString) :
    Registers (tslAdapterShadowInst business2cloud business2dev devSn (some c)) category n domain
        key ↔
      ∃ x ∈ (resourcesOf profile).zipIdx, textKeyword x.1 "resourceCategory" = some category ∧
        DeclaresKey "props" x.1 domain key ∧
        ∃ r, parseResource p strong x.2 x.1 = .ok r ∧
          ∃ j < r.indexNum, (r.localIndex j).toInt = n := by
  have hcalls : Registers (tslAdapterShadowInst business2cloud business2dev devSn (some c))
      category n domain key ↔ ∃ r ∈ c.resource, r.rscCategory.toCString = category ∧
        (∃ d ∈ r.domain, d.identifier.toCString = domain ∧
          ∃ k ∈ d.prop, k.identifier.toCString = key) ∧
        ∃ j < r.indexNum, (r.localIndex j).toInt = n := by
    unfold Registers tslAdapterShadowInst
    simp only [List.mem_flatMap, List.mem_map, List.mem_range]
    constructor
    · rintro ⟨res, b, ⟨r, hr, j, hj, d, hd, k, hk, hcall⟩, rfl, rfl, rfl⟩
      obtain ⟨hres, hdomain, hb⟩ := Call.reg.inj hcall
      rw [List.cons.injEq] at hb
      rw [← hres, ← hb.1, ← hdomain, CField.strncpy_toCString, CField.strncpy_toCString]
      exact ⟨r, hr, rfl, ⟨d, hd, rfl, k, hk, rfl⟩, j, hj, rfl⟩
    · rintro ⟨r, hr, rfl, ⟨d, hd, rfl, k, hk, rfl⟩, j, hj, rfl⟩
      exact ⟨_, _, ⟨r, hr, j, hj, d, hd, k, hk, rfl⟩, by rw [CField.strncpy_toCString], rfl,
        by rw [CField.strncpy_toCString]⟩
  rw [hcalls, hc]
  refine Aligned.exists_mem_iff
    (forall₂_of_parseResources (parseResources_of_profileParse hparse)) fun x hx r hr => ?_
  have hmem : x.1 ∈ resourcesOf profile :=
    List.mem_of_getElem? (List.mem_zipIdx_iff_getElem?.mp hx)
  obtain ⟨category', indexes, domains, hparsed⟩ := parseResource_ok hr
  rw [domain_mem_iff (propKind p strong) hfit hplain hmem hparsed, hparsed.category_eq,
    stored_eq_iff hparsed.stored (hfit.category x.1 hmem _ hparsed.category_eq), hr]
  simp

end Tree

/-! ## What is read from the buffer -/

section Packed

variable {p : Platform} {strong : Bool} {profile category : CString} {js : Value}
  {r : ProfileResource} {indexes domains : List Value} {i : Nat}

theorem listsIndex_iff (hr : ParsedResource p strong i js r category indexes domains) (s : CString) :
    ListsIndex js s ↔ ∃ t, .string t ∈ indexes ∧ CString.ofMem t = s := by
  unfold ListsIndex
  rw [hr.indexes_eq]
  simp

theorem exists_listsIndex (hplain : PlainProfile profile) (hjs : js ∈ resourcesOf profile)
    (hr : ParsedResource p strong i js r category indexes domains) : ∃ s, ListsIndex js s := by
  obtain ⟨v, hv⟩ := List.exists_mem_of_ne_nil indexes hr.some_index
  obtain ⟨t, rfl⟩ := hplain.indexes js hjs indexes hr.indexes_eq v hv
  exact ⟨.ofMem t, (listsIndex_iff hr _).mpr ⟨t, hv, rfl⟩⟩

theorem room_of_parsed (hplain : PlainProfile profile) (hjs : js ∈ resourcesOf profile)
    (hr : ParsedResource p strong i js r category indexes domains) :
    i + 7 ≤ maxLocalIndexLength * indexes.length := by
  have hpacked := hr.packed
  cases indexes with
  | nil => exact absurd rfl hr.some_index
  | cons v rest =>
      obtain ⟨t, rfl⟩ := hplain.indexes js hjs _ hr.indexes_eq v List.mem_cons_self
      have hroom := room_of_storeIndexes hpacked
      rwa [List.length_replicate] at hroom

/-- In the first resource a listed text stands at the front, and zeros follow it. -/
theorem index_of_first (hplain : PlainProfile profile) (hjs : js ∈ resourcesOf profile)
    (hr : ParsedResource p strong 0 js r category indexes domains) :
    ∃ s, ListsIndex js s ∧
      r.index = padded s ++ List.replicate (maxLocalIndexLength * indexes.length - 7) 0 := by
  have hroom := room_of_parsed hplain hjs hr
  have hsplit : List.replicate (maxLocalIndexLength * indexes.length) (0 : UInt8) =
      List.replicate 7 0 ++ List.replicate (maxLocalIndexLength * indexes.length - 7) 0 := by
    rw [List.replicate_append_replicate]
    congr 1
    omega
  have hpacked := hr.packed
  rw [hsplit] at hpacked
  rcases first_of_storeIndexes List.length_replicate
    (hplain.indexes js hjs indexes hr.indexes_eq) hpacked with ⟨hnil, -⟩ | ⟨t, ht, hindex⟩
  · exact absurd hnil hr.some_index
  · exact ⟨.ofMem t, (listsIndex_iff hr _).mpr ⟨t, ht, rfl⟩, hindex⟩

/-- The text that the checks compare with. -/
theorem front_cases (hfit : NamesFit profile) (hplain : PlainProfile profile)
    (hjs : js ∈ resourcesOf profile) (hr : ParsedResource p strong i js r category indexes domains) :
    (i = 0 ∧ ListsIndex js (.ofMem r.index)) ∨ (0 < i ∧ (CString.ofMem r.index).val = []) := by
  have hlen : 0 < indexes.length := List.length_pos_iff.mpr hr.some_index
  rcases Nat.eq_zero_or_pos i with rfl | hi
  · obtain ⟨s, hs, hindex⟩ := index_of_first hplain hjs hr
    refine .inl ⟨rfl, ?_⟩
    have hzero : maxLocalIndexLength * indexes.length - 7 =
        (maxLocalIndexLength * indexes.length - 8) + 1 := by
      unfold maxLocalIndexLength
      omega
    have hfront : CString.ofMem r.index = s := by
      rw [hindex, hzero, List.replicate_succ]
      exact CString.ext (cstr_padded (hfit.index js hjs s hs) _)
    rwa [hfront]
  · refine .inr ⟨hi, ?_⟩
    have hfront := front_of_storeIndexes hi hr.packed
    have hpos : 0 < maxLocalIndexLength * indexes.length := by
      unfold maxLocalIndexLength
      omega
    rw [List.getElem?_replicate_of_lt hpos] at hfront
    show cstr r.index = []
    cases hindex : r.index with
    | nil => rfl
    | cons b rest =>
        rw [hindex, List.getElem?_cons_zero, Option.some.injEq] at hfront
        rw [hfront]
        rfl

/-- The number that is read for the `j`-th index of the first resource. -/
theorem localIndex_of_first {s : CString} (hs : s.length ≤ 7)
    {n : Nat} (hn : 0 < n) (hindex : r.index = padded s ++
      List.replicate (maxLocalIndexLength * n - 7) 0) (j : Nat) :
    r.localIndex j = if j = 0 then Int16.ofInt (atoi s.val) else 0 := by
  unfold ProfileResource.localIndex
  split
  · next hj =>
      have hzero : maxLocalIndexLength * n - 7 = (maxLocalIndexLength * n - 8) + 1 := by
        unfold maxLocalIndexLength
        omega
      rw [hj, Nat.mul_zero, List.drop_zero, hindex, hzero, List.replicate_succ, cstr_padded hs]
  · next hj =>
      have hover : (padded s).length ≤ maxLocalIndexLength * j := by
        rw [length_padded]
        unfold maxLocalIndexLength
        omega
      rw [hindex, List.drop_append, List.drop_of_length_le hover, List.nil_append,
        List.drop_replicate, cstr_zeros]
      rfl

/-- Under empty texts every number is zero. -/
theorem localIndex_of_empty (hr : ParsedResource p strong i js r category indexes domains)
    (hempty : ∀ s, ListsIndex js s → s.val = []) (j : Nat) : r.localIndex j = 0 := by
  have hindex := zeros_of_storeIndexes
    (fun t ht => hempty _ ((listsIndex_iff hr _).mpr ⟨t, ht, rfl⟩)) hr.packed
  unfold ProfileResource.localIndex
  rw [hindex, List.drop_replicate, cstr_zeros]
  rfl

end Packed

/-! ## Exactly the profiles that are packed right -/

/-- The parse ends neither with a return code nor in a conversion that C leaves open. -/
def Accepted (result : Except Stop (List ProfileResource)) : Prop :=
  (∃ rs, result = .ok rs) ∨ result = .error .overrun

/-- The profile is parsed within its buffers, and the lookups are exact in the capacity
that it makes. -/
def LooksUpRight (p : Platform) (strong : Bool) (business2cloud business2dev : Callback)
    (profile devSn : CString) (devType : CField 24) (devFwVer : CField 36) : Prop :=
  ∃ rs, profileParse p strong profile = .ok rs ∧
    LookupExact p strong business2cloud business2dev profile devSn ⟨devType, devFwVer, rs⟩

section Exact

variable {p : Platform} {strong : Bool} {profile devSn : CString} {rs : List ProfileResource}
  {business2cloud business2dev : Callback} {c : Capacity} {js : Value} {i : Nat}

/-- Resources of one category stand at one position. -/
theorem position_unique (hplain : PlainProfile profile) {x x' : Value × Nat} {category : CString}
    (hx : x ∈ (resourcesOf profile).zipIdx) (hx' : x' ∈ (resourcesOf profile).zipIdx)
    (hcat : textKeyword x.1 "resourceCategory" = some category)
    (hcat' : textKeyword x'.1 "resourceCategory" = some category) : x = x' := by
  have hget := List.mem_zipIdx_iff_getElem?.mp hx
  have hget' := List.mem_zipIdx_iff_getElem?.mp hx'
  obtain ⟨hi, hjs⟩ := List.getElem?_eq_some_iff.mp hget
  obtain ⟨hi', hjs'⟩ := List.getElem?_eq_some_iff.mp hget'
  have hpair := List.pairwise_iff_getElem.mp hplain.categories
  rcases Nat.lt_trichotomy x.2 x'.2 with hlt | heq | hgt
  · exact absurd (hjs' ▸ hcat') (hpair _ _ hi hi' hlt category (hjs ▸ hcat))
  · rw [heq, hget', Option.some.injEq] at hget
    exact Prod.ext hget.symm heq
  · exact absurd (hjs ▸ hcat) (hpair _ _ hi' hi hgt category (hjs' ▸ hcat'))

/-- What holds of some resource of a category holds of the one that has it. -/
theorem exists_resource_iff (hplain : PlainProfile profile) {x : Value × Nat} {category : CString}
    (hx : x ∈ (resourcesOf profile).zipIdx)
    (hcat : textKeyword x.1 "resourceCategory" = some category) (P : Value × Nat → Prop) :
    (∃ x' ∈ (resourcesOf profile).zipIdx, textKeyword x'.1 "resourceCategory" = some category ∧
      P x') ↔ P x := by
  constructor
  · rintro ⟨x', hx', hcat', hP⟩
    rwa [position_unique hplain hx hx' hcat hcat']
  · exact fun hP => ⟨x, hx, hcat, hP⟩

theorem declares_iff (keys : String) (profile category index domain key : CString) :
    Declares keys profile category index domain key ↔
      ∃ x ∈ (resourcesOf profile).zipIdx, textKeyword x.1 "resourceCategory" = some category ∧
        DeclaresKey keys x.1 domain key ∧ ListsIndex x.1 index := by
  constructor
  · rintro ⟨js, hjs, hcat, hs, hkey⟩
    obtain ⟨i, hi⟩ := List.getElem?_of_mem hjs
    exact ⟨(js, i), List.mk_mem_zipIdx_iff_getElem?.mpr hi, hcat, hkey, hs⟩
  · rintro ⟨x, hx, hcat, hkey, hs⟩
    exact ⟨x.1, List.mem_of_getElem? (List.mem_zipIdx_iff_getElem?.mp hx), hcat, hs, hkey⟩

section At

variable {r : ProfileResource} {category : CString} {indexes domains : List Value}

/-- A listed index of a resource that declares a key is the one at the front. -/
theorem front_of_exact (hfit : NamesFit profile) (hplain : PlainProfile profile)
    (hparse : profileParse p strong profile = .ok rs) (hc : c.resource = rs)
    (h : LookupExact p strong business2cloud business2dev profile devSn c)
    (hx : (js, i) ∈ (resourcesOf profile).zipIdx) (hr : parseResource p strong i js = .ok r)
    (hparsed : ParsedResource p strong i js r category indexes domains) {keys : String}
    {domain key s : CString} (hkeys : keys = "props" ∨ keys = "events")
    (hkey : DeclaresKey keys js domain key) (hs : ListsIndex js s) : s = .ofMem r.index := by
  have hdecl : Declares keys profile category s domain key := by
    rw [declares_iff, exists_resource_iff hplain hx hparsed.category_eq]
    exact ⟨hkey, hs⟩
  have hseen : ∃ x ∈ (resourcesOf profile).zipIdx,
      textKeyword x.1 "resourceCategory" = some category ∧ DeclaresKey keys x.1 domain key ∧
        ∃ r, parseResource p strong x.2 x.1 = .ok r ∧ s = .ofMem r.index := by
    rcases hkeys with rfl | rfl
    · exact (seen_iff (propKind p strong) hfit hplain hparse DomainProp.propDesc hc _ _ _ _).mp
        ((h.property category s domain key).mpr hdecl)
    · exact (seen_iff (eventKind p strong) hfit hplain hparse DomainEvent.inputSchema hc _ _ _ _).mp
        ((h.event category s domain key).mpr hdecl)
  rw [exists_resource_iff hplain hx hparsed.category_eq] at hseen
  obtain ⟨-, r', hr', hfront⟩ := hseen
  rw [hr] at hr'
  cases hr'
  exact hfront

/-- The numbers that are registered for a resource with a property are those of its
local indexes. -/
theorem numbers_of_exact (hfit : NamesFit profile) (hplain : PlainProfile profile)
    (hparse : profileParse p strong profile = .ok rs) (hc : c.resource = rs)
    (h : LookupExact p strong business2cloud business2dev profile devSn c)
    (hx : (js, i) ∈ (resourcesOf profile).zipIdx) (hr : parseResource p strong i js = .ok r)
    (hparsed : ParsedResource p strong i js r category indexes domains) {domain key : CString}
    (hkey : DeclaresKey "props" js domain key) (n : Int) :
    (∃ j < r.indexNum, (r.localIndex j).toInt = n) ↔
      ∃ s : CString, atoi s.val = n ∧ ListsIndex js s := by
  have hexact := h.shadow category n domain key
  rw [registers_iff hfit hplain hparse _ _ _ hc,
    exists_resource_iff hplain hx hparsed.category_eq] at hexact
  simp only [declares_iff, exists_resource_iff hplain hx hparsed.category_eq, hkey, true_and, hr,
    Except.ok.injEq, exists_eq_left'] at hexact
  exact hexact

end At

theorem packedRight_of_exact (hfit : NamesFit profile) (hplain : PlainProfile profile)
    (hparse : profileParse p strong profile = .ok rs) (hc : c.resource = rs)
    (h : LookupExact p strong business2cloud business2dev profile devSn c) :
    PackedRight profile := by
  have haligned := forall₂_of_parseResources (parseResources_of_profileParse hparse)
  have hparsed : ∀ i js, (resourcesOf profile)[i]? = some js →
      ∃ r, parseResource p strong i js = .ok r := by
    intro i js hjs
    obtain ⟨r, -, hr⟩ := Aligned.exists_of_mem haligned (List.mk_mem_zipIdx_iff_getElem?.mpr hjs)
    exact ⟨r, hr⟩
  have hsingle : ∀ i js, (resourcesOf profile)[i]? = some js →
      (∃ keys domain key, (keys = "props" ∨ keys = "events") ∧ DeclaresKey keys js domain key) →
      ∀ s, ListsIndex js s → (i = 0 ∨ s.val = []) ∧ ∀ s', ListsIndex js s' → s = s' := by
    rintro i js hjs ⟨keys, domain, key, hkeys, hkey⟩ s hs
    obtain ⟨r, hr⟩ := hparsed i js hjs
    obtain ⟨category, indexes, domains, hres⟩ := parseResource_ok hr
    have hx := List.mk_mem_zipIdx_iff_getElem?.mpr hjs
    have hfront : ∀ s, ListsIndex js s → s = .ofMem r.index := fun s hs =>
      front_of_exact hfit hplain hparse hc h hx hr hres hkeys hkey hs
    refine ⟨?_, fun s' hs' => (hfront s hs).trans (hfront s' hs').symm⟩
    rcases front_cases hfit hplain (List.mem_of_getElem? hjs) hres with ⟨hi, -⟩ | ⟨-, hempty⟩
    · exact .inl hi
    · rw [hfront s hs]
      exact .inr hempty
  refine ⟨?_, hsingle, ?_⟩
  · intro i js hjs
    obtain ⟨r, hr⟩ := hparsed i js hjs
    obtain ⟨category, indexes, domains, hres⟩ := parseResource_ok hr
    have hroom := room_of_parsed hplain (List.mem_of_getElem? hjs) hres
    rwa [indexCount, hres.indexes_eq]
  · rintro js hmem ⟨domain, key, hkey⟩ s hs
    obtain ⟨i, hjs⟩ := List.getElem?_of_mem hmem
    obtain ⟨r, hr⟩ := hparsed i js hjs
    obtain ⟨category, indexes, domains, hres⟩ := parseResource_ok hr
    have hx := List.mk_mem_zipIdx_iff_getElem?.mpr hjs
    obtain ⟨hplace, hall⟩ := hsingle i js hjs ⟨"props", domain, key, .inl rfl, hkey⟩ s hs
    have hnumber : ∀ j < r.indexNum, (r.localIndex j).toInt = atoi s.val := by
      intro j hj
      obtain ⟨s', hs', hlisted⟩ :=
        (numbers_of_exact hfit hplain hparse hc h hx hr hres hkey _).mp ⟨j, hj, rfl⟩
      rw [← hs', hall s' hlisted]
    rcases hplace with rfl | hempty
    · obtain ⟨s', hs', hindex⟩ := index_of_first hplain hmem hres
      rw [← hall s' hs'] at hindex
      have hcount : 0 < indexes.length := List.length_pos_iff.mpr hres.some_index
      have hlocal := localIndex_of_first (hfit.index js hmem s hs) hcount hindex
      constructor
      · have hzero := hnumber 0 (by rw [hres.indexNum]; exact hcount)
        rwa [hlocal, if_pos rfl] at hzero
      · intro hmany
        rw [indexCount, hres.indexes_eq, Option.getD_some] at hmany
        have hone := hnumber 1 (by rw [hres.indexNum]; exact hmany)
        rw [hlocal, if_neg (by decide)] at hone
        exact hone.symm
    · rw [hempty]
      exact ⟨rfl, fun _ => rfl⟩

/-- The front of the buffer is what a resource that declares a key lists. -/
theorem front_of_packed (hfit : NamesFit profile) (hplain : PlainProfile profile)
    (h : PackedRight profile) (hjs : (resourcesOf profile)[i]? = some js) {r : ProfileResource}
    {category : CString} {indexes domains : List Value}
    (hr : ParsedResource p strong i js r category indexes domains) {keys : String}
    {domain key : CString} (hkeys : keys = "props" ∨ keys = "events")
    (hkey : DeclaresKey keys js domain key) (s : CString) :
    s = .ofMem r.index ↔ ListsIndex js s := by
  have hmem := List.mem_of_getElem? hjs
  obtain ⟨t, ht⟩ := exists_listsIndex hplain hmem hr
  obtain ⟨hplace, hall⟩ := h.single i js hjs ⟨keys, domain, key, hkeys, hkey⟩ t ht
  have hfront : t = .ofMem r.index := by
    rcases front_cases hfit hplain hmem hr with ⟨-, hlisted⟩ | ⟨hi, hempty⟩
    · exact hall _ hlisted
    · exact CString.ext ((hplace.resolve_left (Nat.ne_of_gt hi)).trans hempty.symm)
  constructor
  · rintro rfl
    rwa [← hfront]
  · exact fun hs => (hall s hs).symm.trans hfront

/-- So are the numbers that are read for a property. -/
theorem numbers_of_packed (hfit : NamesFit profile) (hplain : PlainProfile profile)
    (h : PackedRight profile) (hjs : (resourcesOf profile)[i]? = some js) {r : ProfileResource}
    {category : CString} {indexes domains : List Value}
    (hr : ParsedResource p strong i js r category indexes domains) {domain key : CString}
    (hkey : DeclaresKey "props" js domain key) (n : Int) :
    (∃ j < r.indexNum, (r.localIndex j).toInt = n) ↔
      ∃ s : CString, atoi s.val = n ∧ ListsIndex js s := by
  have hmem := List.mem_of_getElem? hjs
  have hcount : 0 < indexes.length := List.length_pos_iff.mpr hr.some_index
  obtain ⟨s, hs⟩ := exists_listsIndex hplain hmem hr
  obtain ⟨hplace, hall⟩ := h.single i js hjs ⟨"props", domain, key, .inl rfl, hkey⟩ s hs
  obtain ⟨hshort, hmany⟩ := h.number js hmem ⟨domain, key, hkey⟩ s hs
  have hnumber : ∀ j < r.indexNum, (r.localIndex j).toInt = atoi s.val := by
    intro j hj
    rw [hr.indexNum] at hj
    rcases hplace with rfl | hempty
    · obtain ⟨s', hs', hindex⟩ := index_of_first hplain hmem hr
      rw [← hall s' hs'] at hindex
      rw [localIndex_of_first (hfit.index js hmem s hs) hcount hindex]
      split
      · exact hshort
      · rw [indexCount, hr.indexes_eq, Option.getD_some] at hmany
        exact (hmany (by omega)).symm
    · rw [localIndex_of_empty hr (fun s' hs' => by rw [← hall s' hs', hempty]), hempty]
      rfl
  constructor
  · rintro ⟨j, hj, rfl⟩
    exact ⟨s, (hnumber j hj).symm, hs⟩
  · rintro ⟨s', rfl, hs'⟩
    exact ⟨0, by rw [hr.indexNum]; exact hcount, by
      rw [hnumber 0 (by rw [hr.indexNum]; exact hcount), hall s' hs']⟩

/-- The buffers have room, so that no write leaves them. -/
theorem not_overrun_of_packed (h : PackedRight profile) :
    profileParse p strong profile ≠ .error .overrun := by
  intro hover
  obtain ⟨x, hx, hres⟩ := parseResources_fails (parseResources_of_overrun hover)
  obtain ⟨indexes, hindexes, hstore⟩ := parseResource_overrun hres
  have hshort := storeIndexes_overrun hstore
  have hroom := h.room x.2 x.1 (List.mem_zipIdx_iff_getElem?.mp hx)
  rw [indexCount, hindexes, Option.getD_some] at hroom
  rw [List.length_replicate] at hshort
  omega

theorem exact_of_packedRight (hfit : NamesFit profile) (hplain : PlainProfile profile)
    (hparse : profileParse p strong profile = .ok rs) (hc : c.resource = rs)
    (h : PackedRight profile) :
    LookupExact p strong business2cloud business2dev profile devSn c := by
  have haligned := forall₂_of_parseResources (parseResources_of_profileParse hparse)
  have hfront : ∀ keys, keys = "props" ∨ keys = "events" → ∀ domain key s,
      ∀ x ∈ (resourcesOf profile).zipIdx, DeclaresKey keys x.1 domain key →
        ((∃ r, parseResource p strong x.2 x.1 = .ok r ∧ s = .ofMem r.index) ↔
          ListsIndex x.1 s) := by
    intro keys hkeys domain key s x hx hkey
    obtain ⟨r, -, hr⟩ := Aligned.exists_of_mem haligned hx
    obtain ⟨category, indexes, domains, hres⟩ := parseResource_ok hr
    rw [← front_of_packed hfit hplain h (List.mem_zipIdx_iff_getElem?.mp hx) hres hkeys hkey s, hr]
    simp
  constructor
  · intro category index domain key
    unfold tslLegalityPropertyCheck
    rw [seen_iff (propKind p strong) hfit hplain hparse _ hc, declares_iff]
    refine exists_congr fun x => and_congr_right fun hx => and_congr_right fun _ =>
      and_congr_right fun hkey => ?_
    exact hfront "props" (.inl rfl) domain key index x hx hkey
  · intro category index domain key
    unfold tslLegalityEventCheck
    rw [seen_iff (eventKind p strong) hfit hplain hparse _ hc, declares_iff]
    refine exists_congr fun x => and_congr_right fun hx => and_congr_right fun _ =>
      and_congr_right fun hkey => ?_
    exact hfront "events" (.inr rfl) domain key index x hx hkey
  · intro category n domain key
    have hnumbers : ∀ x ∈ (resourcesOf profile).zipIdx, DeclaresKey "props" x.1 domain key →
        ((∃ r, parseResource p strong x.2 x.1 = .ok r ∧
          ∃ j < r.indexNum, (r.localIndex j).toInt = n) ↔
            ∃ s : CString, atoi s.val = n ∧ ListsIndex x.1 s) := by
      intro x hx hkey
      obtain ⟨r, -, hr⟩ := Aligned.exists_of_mem haligned hx
      obtain ⟨category, indexes, domains, hres⟩ := parseResource_ok hr
      rw [← numbers_of_packed hfit hplain h (List.mem_zipIdx_iff_getElem?.mp hx) hres hkey n, hr]
      simp
    rw [registers_iff hfit hplain hparse _ _ _ hc]
    simp only [declares_iff]
    constructor
    · rintro ⟨x, hx, hcat, hkey, hnumber⟩
      obtain ⟨s, hs, hlisted⟩ := (hnumbers x hx hkey).mp hnumber
      exact ⟨s, hs, x, hx, hcat, hkey, hlisted⟩
    · rintro ⟨s, hs, x, hx, hcat, hkey, hlisted⟩
      exact ⟨x, hx, hcat, hkey, (hnumbers x hx hkey).mpr ⟨s, hs, hlisted⟩⟩

end Exact

/-- Of the profiles that name nothing twice, exactly those are looked up right whose
local indexes survive the packing. -/
theorem looksUpRight_iff_packedRight (p : Platform) (strong : Bool)
    (business2cloud business2dev : Callback) (profile devSn : CString) (devType : CField 24)
    (devFwVer : CField 36) (hfit : NamesFit profile) (hplain : PlainProfile profile)
    (haccepted : Accepted (profileParse p strong profile)) :
    LooksUpRight p strong business2cloud business2dev profile devSn devType devFwVer ↔
      PackedRight profile := by
  constructor
  · rintro ⟨rs, hparse, hexact⟩
    exact packedRight_of_exact hfit hplain hparse rfl hexact
  · intro h
    obtain ⟨rs, hparse⟩ := haccepted.resolve_right (not_overrun_of_packed h)
    exact ⟨rs, hparse, exact_of_packedRight hfit hplain hparse rfl h⟩

/-- Every allocation succeeds. -/
def allocating : Platform := ⟨fun _ => true, fun _ => true, fun _ => []⟩

def sampleDomain : Value :=
  .object [(ascii "identifier", .string (ascii "Time")),
    (ascii "props", .array [.object [(ascii "identifier", .string (ascii "zone")),
      (ascii "access", .string (ascii "rw"))]])]

def sampleResource (localIndex : List Value) : Value :=
  .object [(ascii "resourceCategory", .string (ascii "Video")),
    (ascii "localIndex", .array localIndex), (ascii "domains", .array [sampleDomain])]

/-- A profile with one property, under these local indexes. -/
def sampleProfile (localIndex : String) : CString :=
  .lit ("\x7b\"version\":\"1\",\"resources\":[\x7b\"resourceCategory\":\"Video\",\"localIndex\":" ++
    localIndex ++ ",\"domains\":[\x7b\"identifier\":\"Time\",\"props\":" ++
    "[\x7b\"identifier\":\"zone\",\"access\":\"rw\"\x7d]\x7d]\x7d]\x7d")

section Sample

/-- What is read of a sample whose local indexes are these values. -/
theorem resourcesOf_of_parse {localIndex : String} {indexes : List Value}
    (h : cJSONParse (sampleProfile localIndex).val = some (.object
      [(ascii "version", .string (ascii "1")),
        (ascii "resources", .array [sampleResource indexes])])) :
    resourcesOf (sampleProfile localIndex) = [sampleResource indexes] := by
  rw [resourcesOf, h]
  rfl

theorem cJSONParse_one : cJSONParse (sampleProfile "[\"1\"]").val = some (.object
    [(ascii "version", .string (ascii "1")),
      (ascii "resources", .array [sampleResource [.string (ascii "1")]])]) := by decide +kernel

theorem cJSONParse_two : cJSONParse (sampleProfile "[\"1\",\"2\"]").val = some (.object
    [(ascii "version", .string (ascii "1")), (ascii "resources",
      .array [sampleResource [.string (ascii "1"), .string (ascii "2")]])]) := by decide +kernel

theorem resourcesOf_one : resourcesOf (sampleProfile "[\"1\"]") =
    [sampleResource [.string (ascii "1")]] := resourcesOf_of_parse cJSONParse_one

theorem resourcesOf_two : resourcesOf (sampleProfile "[\"1\",\"2\"]") =
    [sampleResource [.string (ascii "1"), .string (ascii "2")]] :=
  resourcesOf_of_parse cJSONParse_two

theorem profileParse_sample : ∃ rs, profileParse allocating false (sampleProfile "[\"1\"]") = .ok rs := by
  have hok : (profileParse allocating false (sampleProfile "[\"1\"]")).toOption.isSome = true := by
    rw [profileParse, cJSONParse_one]
    decide +kernel
  cases hparse : profileParse allocating false (sampleProfile "[\"1\"]") with
  | ok rs => exact ⟨rs, rfl⟩
  | error e =>
      rw [hparse] at hok
      cases hok

theorem sampleResource_domains (localIndex : List Value) :
    arrayKeyword (sampleResource localIndex) "domains" = some [sampleDomain] := rfl

theorem sampleResource_indexes (localIndex : List Value) :
    arrayKeyword (sampleResource localIndex) "localIndex" = some localIndex := rfl

theorem declaresKey_sample {localIndex : List Value} {keys : String} {domain key : CString}
    (hkeys : keys = "props" ∨ keys = "events")
    (h : DeclaresKey keys (sampleResource localIndex) domain key) : key = .lit "zone" := by
  obtain ⟨domains, hdomains, d, hd, -, items, hitems, k, hk, hkey⟩ := h
  rw [sampleResource_domains] at hdomains
  cases hdomains
  rw [List.mem_singleton.mp hd] at hitems
  rcases hkeys with rfl | rfl
  · cases hitems
    rw [List.mem_singleton.mp hk] at hkey
    exact (Option.some.inj hkey).symm
  · cases hitems

theorem listsIndex_one {s : CString} (h : ListsIndex (sampleResource [.string (ascii "1")]) s) :
    s = .lit "1" := by
  obtain ⟨items, hitems, t, ht, rfl⟩ := h
  rw [sampleResource_indexes] at hitems
  cases hitems
  cases List.mem_singleton.mp ht
  rfl

end Sample

/-- One resource with one local index. -/
theorem looksUpRight_one :
    LooksUpRight allocating false 1 2 (sampleProfile "[\"1\"]") (.lit "D1")
      (.strncpy (.lit "T")) (.strncpy (.lit "V1")) := by
  refine (looksUpRight_iff_packedRight allocating false 1 2 _ _ _ _ ?_ ?_ (.inl ?_)).mpr ?_
  · constructor
    · intro r hr s hs
      rw [resourcesOf_one, List.mem_singleton] at hr
      subst hr
      cases hs
      decide
    · intro r hr s hs
      rw [resourcesOf_one, List.mem_singleton] at hr
      subst hr
      rw [listsIndex_one hs]
      decide
    · intro r hr domains hdomains d hd s hs
      rw [resourcesOf_one, List.mem_singleton] at hr
      subst hr
      rw [sampleResource_domains] at hdomains
      cases hdomains
      rw [List.mem_singleton.mp hd] at hs
      cases hs
      decide
    · intro r hr keys hkeys domain s hs
      rw [resourcesOf_one, List.mem_singleton] at hr
      subst hr
      rw [declaresKey_sample hkeys hs]
      decide
  · constructor
    · rw [resourcesOf_one]
      exact List.pairwise_singleton _ _
    · intro r hr items hitems v hv
      rw [resourcesOf_one, List.mem_singleton] at hr
      subst hr
      rw [sampleResource_indexes] at hitems
      cases hitems
      exact ⟨_, List.mem_singleton.mp hv⟩
    · intro r hr ds hds
      rw [resourcesOf_one, List.mem_singleton] at hr
      subst hr
      rw [sampleResource_domains] at hds
      cases hds
      exact ⟨fun d hd => ⟨_, List.mem_singleton.mp hd⟩, List.pairwise_singleton _ _⟩
  · exact profileParse_sample
  · constructor
    · intro i r hr
      rw [resourcesOf_one] at hr
      cases i with
      | zero =>
          cases hr
          decide
      | succ i => cases hr
    · intro i r hr _ s hs
      rw [resourcesOf_one] at hr
      cases i with
      | zero =>
          cases hr
          exact ⟨.inl rfl, fun s' hs' => (listsIndex_one hs).trans (listsIndex_one hs').symm⟩
      | succ i => cases hr
    · intro r hr _ s hs
      rw [resourcesOf_one, List.mem_singleton] at hr
      subst hr
      rw [listsIndex_one hs]
      exact ⟨by decide, fun hmany => absurd hmany (by decide)⟩

/-- With a second local index, the first one is not found any more. -/
theorem two_indexes_not_looksUpRight :
    ¬ LooksUpRight allocating false 1 2 (sampleProfile "[\"1\",\"2\"]") (.lit "D1")
      (.strncpy (.lit "T")) (.strncpy (.lit "V1")) := by
  rintro ⟨rs, hparse, hexact⟩
  have hcheck : (profileParse allocating false (sampleProfile "[\"1\",\"2\"]")).toOption.map
      (fun rs => tslLegalityPropertyCheck allocating false
        (some ⟨.strncpy (.lit "T"), .strncpy (.lit "V1"), rs⟩) (.lit "Video") (.lit "1")
          (.lit "Time") (.lit "zone") none) = some (some Err.indexNotFound) := by
    rw [profileParse, cJSONParse_two]
    decide +kernel
  have hdeclared : Declares "props" (sampleProfile "[\"1\",\"2\"]") (.lit "Video") (.lit "1")
      (.lit "Time") (.lit "zone") := by
    refine ⟨_, by rw [resourcesOf_two]; exact List.mem_cons_self, rfl,
      ⟨_, rfl, _, List.mem_cons_self, rfl⟩, _, rfl, _, List.mem_cons_self, rfl, _, rfl, _,
      List.mem_cons_self, rfl⟩
  rw [hparse] at hcheck
  have hfound := (hexact.property _ _ _ _).mpr hdeclared
  have hnot : some (some Err.succ) = some (some Err.indexNotFound) :=
    (congrArg some hfound.symm).trans hcheck
  exact absurd hnot (by decide)

end EzIot.Tsl
