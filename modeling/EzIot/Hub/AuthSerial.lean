import EzIot.Hub.Count

/-! # The serials that sub-devices are authenticated by

A request names a sub-device by its serial, or by its type and its serial where it has a
licence. The platform sends that text back with its result. Which of the two it is, the
request is told by the mode and the reply by the length.
-/

namespace EzIot.Hub

open CText CJson Kv Run

/-! ## The request -/

def hubAuthSalt : Bytes := ascii "www.88075998.com"

def upperHexDigit (n : Nat) : UInt8 := (if n < 10 then 48 + n else 55 + n).toUInt8

def bin2hexstr (src : Bytes) : Bytes :=
  src.flatMap fun b => [upperHexDigit (b.toNat / 16), upperHexDigit (b.toNat % 16)]

/-- The text `%s:%s` of two texts. -/
def joinColon (s t : CString) : CString where
  val := s.val ++ 58 :: t.val
  noNul := by
    simp only [List.mem_append, List.mem_cons, not_or]
    exact ⟨s.noNul, by decide, t.noNul⟩

/-- The serial in a request. `snprintf` is told one byte less than the buffer has. -/
def childserial (d : SubdevInfo) : CString :=
  if d.authm = 0 then (CField.strncpy d.sn.toCString : CField 64).toCString
  else (CField.strncpy (joinColon d.type.toCString d.sn.toCString) : CField 63).toCString

section Request

variable (md5 : Bytes → Bytes) (p : Printer)

/-- `md5(md5(md5(verifycode+childserial) + www.88075998.com))`, each digest as its text. -/
def authMac (vcode serial : CString) : Bytes :=
  let first := bin2hexstr (md5 (vcode.val ++ serial.val))
  let second := bin2hexstr (md5 (first ++ hubAuthSalt))
  bin2hexstr (md5 second)

def authInfo (d : SubdevInfo) : Value :=
  .object [(ascii "childserial", .string (childserial d).val),
    (ascii "childverifycode", .string (authMac md5 d.vcode.toCString (childserial d))),
    (ascii "devAccessMode", .number (.ofInt d.authm.toInt))]

/-- `hubSubdevAuthDo`: the text of the request. -/
def hubSubdevAuthDo (d : SubdevInfo) : Bytes := printValue p.printNumber (authInfo md5 d)

end Request

/-! ## What is meant -/

/-- The operation that a result asks for. -/
def resultOp (query : Accesses) (sn : CString) (result : Dbl) : Option HubOp :=
  if result.valueint = 0 then some (.authPassed sn)
  else if result.valueint = 1 then some (.authFailure query sn)
  else none

/-- What a result makes of the list: the device is authenticated or gone. -/
def resultMeant (sn : CString) (result : Dbl) (l : List SubdevInfo) : List SubdevInfo :=
  if result.valueint = 0 then l.map fun d => if d.isOf sn then { d with access := 1 } else d
  else if result.valueint = 1 then l.filter fun d => !d.isOf sn
  else l

/-- A reply with the serial of a request and a result. -/
def Echoes (request mem : Bytes) (result : Dbl) : Prop :=
  ∃ req root serial, cJSONParse request = some req ∧
    req.getObjectItem (ascii "childserial") = some (.string serial) ∧
    cJSONParse mem = some root ∧
    root.getObjectItem (ascii "childserial") = some (.string serial) ∧
    root.getObjectItem (ascii "result") = some (.number result)

/-- A serial or a type. -/
structure IsName (s : CString) : Prop where
  ne_nil : s.val ≠ []
  noSpace : ∀ b ∈ s.val, isSpace b = false

/-- A sub-device with a serial and a type that can be told apart. -/
structure SubdevInfo.Named (d : SubdevInfo) : Prop where
  sn : IsName d.sn.toCString
  type : IsName d.type.toCString
  noColon : (58 : UInt8) ∉ d.type.val

/-- A call returns, and makes of a list what is meant or leaves it; where the list can be
read and the store works, the former. -/
def CallMakes (p : Printer) (h : HubState) (call : HubCall) (l meant : List SubdevInfo) : Prop :=
  ∀ a, ∃ h', h.step p (call, a) = some h' ∧
    (storedList h'.kv = some l ∨ storedList h'.kv = some meant) ∧
    (a = .fine → (h.kv.value hublistKey).length ≤ hubListSize → storedList h'.kv = some meant)

/-- Replies to the request for a sub-device are taken for it, and no other one is changed. -/
structure EchoApplied (md5 : Bytes → Bytes) (p : Printer) (d : SubdevInfo) : Prop where
  recovered : ∀ query mem len result, len ≠ 0 → Echoes (hubSubdevAuthDo md5 p d) mem result →
    hubSubdevAuthDone query (some mem) len = some (resultOp query d.sn.toCString result)
  applied : ∀ h l, Reach (HubState.step p) (fun _ _ => True) .initial h → h.locked = false →
    storedList h.kv = some l → (∃ x ∈ l, x.sn = d.sn) →
    ∀ query mem len result, len ≠ 0 → Echoes (hubSubdevAuthDo md5 p d) mem result →
    CallMakes p h (.authDone query (some mem) len) l (resultMeant d.sn.toCString result l)

/-- The length of the text tells the mode. -/
def SubdevInfo.Told (d : SubdevInfo) : Prop :=
  if d.authm = 0 then d.sn.length = sapDevSnLen
  else d.type.length + 1 + d.sn.length ≠ sapDevSnLen

instance (d : SubdevInfo) : Decidable d.Told :=
  inferInstanceAs (Decidable (if d.authm = 0 then d.sn.length = sapDevSnLen
    else d.type.length + 1 + d.sn.length ≠ sapDevSnLen))

/-! ## Requests and replies -/

section Replies

variable {md5 : Bytes → Bytes} {p : Printer} {d : SubdevInfo}

theorem zero_not_mem_bin2hexstr (src : Bytes) : (0 : UInt8) ∉ bin2hexstr src := by
  have hdigit : ∀ n : Fin 16, upperHexDigit n ≠ 0 := by decide
  intro h
  obtain ⟨b, -, hb⟩ := List.mem_flatMap.mp h
  have hlt := b.toNat_lt
  rcases List.mem_cons.mp hb with hhigh | hlow
  · exact hdigit ⟨b.toNat / 16, by omega⟩ hhigh.symm
  · exact hdigit ⟨b.toNat % 16, by omega⟩ (List.mem_singleton.mp hlow).symm

theorem isRecord_authInfo (md5 : Bytes → Bytes) (p : Printer) (d : SubdevInfo) :
    IsRecord p.printNumber (authInfo md5 d) := by
  refine ⟨_, rfl, ?_, ?_⟩
  · simp only [List.forall_mem_cons]
    exact ⟨by decide, by decide, by decide, fun _ h => absurd h List.not_mem_nil⟩
  · simp only [List.forall_mem_cons]
    exact ⟨⟨rfl, rfl, (childserial d).noNul⟩, ⟨rfl, rfl, zero_not_mem_bin2hexstr _⟩,
      ⟨rfl, rfl, SubdevEntry.prints_int8 p d.authm⟩, fun _ h => absurd h List.not_mem_nil⟩

theorem echoes_iff {mem : Bytes} {result : Dbl} : Echoes (hubSubdevAuthDo md5 p d) mem result ↔
    ∃ root, cJSONParse mem = some root ∧
      root.getObjectItem (ascii "childserial") = some (.string (childserial d).val) ∧
      root.getObjectItem (ascii "result") = some (.number result) := by
  have hparse : cJSONParse (hubSubdevAuthDo md5 p d) = some (authInfo md5 d) :=
    cJSONParse_printRecord (isRecord_authInfo md5 p d)
  have hserial : (authInfo md5 d).getObjectItem (ascii "childserial") =
      some (.string (childserial d).val) := rfl
  constructor
  · rintro ⟨req, root, serial, hreq, hitem, hroot, hecho, hresult⟩
    cases hparse.symm.trans hreq
    cases hserial.symm.trans hitem
    exact ⟨root, hroot, hecho, hresult⟩
  · rintro ⟨root, hroot, hecho, hresult⟩
    exact ⟨_, root, _, hparse, hserial, hroot, hecho, hresult⟩

/-- There is a reply with every number that is printed. -/
theorem echoes_passed (md5 : Bytes → Bytes) (p : Printer) (d : SubdevInfo) :
    ∃ mem, Echoes (hubSubdevAuthDo md5 p d) mem (.ofInt 0) := by
  let root : Value := .object [(ascii "childserial", .string (childserial d).val),
    (ascii "result", .number (.ofInt 0))]
  have hrecord : IsRecord p.printNumber root := by
    refine ⟨_, rfl, ?_, ?_⟩
    · simp only [List.forall_mem_cons]
      exact ⟨by decide, by decide, fun _ h => absurd h List.not_mem_nil⟩
    · simp only [List.forall_mem_cons]
      exact ⟨⟨rfl, rfl, (childserial d).noNul⟩, ⟨rfl, rfl, SubdevEntry.prints_int8 p 0⟩,
        fun _ h => absurd h List.not_mem_nil⟩
  exact ⟨_, echoes_iff.mpr ⟨root, cJSONParse_printRecord hrecord, rfl, rfl⟩⟩

/-- A reply is taken for the device that is read from its serial. -/
theorem Echoes.authDone {mem : Bytes} {result : Dbl}
    (h : Echoes (hubSubdevAuthDo md5 p d) mem result) (query : Accesses) {len : Nat}
    (hlen : len ≠ 0) : hubSubdevAuthDone query (some mem) len =
      (replySn (childserial d)).map fun sn => resultOp query sn result := by
  obtain ⟨root, hroot, hserial, hresult⟩ := echoes_iff.mp h
  have hmem : CString.ofMem (childserial d).val = childserial d :=
    CString.ext (cstr_of_no_zero (childserial d).noNul)
  unfold hubSubdevAuthDone
  simp only [if_neg hlen, hroot, hserial, hresult, hmem]
  rfl

/-! ## Serials -/

theorem childserial_plain (h : d.authm = 0) : childserial d = d.sn.toCString := by
  have hfits : d.sn.toCString.length ≤ 63 := by
    have hlt := d.sn.fits
    unfold CString.length
    omega
  rw [childserial, if_pos h, CField.strncpy_of_fits hfits]

theorem length_joinColon (s t : CString) :
    (joinColon s t).length = s.length + 1 + t.length := by
  simp only [CString.length, joinColon, List.length_append, List.length_cons]
  omega

theorem childserial_licence (h : d.authm ≠ 0) :
    childserial d = joinColon d.type.toCString d.sn.toCString := by
  have hfits : (joinColon d.type.toCString d.sn.toCString).length ≤ 62 := by
    have htype := d.type.fits
    have hsn := d.sn.fits
    rw [length_joinColon]
    unfold CString.length
    omega
  rw [childserial, if_neg h, CField.strncpy_of_fits hfits]

theorem replySn_of_length {s : CString} (h : s.length = sapDevSnLen) : replySn s = some s := by
  have hfits : s.length ≤ 16 := by
    rw [h]
    decide
  rw [replySn, if_pos h, CField.strncpy_of_fits hfits]

/-- The serial behind the colon. -/
theorem replySn_joinColon {s t : CString} (hs : s.val ≠ []) (hcolon : (58 : UInt8) ∉ s.val)
    (ht : IsName t) (hfits : t.length < 17) (hlength : (joinColon s t).length ≠ sapDevSnLen) :
    replySn (joinColon s t) = some t := by
  have hwidth : s.val.length ≤ (joinColon s t).length := by
    rw [length_joinColon]
    unfold CString.length
    omega
  have hscan : sscanf [.scanset (joinColon s t).length 58, .lit 58, .word] (joinColon s t).val =
      [.text s.val, .text t.val] := by
    have hval : (joinColon s t).val = s.val ++ 58 :: t.val := rfl
    rw [hval, sscanf_scanset hs hcolon hwidth, sscanf_lit, sscanf_word ht.ne_nil ht.noSpace]
  have hmem : CString.ofMem t.val = t := CString.ext (cstr_of_no_zero t.noNul)
  have hlt : t.val.length < 17 := hfits
  rw [replySn, if_neg hlength, hscan]
  simp only [if_pos hlt, hmem]

theorem sscanf_word_length {t w : Bytes} (h : sscanf [.word] t = [.text w]) :
    w.length ≤ t.length := by
  rw [sscanf] at h
  split at h
  · cases h
  · have hw : (t.dropWhile isSpace).takeWhile (!isSpace ·) = w := by
      cases h
      rfl
    rw [← hw]
    exact Nat.le_trans (List.takeWhile_sublist _).length_le (List.dropWhile_sublist _).length_le

theorem replySn_length {s sn : CString} (h : replySn s = some sn)
    (hlength : s.length ≠ sapDevSnLen) : sn.length < s.length := by
  rw [replySn, if_neg hlength] at h
  split at h
  · next c text hscan =>
      have hfirst : ∃ front, c = .text front := by
        rw [sscanf] at hscan
        split at hscan
        · cases hscan
        · exact ⟨_, (List.cons.inj hscan).1.symm⟩
      obtain ⟨front, rfl⟩ := hfirst
      obtain ⟨rest, hsplit, -, -, hrest⟩ := sscanf_scanset_eq_cons hscan
      obtain ⟨rest', rfl, hword⟩ := sscanf_lit_eq_cons hrest
      have htext := sscanf_word_length hword
      have hcut : (cstr text).length ≤ text.length := (List.takeWhile_sublist _).length_le
      split at h
      · cases h
        have hwhole := congrArg List.length hsplit
        rw [List.length_append, List.length_cons] at hwhole
        show (cstr text).length < s.val.length
        omega
      · cases h
  · cases h

/-- The serial is recovered exactly when the length tells its mode. -/
theorem replySn_childserial (hd : d.Named) :
    replySn (childserial d) = some d.sn.toCString ↔ d.Told := by
  unfold SubdevInfo.Told
  by_cases hmode : d.authm = 0
  · rw [if_pos hmode, childserial_plain hmode]
    refine ⟨fun h => ?_, replySn_of_length⟩
    by_contra hlength
    exact Nat.lt_irrefl _ (replySn_length h hlength)
  · rw [if_neg hmode, childserial_licence hmode]
    have hjoined := length_joinColon d.type.toCString d.sn.toCString
    constructor
    · intro h hlength
      rw [replySn_of_length (hjoined.trans hlength)] at h
      have hsame := congrArg CString.length (Option.some_inj.mp h)
      omega
    · intro hlength
      exact replySn_joinColon hd.type.ne_nil hd.noColon hd.sn d.sn.fits (hjoined.trans_ne hlength)

end Replies

/-! ## What a result does to the list -/

section Applied

variable {md5 : Bytes → Bytes} {p : Printer} {d : SubdevInfo} {kv : Store}
  {entries : List SubdevEntry} {sn : CString}

/-- An operation leaves the list as it is or makes of it what is meant. -/
theorem Kept.storedList_run (h : Kept p kv entries) (a : Accesses) (op : HubOp) :
    ∃ r, op.run p a kv = some r ∧
      (Hub.storedList r.2 = some (entries.map SubdevEntry.info) ∨
        Hub.storedList r.2 = some (op.meant (entries.map SubdevEntry.info))) ∧
      (op.reached a kv = true → a.rawSet = true →
        Hub.storedList r.2 = some (op.meant (entries.map SubdevEntry.info))) := by
  obtain ⟨rv, -, hrun⟩ := h.run a op
  refine ⟨_, hrun, ?_⟩
  by_cases hreached : op.reached a kv = true
  · have hmeant : Hub.storedList (kv.rawSet hublistKey (op.text p (Hub.storedItems kv))) =
        some (op.meant (entries.map SubdevEntry.info)) := by
      rw [← h.effect_info op]
      exact (h.effect (Bool.and_eq_true_iff.mp hreached).2).storedList
    simp only [if_pos hreached, writeList]
    cases hset : a.rawSet with
    | true => exact ⟨.inr hmeant, fun _ _ => hmeant⟩
    | false =>
        refine ⟨?_, fun _ h => absurd h (by simp)⟩
        cases a.rawSetLogged with
        | true => exact .inr hmeant
        | false => exact .inl h.storedList
  · rw [if_neg hreached]
    exact ⟨.inl h.storedList, fun h => absurd h hreached⟩

theorem Kept.any_holdsSn (h : Kept p kv entries)
    (hfound : ∃ x ∈ entries.map SubdevEntry.info, x.isOf sn = true) :
    (Hub.storedItems kv).any (holdsSn sn) = true := by
  obtain ⟨x, hx, hself⟩ := hfound
  obtain ⟨e, he, rfl⟩ := List.mem_map.mp hx
  rw [h.storedItems, Hub.any_holdsSn, List.findIdx?_isSome, List.any_eq_true]
  exact ⟨e, he, hself⟩

theorem Kept.callMakes {h : HubState} (hk : Kept p h.kv entries) (hfree : h.locked = false)
    {call : HubCall} {op : HubOp} (hcall : call.op = some (some op))
    (hwrites : op.writes (Hub.storedItems h.kv) = true) :
    CallMakes p h call (entries.map SubdevEntry.info)
      (op.meant (entries.map SubdevEntry.info)) := by
  intro a
  obtain ⟨r, hrun, hkept, hdone⟩ := hk.storedList_run a op
  have hstep : h.step p (call, a) = some
      { kv := r.2
        locked := decide (op = .clean ∧ r.1 ≠ .succ)
        gUnauthCount := op.count a h.kv r.1 h.gUnauthCount } := by
    simp only [HubState.step, hcall, hfree, hrun, Option.map_some, Bool.false_eq_true, if_false]
  refine ⟨_, hstep, hkept, fun hfine hfits => hdone ?_ (by rw [hfine]; rfl)⟩
  have hread : unreadable a h.kv = false := by simp [unreadable, Accesses.fine, hfine]
  rw [HubOp.reached, hread, decide_eq_true hfits, hwrites]
  simp

/-- What a result asks for is done to the device of a serial. -/
theorem callMakes_result {h : HubState} {l : List SubdevInfo} {call : HubCall} {query : Accesses}
    {result : Dbl} (hk : Kept p h.kv entries) (hfree : h.locked = false)
    (hl : storedList h.kv = some l) (hfound : ∃ x ∈ l, x.isOf sn = true)
    (hcall : call.op = some (resultOp query sn result)) :
    CallMakes p h call l (resultMeant sn result l) := by
  obtain rfl : l = entries.map SubdevEntry.info := Option.some_inj.mp (hl.symm.trans hk.storedList)
  have hwrites := hk.any_holdsSn hfound
  unfold resultOp at hcall
  unfold resultMeant
  split at hcall
  next hpassed =>
    rw [if_pos hpassed]
    exact hk.callMakes hfree hcall hwrites
  next hpassed =>
    rw [if_neg hpassed]
    split at hcall
    next hfailed =>
      rw [if_pos hfailed]
      exact hk.callMakes hfree hcall hwrites
    next hfailed =>
      rw [if_neg hfailed]
      intro a
      have hstep : h.step p (call, a) = some h := by simp only [HubState.step, hcall]
      exact ⟨h, hstep, .inl hl, fun _ _ => hl⟩

/-- For every sub-device with a proper serial and type, replies are taken for it exactly
when the length of the text in the request tells its mode. -/
theorem echo_applied_iff (md5 : Bytes → Bytes) (p : Printer) {d : SubdevInfo} (hd : d.Named) :
    EchoApplied md5 p d ↔ d.Told := by
  rw [← replySn_childserial hd]
  constructor
  · intro h
    obtain ⟨mem, hecho⟩ := echoes_passed md5 p d
    have hdone := h.recovered .fine mem 1 _ (by omega) hecho
    rw [hecho.authDone .fine (by omega)] at hdone
    obtain ⟨sn, hsn, hop⟩ := Option.map_eq_some_iff.mp hdone
    cases hop
    exact hsn
  · intro h
    have hrecovered : ∀ query mem len result, len ≠ 0 →
        Echoes (hubSubdevAuthDo md5 p d) mem result →
        hubSubdevAuthDone query (some mem) len = some (resultOp query d.sn.toCString result) := by
      intro query mem len result hlen hecho
      rw [hecho.authDone query hlen, h, Option.map_some]
    refine ⟨hrecovered, fun h l hreach hfree hl hfound query mem len result hlen hecho => ?_⟩
    obtain ⟨entries, hk, -⟩ := exists_kept hreach
    have hself : ∃ x ∈ l, x.isOf d.sn.toCString = true := by
      obtain ⟨x, hx, hsn⟩ := hfound
      exact ⟨x, hx, decide_eq_true (congrArg CField.toCString hsn)⟩
    exact callMakes_result hk hfree hl hself (hrecovered query mem len result hlen hecho)

end Applied

/-- A plain serial of nine characters. -/
theorem echo_applied_plain : EchoApplied id samplePrinter sampleInfo.internal := by
  have hnamed : sampleInfo.internal.Named :=
    ⟨⟨by decide, by decide +kernel⟩, ⟨by decide, by decide +kernel⟩, by decide⟩
  exact (echo_applied_iff id samplePrinter hnamed).mpr (by decide)

/-- A plain serial of eight characters. -/
def shortSubdev : SubdevInfo := { sampleInfo.internal with sn := .strncpy (.lit "S1234567") }

/-- Its reply is read as that of a licensed device, and no serial is found. -/
theorem short_serial_lost : ¬ ∀ (md5 : Bytes → Bytes) (p : Printer) (d : SubdevInfo), d.Named →
    EchoApplied md5 p d := by
  intro hall
  have hnamed : shortSubdev.Named :=
    ⟨⟨by decide, by decide +kernel⟩, ⟨by decide, by decide +kernel⟩, by decide⟩
  have h := hall id samplePrinter shortSubdev hnamed
  obtain ⟨mem, hecho⟩ := echoes_passed id samplePrinter shortSubdev
  have hdone := h.recovered .fine mem 1 _ (by omega) hecho
  have hlost : replySn (childserial shortSubdev) = none := by decide
  rw [hecho.authDone .fine (by omega), hlost] at hdone
  cases hdone

end EzIot.Hub
