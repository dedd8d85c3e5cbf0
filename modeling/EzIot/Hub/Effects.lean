import EzIot.Hub.Lock
import EzIot.Lib.Views

/-! # What the functions of the hub leave

The functions with the mutex and with everything that can fail do to the stored list and to
the counter what the operations on the store do, as long as the memory suffices. In a list
that was written by the hub they read no text from a null pointer, so that they return.
-/

namespace EzIot.Hub

open CText CJson Kv Run Program Faulty Guard Views

/-- The list and the counter. -/
def HubData.view (d : HubData) : Store × Int := (d.kv, d.gUnauthCount)

def HubStage.view (s : HubStage) : Store × Int := s.1.1.view

/-! ## Pieces of functions -/

section Checks

variable {α : Type} {out : HubOutcomes} {proc : HubProc} {site : HubSite}
  {f : HubData → Int × HubData} {rv : HubRv} {v v' : Store × Int}

theorem runsTo_goto (rv : HubRv) :
    RunsTo HubStage.view (goto rv : HubM α) v (.error (some rv)) v := fun _ hs => ⟨rfl, hs⟩

theorem runsTo_data {g : HubData → α} {x : α} (h : ∀ d : HubData, d.view = v → g d = x) :
    RunsTo HubStage.view (data g) v (.ok x) v := fun s hs => ⟨congrArg Except.ok (h s.1.1 hs), hs⟩

theorem runsTo_update {g : HubData → HubData} (h : ∀ d : HubData, d.view = v → (g d).view = v') :
    RunsTo HubStage.view (update g) v (.ok ()) v' := fun s hs => ⟨rfl, h s.1.1 hs⟩

theorem runsTo_check (h : out (proc, site) 0 = 0)
    (hf : ∀ d : HubData, d.view = v → (f d).1 = 0 ∧ (f d).2.view = v') :
    RunsTo HubStage.view (check out proc site f rv) v (.ok ()) v' := by
  rintro ⟨⟨d, l⟩, k⟩ hs
  obtain ⟨hcode, hview⟩ := hf d hs
  have hwork : attempt out (proc, site) 0 f d = f d := attempt_of_ok h
  obtain ⟨l', hcheck⟩ : ∃ l', check out proc site f rv ((d, l), k) = _ :=
    check_of_ok (hwork ▸ hcode)
  rw [hcheck, hwork]
  exact ⟨rfl, hview⟩

theorem runsTo_look (h : out (proc, site) 0 = 0) :
    RunsTo HubStage.view (check out proc site look rv) v (.ok ()) v :=
  runsTo_check h fun _ hs => ⟨rfl, hs⟩

theorem runsTo_check_fail (h : out (proc, site) 0 ≠ 0)
    (hf : ∀ d : HubData, d.view = v → (attempt out (proc, site) 1 f d).2.view = v') :
    RunsTo HubStage.view (check out proc site f rv) v (.error (some rv)) v' := by
  rintro ⟨⟨d, l⟩, k⟩ hs
  have hwork : attempt out (proc, site) 0 f d = (out (proc, site) 0, d) := attempt_of_fail h
  have hcode : (attempt out (proc, site) 0 f d).1 ≠ 0 := by
    rw [hwork]
    exact h
  obtain ⟨l', hcheck⟩ : ∃ l', check out proc site f rv ((d, l), k) = _ := check_of_fail hcode
  rw [hcheck, hwork]
  exact ⟨rfl, hf d hs⟩

theorem runsTo_look_fail (h : out (proc, site) 0 ≠ 0) :
    RunsTo HubStage.view (check out proc site look rv) v (.error (some rv)) v := by
  refine runsTo_check_fail h fun d hs => ?_
  rw [attempt_look]
  exact hs

theorem quiet_goto {P : α → Prop} (rv : HubRv) : Quiet HubStage.view (goto rv) v P :=
  fun _ hs => ⟨nofun, hs, nofun⟩

theorem quiet_data {P : α → Prop} {g : HubData → α} (h : ∀ d : HubData, d.view = v → P (g d)) :
    Quiet HubStage.view (data g) v P := by
  intro s hs
  refine ⟨nofun, hs, fun a ha => ?_⟩
  cases ha
  exact h s.1.1 hs

theorem attempt_view {n : Nat} (hf : ∀ d : HubData, (f d).2.view = d.view) (d : HubData) :
    (attempt out (proc, site) n f d).2.view = d.view := by
  unfold attempt
  split
  · exact hf d
  · rfl

/-- Whether an operation works or fails, it is one that changes nothing. -/
theorem quiet_check (hf : ∀ d : HubData, (f d).2.view = d.view) :
    Quiet HubStage.view (check out proc site f rv) v fun _ => True := by
  intro s hs
  obtain ⟨⟨d, l⟩, k⟩ := s
  by_cases hcode : (attempt out (proc, site) 0 f d).1 = 0
  · obtain ⟨l', hcheck⟩ : ∃ l', check out proc site f rv ((d, l), k) = _ := check_of_ok hcode
    rw [hcheck]
    exact ⟨nofun, (attempt_view hf d).trans hs, fun _ _ => trivial⟩
  · obtain ⟨l', hcheck⟩ : ∃ l', check out proc site f rv ((d, l), k) = _ := check_of_fail hcode
    rw [hcheck]
    exact ⟨nofun, ((attempt_view hf _).trans (attempt_view hf d)).trans hs, nofun⟩

theorem quiet_look :
    Quiet HubStage.view (check out proc site look rv) v fun _ => True := quiet_check fun _ => rfl

end Checks

/-! ## Failing accesses -/

/-- In a function the accesses to the store fail as they are told to, and nothing else does. -/
structure Faults (out : HubOutcomes) (proc : HubProc) (a : Accesses) : Prop where
  rawGetLength : out (proc, .rawGetLength) 0 = 0 ↔ a.rawGetLength = true
  rawGet : out (proc, .rawGet) 0 = 0 ↔ a.rawGet = true
  rawSet : out (proc, .rawSet) 0 = 0 ↔ a.rawSet = true
  rawSetLogged : out (proc, .rawSet) 1 = 0 ↔ a.rawSetLogged = true
  other : ∀ site, site ∉ [.rawGetLength, .rawGet, .rawSet] → out (proc, site) 0 = 0

/-- How a function that returns this goes to its label. -/
def ended : HubErr → Except (Option HubRv) Unit
  | .succ => .ok ()
  | rv => .error (some (.rv rv))

theorem ended_of_ne {rv : HubErr} (h : rv ≠ .succ) : ended rv = .error (some (.rv rv)) := by
  cases rv with
  | succ => exact absurd rfl h
  | storage | memory | subdevNotFound | subdevExisted | outOfRange => rfl

theorem ended_ne_none (rv : HubErr) : ended rv ≠ .error none := by
  cases rv with
  | succ | storage | memory | subdevNotFound | subdevExisted | outOfRange =>
      intro h
      cases h

section Pieces

variable {p : Printer} {out : HubOutcomes} {proc : HubProc} {a : Accesses} {v : Store × Int}

theorem readList_ne_succ {kv : Store} {rv : HubErr} (h : readList a kv = .error rv) :
    rv ≠ .succ := by
  unfold readList at h
  dsimp only at h
  split at h
  · cases h
    decide
  split at h
  · cases h
  split at h
  · cases h
    decide
  split at h
  · cases h
    decide
  · cases h

theorem readListAt_runs (hf : Faults out proc a) : RunsTo HubStage.view (readListAt out proc) v
    ((readList a v.1).mapError fun rv => some (.rv rv)) v := by
  unfold readListAt readList
  by_cases hlength : a.rawGetLength = false
  · rw [if_pos hlength]
    refine RunsTo.stop_bind (runsTo_look_fail fun h => ?_) _
    rw [hf.rawGetLength.mp h] at hlength
    cases hlength
  rw [if_neg hlength]
  refine (runsTo_look (hf.rawGetLength.mpr (by simpa using hlength))).bind ?_
  have hlook {α : Type} (g : Store → α) :
      RunsTo HubStage.view (data fun s => g s.kv) v (.ok (g v.1)) v :=
    runsTo_data fun s hs => congrArg (fun v => g v.1) hs
  refine (hlook fun kv => kv.rawLength hublistKey hubListSize).bind ?_
  by_cases hzero : v.1.rawLength hublistKey hubListSize = 0
  · simp only [if_pos hzero]
    exact RunsTo.pure _
  simp only [if_neg hzero]
  refine (runsTo_look (hf.other _ (by decide))).bind ?_
  by_cases hget : a.rawGet = false
  · rw [if_pos hget]
    refine RunsTo.stop_bind (runsTo_look_fail fun h => ?_) _
    rw [hf.rawGet.mp h] at hget
    cases hget
  rw [if_neg hget]
  refine (runsTo_look (hf.rawGet.mpr (by simpa using hget))).bind ?_
  refine (hlook fun kv => kv.rawGet hublistKey _).bind ?_
  cases cJSONParse (v.1.rawGet hublistKey (v.1.rawLength hublistKey hubListSize)) with
  | none => exact runsTo_goto _
  | some root => exact (runsTo_look (hf.other _ (by decide))).bind (RunsTo.pure _)

theorem rawSet_runs (hf : Faults out proc a) (text : Bytes) :
    RunsTo HubStage.view (check out proc .rawSet
        (fun s => (0, { s with kv := s.kv.rawSet hublistKey text })) (.rv .storage)) v
      (ended (writeList a text v.1).1) ((writeList a text v.1).2, v.2) := by
  unfold writeList
  cases hset : a.rawSet with
  | true =>
      refine runsTo_check (hf.rawSet.mpr hset) fun d hd => ⟨rfl, ?_⟩
      cases hd
      rfl
  | false =>
      have hfail : out (proc, .rawSet) 0 ≠ 0 := by
        intro h
        rw [hf.rawSet.mp h] at hset
        cases hset
      refine runsTo_check_fail hfail fun d hd => ?_
      cases hd
      by_cases hlogged : a.rawSetLogged = true
      · rw [attempt_of_ok (hf.rawSetLogged.mpr hlogged), if_pos hlogged]
        rfl
      · rw [attempt_of_fail (mt hf.rawSetLogged.mp hlogged), if_neg hlogged]
        rfl

theorem writeListAt_runs (hf : Faults out proc a) (items : List Value) :
    RunsTo HubStage.view (writeListAt p out proc (.array items)) v
      (ended (writeList a (printList p items) v.1).1)
      ((writeList a (printList p items) v.1).2, v.2) :=
  (runsTo_look (hf.other _ (by decide))).bind (rawSet_runs hf _)

end Pieces

/-! ## Stored lists -/

section Listed

variable {p : Printer} {out : HubOutcomes} {proc : HubProc} {v : Store × Int}
  {entries : List SubdevEntry} {sn : CString}

/-- What is read is the list, as a whole. -/
theorem Kept.readList_some {kv : Store} (h : Kept p kv entries) {a : Accesses} {root : Value}
    (hread : readList a kv = .ok (some root)) :
    root = .array (entries.map SubdevEntry.toJson) := by
  by_cases hfits : (kv.value hublistKey).length ≤ hubListSize
  · cases hun : unreadable a kv with
    | true => cases (readList_unreadable hun).symm.trans hread
    | false =>
        rw [(h.listed hfits).readList hun] at hread
        split at hread
        · cases hread
        · cases hread
          rfl
  · obtain ⟨rv, -, herror⟩ := readList_truncated h (Nat.lt_of_not_le hfits) a
    cases herror.symm.trans hread

theorem readListAt_quiet (h : Kept p v.1 entries) :
    Quiet HubStage.view (readListAt out proc) v fun list =>
      ∀ root, list = some root → root = .array (entries.map SubdevEntry.toJson) := by
  refine quiet_look.bind fun _ _ => ?_
  have hlook {α : Type} (g : Store → α) :
      Quiet HubStage.view (data fun s => g s.kv) v fun a => a = g v.1 :=
    quiet_data fun d hd => congrArg (fun v => g v.1) hd
  refine (hlook fun kv => kv.rawLength hublistKey hubListSize).bind fun length hlength => ?_
  subst hlength
  by_cases hzero : v.1.rawLength hublistKey hubListSize = 0
  · rw [if_pos hzero]
    exact Quiet.pure nofun
  rw [if_neg hzero]
  refine quiet_look.bind fun _ _ => ?_
  refine quiet_look.bind fun _ _ => ?_
  refine (hlook fun kv => kv.rawGet hublistKey _).bind fun text htext => ?_
  subst htext
  cases hparse : cJSONParse (v.1.rawGet hublistKey (v.1.rawLength hublistKey hubListSize)) with
  | none => exact quiet_goto _
  | some root =>
      have hread : readList .fine v.1 = .ok (some root) := by
        simp [readList, Accesses.fine, hzero, hparse]
      refine quiet_look.bind fun _ _ => Quiet.pure fun root' hroot => ?_
      cases hroot
      exact h.readList_some hread

theorem foundList_quiet (h : Kept p v.1 entries) :
    Quiet HubStage.view (foundList out proc) v fun root =>
      root = .array (entries.map SubdevEntry.toJson) := by
  refine (readListAt_quiet h).bind fun list hlist => ?_
  cases list with
  | none => exact quiet_goto _
  | some root => exact Quiet.pure (hlist root rfl)

theorem findAt_entries (sn : CString) (entries : List SubdevEntry) :
    findAt sn (.array (entries.map SubdevEntry.toJson)) =
      pure (entries.findIdx? (SubdevEntry.isOf sn)) := by
  unfold findAt
  rw [children_array, findDevBySn_entries]

theorem decodeAt_entries {index : Nat} {e : SubdevEntry} (h : entries[index]? = some e) :
    decodeAt (.array (entries.map SubdevEntry.toJson)) index = pure e.info := by
  unfold decodeAt
  rw [children_array, List.getElem?_map, h]
  simp only [Option.map_some, SubdevEntry.jsonToSubdev_toJson]

theorem decodeAt_quiet (index : Nat) :
    Quiet HubStage.view (decodeAt (.array (entries.map SubdevEntry.toJson)) index) v
      fun _ => True := by
  cases hindex : entries[index]? with
  | some e =>
      rw [decodeAt_entries hindex]
      exact Quiet.pure trivial
  | none =>
      unfold decodeAt
      rw [children_array, List.getElem?_map, hindex]
      exact quiet_goto _

/-! ## Operations that only read -/

theorem sendReport_quiet (cmd : HubCmd) (items : List Value) :
    Quiet HubStage.view (sendReport p out proc cmd items) v fun _ => True :=
  quiet_look.bind fun _ _ => quiet_check fun _ => rfl

theorem listReport_ends (h : Kept p v.1 entries) :
    Ends HubStage.view (hubSubdevListReport p out) v v := by
  refine Quiet.ends_locked (P := fun _ => True) (fun _ _ _ => rfl) ?_
  refine quiet_look.bind fun _ _ => ?_
  refine (readListAt_quiet h).bind fun list hlist => ?_
  cases list with
  | none => exact quiet_check fun _ => rfl
  | some root =>
      obtain rfl := hlist root rfl
      simp only [children_array, mapM_entries]
      exact sendReport_quiet _ _

theorem staReport_ends (h : Kept p v.1 entries) :
    Ends HubStage.view (hubSubdevStaReport p out) v v := by
  refine Quiet.ends_locked (P := fun _ => True) (fun _ _ _ => rfl) ?_
  refine quiet_look.bind fun _ _ => ?_
  refine (foundList_quiet h).bind fun root hroot => ?_
  subst hroot
  simp only [children_array, mapM_entries]
  exact sendReport_quiet _ _

theorem authDo_ends (md5 : Bytes → Bytes) (d : SubdevInfo) :
    Ends HubStage.view (hubSubdevAuthDoAt md5 p out d) v v := by
  refine Quiet.ends_toLabel (P := fun _ => True) ?_
  refine quiet_look.bind fun _ _ => ?_
  refine quiet_look.bind fun _ _ => ?_
  refine Quiet.bind (P := fun _ => True) (fun s hs => ⟨nofun, ?_, fun _ _ => trivial⟩)
    fun _ _ => Quiet.pure trivial
  exact (attempt_view (fun _ => rfl) s.1.1).trans hs

theorem query_ends (h : Kept p v.1 entries) (sn : CString) :
    Ends HubStage.view (hubSubdevQueryAt out sn) v v := by
  refine Quiet.ends_locked (P := fun _ => True) (fun _ _ _ => rfl) ?_
  refine (foundList_quiet h).bind fun root hroot => ?_
  subst hroot
  unfold foundAt
  rw [findAt_entries, pure_bind]
  cases entries.findIdx? (SubdevEntry.isOf sn) with
  | none => exact quiet_goto _
  | some index =>
      exact Quiet.bind (P := fun _ => True) (Quiet.pure trivial) fun index _ => decodeAt_quiet index

theorem next_ends (h : Kept p v.1 entries) (record : SubdevInfo) :
    Ends HubStage.view (hubSubdevNextAt out record) v v := by
  refine Quiet.ends_locked (P := fun _ => True) (fun _ _ _ => rfl) ?_
  refine (readListAt_quiet h).bind fun list hlist => ?_
  cases list with
  | none => exact quiet_goto _
  | some root =>
      obtain rfl := hlist root rfl
      refine Quiet.bind (P := fun _ => True) ?_ fun index _ => decodeAt_quiet index
      unfold nextIndex
      split
      · split
        · exact quiet_goto _
        · exact Quiet.pure trivial
      · rw [findAt_entries, pure_bind]
        split
        · exact quiet_goto _
        · split
          · exact quiet_goto _
          · exact Quiet.pure trivial

end Listed

/-! ## Operations that write -/

/-- The view that an operation leaves which returns this. -/
def HubOp.left (op : HubOp) (a : Accesses) (v : Store × Int) (r : HubErr × Store) : Store × Int :=
  (r.2, op.count a v.1 r.1 v.2)

section Edits

variable {p : Printer} {out : HubOutcomes} {proc : HubProc} {a : Accesses} {v : Store × Int}
  {entries : List SubdevEntry} {sn : CString} {op : HubOp}

theorem failed_runs {x : HubM Unit} {rv : HubErr} (hrv : rv ≠ .succ)
    (hx : RunsTo HubStage.view x v (.error (some (.rv rv))) v) :
    RunsTo HubStage.view x v (ended rv) (op.left a v (rv, v.1)) := by
  have hleft : op.left a v (rv, v.1) = v := Prod.ext rfl (HubOp.count_of_error hrv v.2)
  rw [ended_of_ne hrv, hleft]
  exact hx

/-- What stands behind a write is done where the list was stored at once. -/
theorem written_runs (hf : Faults out proc a) (items : List Value) {rest : HubM Unit}
    (hrest : ∀ kv, RunsTo HubStage.view rest (kv, v.2) (.ok ()) (kv, op.count a v.1 .succ v.2)) :
    RunsTo HubStage.view (writeListAt p out proc (.array items) >>= fun _ => rest) v
      (ended (writeList a (printList p items) v.1).1)
      (op.left a v (writeList a (printList p items) v.1)) := by
  have hwrite := writeListAt_runs (p := p) (v := v) hf items
  unfold writeList at hwrite ⊢
  cases hset : a.rawSet with
  | true =>
      rw [hset] at hwrite
      exact hwrite.bind (hrest _)
  | false =>
      rw [hset] at hwrite
      have hrv : HubErr.storage ≠ .succ := by decide
      have hcount : op.count a v.1 .storage v.2 = v.2 := HubOp.count_of_error hrv v.2
      simp only [Bool.false_eq_true, if_false, HubOp.left, hcount] at hwrite ⊢
      exact hwrite.stop_bind _

/-- An operation on one element: what it does behind the search decides. -/
theorem editSubdev_runs (h : Kept p v.1 entries) (hf : Faults out proc a)
    {edit : List Value → Nat → Option (List Value)} {rest : Value → Nat → HubM Unit}
    (hrest : ∀ index, entries.findIdx? (SubdevEntry.isOf sn) = some index →
      readList a v.1 = .ok (some (.array (entries.map SubdevEntry.toJson))) →
        ∃ items, edit (entries.map SubdevEntry.toJson) index = some items ∧
          RunsTo HubStage.view (rest (.array (entries.map SubdevEntry.toJson)) index) v
            (ended (writeList a (printList p items) v.1).1)
            (op.left a v (writeList a (printList p items) v.1)))
    {r : HubErr × Store} (hrun : editSubdev p a sn edit v.1 = some r) :
    RunsTo HubStage.view (foundList out proc >>= fun root => foundAt sn root >>= rest root) v
      (ended r.1) (op.left a v r) := by
  have hread := readListAt_runs (v := v) hf
  unfold editSubdev at hrun
  cases hlist : readList a v.1 with
  | error rv =>
      rw [hlist] at hrun hread
      cases hrun
      exact failed_runs (readList_ne_succ hlist) ((hread.stop_bind _).stop_bind _)
  | ok list =>
      rw [hlist] at hrun hread
      have hnone : HubErr.subdevNotFound ≠ .succ := by decide
      cases list with
      | none =>
          cases hrun
          exact failed_runs hnone ((hread.bind (runsTo_goto _)).stop_bind _)
      | some root =>
          obtain rfl := h.readList_some hlist
          have hroot : RunsTo HubStage.view (foundList out proc) v
              (.ok (.array (entries.map SubdevEntry.toJson))) v := hread.bind (.pure _)
          simp only [findDevBySn_entries] at hrun
          have hfound := findAt_entries sn entries
          cases hfind : entries.findIdx? (SubdevEntry.isOf sn) with
          | none =>
              rw [hfind] at hrun hfound
              cases hrun
              refine failed_runs hnone (hroot.bind (.stop_bind ?_ _))
              unfold foundAt
              rw [hfound, pure_bind]
              exact runsTo_goto _
          | some index =>
              rw [hfind] at hrun hfound
              obtain ⟨items, hedit, hrest⟩ := hrest index hfind hlist
              simp only [hedit, Option.map_some] at hrun
              cases hrun
              refine hroot.bind (.bind (a := index) ?_ hrest)
              unfold foundAt
              rw [hfound, pure_bind]
              exact .pure _

/-- The element with another member, where there was memory for that. -/
theorem replacedAt_entries (hcreate : out (proc, .createItem) 0 = 0) {name : String} {x : Value}
    {f : SubdevEntry → SubdevEntry}
    (hjson : ∀ e : SubdevEntry, e.toJson.replaceItemInObject name x = (f e).toJson) {index : Nat}
    (hfind : entries.findIdx? (SubdevEntry.isOf sn) = some index) :
    replacedAt out proc index name x (.array (entries.map SubdevEntry.toJson)) =
      .array ((Slots.modifyFirst (SubdevEntry.isOf sn) f entries).map SubdevEntry.toJson) := by
  rcases findIdx?_eq_some_split hfind with ⟨pre, e, post, rfl, rfl, he, hpre⟩
  have hlt : pre.length < ((pre ++ e :: post).map SubdevEntry.toJson).length := by simp
  rw [replacedAt, if_pos hcreate, modifyItem, List.modify_eq_take_cons_drop hlt,
    Slots.modifyFirst_append hpre he]
  simp [hjson, List.drop_append]

theorem getElem?_found {f : SubdevEntry → SubdevEntry} {index : Nat}
    (hfind : entries.findIdx? (SubdevEntry.isOf sn) = some index) :
    ∃ e, entries[index]? = some e ∧
      (Slots.modifyFirst (SubdevEntry.isOf sn) f entries)[index]? = some (f e) := by
  rcases findIdx?_eq_some_split hfind with ⟨pre, e, post, rfl, rfl, he, hpre⟩
  rw [Slots.modifyFirst_append hpre he]
  exact ⟨e, by simp, by simp⟩

/-- A report stands behind an operation that worked. -/
theorem reported_ends {report : HubM (Except HubRv Unit)} {w : Store × Int}
    (hreport : Ends HubStage.view report w w) (r : Except HubRv Unit) :
    Ends HubStage.view (reported report r) w w := by
  cases r with
  | error rv => exact .pure _
  | ok _ => exact hreport.bind fun _ => .pure _

theorem edit_ends {body : HubM Unit} {report : HubM (Except HubRv Unit)} {r : HubErr × Store}
    (h : Kept p v.1 entries) (hrun : op.run p a v.1 = some r)
    (hbody : RunsTo HubStage.view body v (ended r.1) (op.left a v r))
    (hreport : ∀ entries', Kept p r.2 entries' →
      Ends HubStage.view report (op.left a v r) (op.left a v r)) :
    Ends HubStage.view (locked body >>= reported report) v (op.left a v r) := by
  obtain ⟨entries', hkept, -⟩ := h.after hrun
  exact (Ends.locked_of_runsTo (fun _ _ _ => rfl) hbody (ended_ne_none _)).bind
    (reported_ends (hreport entries' hkept))

theorem statusUpdate_ends (h : Kept p v.1 entries) (hf : Faults out .statusUpdate a)
    {online : Bool} {r : HubErr × Store}
    (hrun : (HubOp.statusUpdate sn online).run p a v.1 = some r) :
    Ends HubStage.view (hubStatusUpdateDoAt p out sn online) v
      ((HubOp.statusUpdate sn online).left a v r) := by
  refine edit_ends h hrun (editSubdev_runs h hf (fun index hfind _ => ?_) hrun)
    fun entries' hkept => staReport_ends hkept
  have hjson (e : SubdevEntry) : e.toJson.replaceItemInObject "sta" (.bool online) =
      SubdevEntry.toJson { e with sta := .online online } := rfl
  refine ⟨_, replaceAt_entries hjson hfind, ?_⟩
  rw [replacedAt_entries (hf.other _ (by decide)) hjson hfind,
    ← bind_pure_unit (x := writeListAt p out _ _)]
  refine written_runs hf _ fun kv => ?_
  exact .pure ()

theorem verUpdate_ends (h : Kept p v.1 entries) (hf : Faults out .verUpdate a) {ver : CString}
    {r : HubErr × Store} (hrun : (HubOp.verUpdate sn ver).run p a v.1 = some r) :
    Ends HubStage.view (hubVerUpdateDoAt p out sn ver) v ((HubOp.verUpdate sn ver).left a v r) := by
  refine edit_ends h hrun (editSubdev_runs h hf (fun index hfind _ => ?_) hrun)
    fun entries' hkept => listReport_ends hkept
  have hjson (e : SubdevEntry) : e.toJson.replaceItemInObject "ver" (.string ver.val) =
      SubdevEntry.toJson { e with ver := ver } := rfl
  obtain ⟨e, he, hnew⟩ := getElem?_found (f := fun e => { e with ver := ver }) hfind
  refine ⟨_, (decoded_entries hfind).trans (replaceAt_entries hjson hfind), ?_⟩
  rw [decodeAt_entries he, pure_bind, replacedAt_entries (hf.other _ (by decide)) hjson hfind]
  refine written_runs hf _ fun kv => ?_
  rw [decodeAt_entries hnew, pure_bind]
  exact .pure ()

theorem authPassed_ends (h : Kept p v.1 entries) (hf : Faults out .authPassed a)
    {r : HubErr × Store} (hrun : (HubOp.authPassed sn).run p a v.1 = some r) :
    Ends HubStage.view (hubSubdevAuthPassedAt p out sn) v ((HubOp.authPassed sn).left a v r) := by
  refine edit_ends h hrun (editSubdev_runs h hf (fun index hfind _ => ?_) hrun)
    fun entries' hkept => listReport_ends hkept
  have hjson (e : SubdevEntry) : e.toJson.replaceItemInObject "access" (.number (.ofInt 1)) =
      SubdevEntry.toJson { e with access := 1 } := rfl
  obtain ⟨e, he, -⟩ := getElem?_found (f := fun e => { e with access := 1 }) hfind
  refine ⟨_, (decoded_entries hfind).trans (replaceAt_entries hjson hfind), ?_⟩
  rw [decodeAt_entries he, pure_bind, replacedAt_entries (hf.other _ (by decide)) hjson hfind]
  exact written_runs hf _ fun kv => runsTo_update fun d hd => hd

theorem del_ends (h : Kept p v.1 entries) (hf : Faults out .del a) {r : HubErr × Store}
    (hrun : (HubOp.del sn).run p a v.1 = some r) :
    Ends HubStage.view (hubDelDoAt p out sn) v ((HubOp.del sn).left a v r) := by
  refine edit_ends h hrun (editSubdev_runs h hf (fun index hfind hread => ?_) hrun)
    fun entries' hkept => listReport_ends hkept
  obtain ⟨e, he, -⟩ := getElem?_found (f := fun e => e) hfind
  refine ⟨_, decoded_entries hfind, ?_⟩
  rw [decodeAt_entries he, pure_bind]
  have hitem : (entries.map SubdevEntry.toJson)[index]? = some e.toJson := by
    rw [List.getElem?_map, he]
    rfl
  have haccess : delAccess a sn v.1 = some e.info.access := by
    simp only [delAccess, hread, findDevBySn_entries, hfind, hitem, Option.bind_some,
      SubdevEntry.jsonToSubdev_toJson, Option.map_some]
  have hcount : (HubOp.del sn).count a v.1 .succ v.2 =
      if e.info.access = 0 then v.2 - 1 else v.2 := by
    simp only [HubOp.count, haccess, true_and, Option.some_inj]
  refine written_runs hf _ fun kv => ?_
  rw [hcount]
  split
  · refine runsTo_update fun d hd => ?_
    obtain ⟨hkv, hold⟩ := Prod.mk.inj hd
    exact Prod.ext hkv (congrArg (· - 1) hold)
  · exact .pure ()

theorem addTo_ends (hf : Faults out .add a) (md5 : Bytes → Bytes) {d : SubdevInfo}
    {items : List Value}
    (htarget : RunsTo HubStage.view (addTarget out d) v (.ok (.array items)) v) :
    Ends HubStage.view (hubAddDoAt md5 p out d) v
      ((HubOp.add d).left a v (addTo p a d items v.1)) := by
  refine Ends.locked_of_runsTo (r := ended (addTo p a d items v.1).1) (fun _ _ _ => rfl)
    (htarget.bind ?_) (ended_ne_none _)
  rw [children_array]
  unfold addTo
  split
  · exact failed_runs nofun (runsTo_goto _)
  have hobject : objectOf out .add 0 (subdevFields d) = subdevToJson d := by
    have hall : (subdevFields d).filter (fun m => decide (out (.add, .addField 0 m.1) 0 = 0)) =
        subdevFields d :=
      List.filter_eq_self.mpr fun m _ => decide_eq_true (hf.other _ (by simp))
    rw [objectOf, hall]
    rfl
  rw [hobject]
  refine (runsTo_look (hf.other _ (by decide))).bind (written_runs hf _ fun kv => ?_)
  have hcounted : RunsTo HubStage.view
      (update fun s => { s with gUnauthCount := s.gUnauthCount + 1 }) (kv, v.2) (.ok ())
      (kv, v.2 + 1) := runsTo_update fun d hd => by
    obtain ⟨hkv, hold⟩ := Prod.mk.inj hd
    exact Prod.ext hkv (congrArg (· + 1) hold)
  exact hcounted.bind (authDo_ends md5 d).discard

theorem add_ends (h : Kept p v.1 entries) (hf : Faults out .add a) (md5 : Bytes → Bytes)
    {d : SubdevInfo} {r : HubErr × Store} (hrun : (HubOp.add d).run p a v.1 = some r) :
    Ends HubStage.view (hubAddDoAt md5 p out d) v ((HubOp.add d).left a v r) := by
  have hfailed {rv : HubErr} (hrv : rv ≠ .succ)
      (htarget : RunsTo HubStage.view (addTarget out d) v (.error (some (.rv rv))) v) :
      Ends HubStage.view (hubAddDoAt md5 p out d) v ((HubOp.add d).left a v (rv, v.1)) :=
    Ends.locked_of_runsTo (fun _ _ _ => rfl) (failed_runs hrv (htarget.stop_bind _))
      (ended_ne_none _)
  have hread := readListAt_runs (v := v) hf
  change hubAddDo p a d v.1 = some r at hrun
  unfold hubAddDo at hrun
  cases hlist : readList a v.1 with
  | error rv =>
      rw [hlist] at hrun hread
      cases hrun
      exact hfailed (readList_ne_succ hlist) (hread.stop_bind _)
  | ok list =>
      rw [hlist] at hrun hread
      cases list with
      | none =>
          cases hrun
          exact addTo_ends hf md5
            (hread.bind ((runsTo_look (hf.other _ (by decide))).bind (.pure _)))
      | some root =>
          obtain rfl := h.readList_some hlist
          simp only [findDevBySn_entries] at hrun
          have hfound := findAt_entries d.sn.toCString entries
          cases hfind : entries.findIdx? (SubdevEntry.isOf d.sn.toCString) with
          | some index =>
              rw [hfind] at hrun hfound
              cases hrun
              refine hfailed nofun (hread.bind ?_)
              simp only [hfound, pure_bind]
              exact runsTo_goto _
          | none =>
              rw [hfind] at hrun hfound
              cases hrun
              refine addTo_ends hf md5 (hread.bind ?_)
              simp only [hfound, pure_bind]
              exact .pure _

/-- Where the empty list is not written at once, the mutex stays taken and there is no
report. -/
theorem clean_ends (h : Kept p v.1 entries) (hf : Faults out .clean a) {r : HubErr × Store}
    (hrun : HubOp.clean.run p a v.1 = some r) :
    Ends HubStage.view (hubCleanDoAt p out) v (HubOp.clean.left a v r) := by
  obtain ⟨entries', hkept, -⟩ := h.after hrun
  cases hrun
  have hcheck : RunsTo HubStage.view (check out .clean .rawSet clearList (.rv .storage)) v
      (ended (writeList a [] v.1).1) (HubOp.clean.left a v (writeList a [] v.1)) :=
    rawSet_runs hf []
  cases hset : a.rawSet with
  | true =>
      rw [hubCleanDoAt_of_ok (hf.rawSet.mpr hset)]
      exact (Ends.locked_of_runsTo (fun _ _ _ => rfl) hcheck (ended_ne_none _)).bind
        (reported_ends (listReport_ends hkept))
  | false =>
      have hstorage : (writeList a [] v.1).1 = .storage := by
        rw [writeList, hset]
        rfl
      rw [hstorage] at hcheck
      intro s hs
      obtain ⟨hr, hv⟩ := hcheck (s.1, s.2.take) hs
      cases hrun : check out .clean .rawSet clearList (.rv .storage) (s.1, s.2.take) with
      | mk r s' =>
          rw [hrun] at hr hv
          cases hr
          show (∃ x, ((toLabel _ >>= _) (s.1, s.2.take)).1 = .ok x) ∧
            HubStage.view ((toLabel _ >>= _) (s.1, s.2.take)).2 = _
          rw [bind_run, toLabel_of_jump hrun]
          exact ⟨⟨_, rfl⟩, hv⟩

/-- Whatever fails in the query, the device is deleted. -/
theorem authFailure_ends (h : Kept p v.1 entries) (hf : Faults out .del a) {query : Accesses}
    {r : HubErr × Store} (hrun : (HubOp.authFailure query sn).run p a v.1 = some r) :
    Ends HubStage.view (hubSubdevAuthFailureAt p out sn) v
      ((HubOp.authFailure query sn).left a v r) := by
  obtain ⟨info, -, hdel⟩ := Option.bind_eq_some_iff.mp hrun
  refine (query_ends h sn).bind fun info => ?_
  refine Ends.bind (Ends.of_runsTo (runsTo_update ?_)) fun _ => del_ends h hf hdel
  exact fun d hd => hd

end Edits

end EzIot.Hub
