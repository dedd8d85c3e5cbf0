import EzIot.Hub.Effects

/-! # Two models of the hub

The hub with the mutex runs as the hub over the store does, as long as the memory suffices.
What holds of the one in all runs holds of the other.
-/

namespace EzIot.Hub

open CText CJson Kv Run Program Faulty Guard Views

/-! ## One hub and the other -/

/-- A call on the store, and the operation where nothing else fails than it says. What fails in
reports, in requests and in the query does not matter. -/
inductive Plays : HubCall × Accesses → HubOperation × HubOutcomes → Prop
  | add {info : EzSubdevInfo} {a : Accesses} {out : HubOutcomes} :
      Faults out .add a → Plays (.add info, a) (.add info.internal, out)
  | del {sn : CString} {a : Accesses} {out : HubOutcomes} :
      Faults out .del a → Plays (.del sn, a) (.del sn, out)
  | verUpdate {sn ver : CString} {a : Accesses} {out : HubOutcomes} :
      Faults out .verUpdate a → Plays (.verUpdate sn ver, a) (.verUpdate sn ver, out)
  | statusUpdate {sn : CString} {online : Bool} {a : Accesses} {out : HubOutcomes} :
      Faults out .statusUpdate a → Plays (.statusUpdate sn online, a) (.statusUpdate sn online, out)
  | clean {a : Accesses} {out : HubOutcomes} : Faults out .clean a → Plays (.clean, a) (.clean, out)
  | authDone {query a : Accesses} {buf : Option Bytes} {len : Nat} {out : HubOutcomes} :
      out (.authDone, .parse) 0 = 0 → Faults out .authPassed a → Faults out .del a →
        Plays (.authDone query buf len, a) (.authDone buf len, out)

/-- The same list and counter, and the mutex is free in both or in none. -/
structure Represents (h : HubState) (g : LockedHub) : Prop where
  view : g.data.view = (h.kv, h.gUnauthCount)
  free : g.gHlock.Free ↔ h.locked = false

/-- What fails in a function, by the accesses to the store alone. -/
def Accesses.outcomes (a : Accesses) : HubOutcomes
  | (_, .rawGetLength), _ => if a.rawGetLength then 0 else -1
  | (_, .rawGet), _ => if a.rawGet then 0 else -1
  | (_, .rawSet), 0 => if a.rawSet then 0 else -1
  | (_, .rawSet), _ => if a.rawSetLogged then 0 else -1
  | _, _ => 0

theorem faults_outcomes (a : Accesses) (proc : HubProc) : Faults a.outcomes proc a := by
  constructor
  case rawGetLength | rawGet | rawSet | rawSetLogged => simp [Accesses.outcomes]
  case other =>
    intro site hsite
    cases site with
    | rawGetLength | rawGet | rawSet => exact absurd hsite (by decide)
    | createArray | malloc | parse | createObject | addField | createItem | print | send => rfl

theorem exists_plays (i : HubCall × Accesses) : ∃ j, Plays i j := by
  obtain ⟨call, a⟩ := i
  cases call with
  | add info => exact ⟨_, .add (faults_outcomes a _)⟩
  | del sn => exact ⟨_, .del (faults_outcomes a _)⟩
  | verUpdate sn ver => exact ⟨_, .verUpdate (faults_outcomes a _)⟩
  | statusUpdate sn online => exact ⟨_, .statusUpdate (faults_outcomes a _)⟩
  | clean => exact ⟨_, .clean (faults_outcomes a _)⟩
  | authDone query buf len =>
      exact ⟨_, .authDone rfl (faults_outcomes a _) (faults_outcomes a _)⟩

section Simulation

variable {md5 : Bytes → Bytes} {p : Printer} {i : HubCall × Accesses}
  {j : HubOperation × HubOutcomes} {v : Store × Int} {entries : List SubdevEntry}

/-- A reply that can be parsed and the function that is called for it. -/
theorem authDoneAt_cases (p : Printer) {out : HubOutcomes} (hparse : out (.authDone, .parse) 0 = 0)
    (query : Accesses) (buf : Option Bytes) (len : Nat) :
    (hubSubdevAuthDone query buf len = none ∧ hubSubdevAuthDoneAt p out buf len = nullPointer) ∨
      (hubSubdevAuthDone query buf len = some none ∧
        hubSubdevAuthDoneAt p out buf len = pure ()) ∨
      (∃ sn, hubSubdevAuthDone query buf len = some (some (.authPassed sn)) ∧
        hubSubdevAuthDoneAt p out buf len =
          (hubSubdevAuthPassedAt p out sn >>= fun _ => pure ())) ∨
      ∃ sn, hubSubdevAuthDone query buf len = some (some (.authFailure query sn)) ∧
        hubSubdevAuthDoneAt p out buf len =
          (hubSubdevAuthFailureAt p out sn >>= fun _ => pure ()) := by
  unfold hubSubdevAuthDoneAt
  rw [if_neg (not_not.mpr hparse)]
  rcases hubSubdevAuthDone_cases buf len with h | h | ⟨sn, h⟩ | ⟨sn, h⟩
  · rw [h .fine]
    exact .inl ⟨h query, rfl⟩
  · rw [h .fine]
    exact .inr (.inl ⟨h query, rfl⟩)
  · rw [h .fine]
    exact .inr (.inr (.inl ⟨sn, h query, rfl⟩))
  · rw [h .fine]
    exact .inr (.inr (.inr ⟨sn, h query, rfl⟩))

theorem Plays.runs (md5 : Bytes → Bytes) (hplays : Plays i j) (h : Kept p v.1 entries) {op : HubOp}
    (hop : i.1.op = some (some op)) {r : HubErr × Store} (hrun : op.run p i.2 v.1 = some r) :
    RunsTo HubStage.view (j.1.program md5 p j.2) v (.ok ()) (op.left i.2 v r) := by
  cases hplays with
  | add hf =>
      cases hop
      exact (add_ends h hf md5 hrun).discard
  | del hf =>
      cases hop
      exact (del_ends h hf hrun).discard
  | verUpdate hf =>
      cases hop
      exact (verUpdate_ends h hf hrun).discard
  | statusUpdate hf =>
      cases hop
      exact (statusUpdate_ends h hf hrun).discard
  | clean hf =>
      cases hop
      exact (clean_ends h hf hrun).discard
  | @authDone query a buf len out hparse hpassed hdel =>
      change hubSubdevAuthDone query buf len = some (some op) at hop
      change RunsTo HubStage.view (hubSubdevAuthDoneAt p out buf len) v _ _
      rcases authDoneAt_cases p hparse query buf len with
        ⟨hd, -⟩ | ⟨hd, -⟩ | ⟨sn, hd, hat⟩ | ⟨sn, hd, hat⟩
      · cases hd.symm.trans hop
      · cases hd.symm.trans hop
      · cases hd.symm.trans hop
        rw [hat]
        exact (authPassed_ends h hpassed hrun).discard
      · cases hd.symm.trans hop
        rw [hat]
        exact (authFailure_ends h hdel hrun).discard

theorem Plays.idle (hplays : Plays i j) (hop : i.1.op = some none) :
    j.1.program md5 p j.2 = pure () := by
  cases hplays with
  | add | del | verUpdate | statusUpdate | clean => cases hop
  | @authDone query a buf len out hparse hpassed hdel =>
      change hubSubdevAuthDone query buf len = some none at hop
      change hubSubdevAuthDoneAt p out buf len = _
      rcases authDoneAt_cases p hparse query buf len with
        ⟨hd, -⟩ | ⟨-, hat⟩ | ⟨sn, hd, -⟩ | ⟨sn, hd, -⟩
      · cases hd.symm.trans hop
      · exact hat
      · cases hd.symm.trans hop
      · cases hd.symm.trans hop

theorem Plays.stuck (hplays : Plays i j) (hop : i.1.op = none) :
    j.1.program md5 p j.2 = nullPointer := by
  cases hplays with
  | add | del | verUpdate | statusUpdate | clean => cases hop
  | @authDone query a buf len out hparse hpassed hdel =>
      change hubSubdevAuthDone query buf len = none at hop
      change hubSubdevAuthDoneAt p out buf len = _
      rcases authDoneAt_cases p hparse query buf len with
        ⟨-, hat⟩ | ⟨hd, -⟩ | ⟨sn, hd, -⟩ | ⟨sn, hd, -⟩
      · exact hat
      · cases hd.symm.trans hop
      · cases hd.symm.trans hop
      · cases hd.symm.trans hop

theorem Plays.clean_iff (hplays : Plays i j) {op : HubOp} (hop : i.1.op = some (some op)) :
    op = .clean ↔ j.1 = .clean := by
  cases hplays with
  | add | del | verUpdate | statusUpdate | clean =>
      cases hop
      simp
  | @authDone query a buf len out hparse hpassed hdel =>
      change hubSubdevAuthDone query buf len = some (some op) at hop
      refine iff_of_false ?_ nofun
      rintro rfl
      rcases hubSubdevAuthDone_cases buf len with hd | hd | ⟨sn, hd⟩ | ⟨sn, hd⟩
      all_goals cases (hd query).symm.trans hop

theorem Plays.rawSet (hplays : Plays i j) (hclean : j.1 = .clean) :
    j.2 (.clean, .rawSet) 0 = 0 ↔ i.2.rawSet = true := by
  cases hplays with
  | clean hf => exact hf.rawSet
  | add | del | verUpdate | statusUpdate | authDone => cases hclean

/-- A free mutex is free again but behind a list that could not be cleaned. -/
theorem Plays.free (hplays : Plays i j) {op : HubOp} (hop : i.1.op = some (some op)) {kv : Store}
    {r : HubErr × Store} (hrun : op.run p i.2 kv = some r) {s s' : HubStage} (hs : s.2.Free)
    (hprogram : j.1.program md5 p j.2 s = (.ok (), s')) :
    s'.2.Free ↔ ¬ (op = .clean ∧ r.1 ≠ .succ) := by
  by_cases hclean : j.1 = .clean
  · have hcode : r.1 = .succ ↔ i.2.rawSet = true := by
      cases (hplays.clean_iff hop).mpr hclean
      cases hrun
      unfold writeList
      cases i.2.rawSet with
      | true => exact iff_of_true rfl rfl
      | false => exact iff_of_false nofun nofun
    by_cases hset : j.2 (.clean, .rawSet) 0 = 0
    · have hsucc : r.1 = .succ := hcode.mpr ((hplays.rawSet hclean).mp hset)
      exact iff_of_true ((disciplined_program fun _ => hset).free s () s' hs hprogram)
        fun h => h.2 hsucc
    · have hne : r.1 ≠ .succ := fun h => hset ((hplays.rawSet hclean).mpr (hcode.mp h))
      refine iff_of_false ?_ fun h => h ⟨(hplays.clean_iff hop).mpr hclean, hne⟩
      obtain ⟨t, hfail⟩ := hubCleanDoAt_of_fail (p := p) hset s
      rw [hclean] at hprogram
      change (hubCleanDoAt p j.2 >>= fun _ => pure ()) s = _ at hprogram
      rw [bind_run, hfail] at hprogram
      cases hprogram
      intro hfree
      have hcount : s.2.count + 1 = 0 := hfree.count
      have hzero := hs.count
      omega
  · exact iff_of_true
      ((disciplined_program fun h => absurd h hclean).free s () s' hs hprogram)
      fun h => hclean ((hplays.clean_iff hop).mp h.1)

/-- A call of the hub over the store is a call of the hub with the mutex. -/
theorem Represents.step (md5 : Bytes → Bytes) {h h' : HubState} {g : LockedHub}
    (hr : Represents h g)
    (hk : Kept p h.kv entries) (hplays : Plays i j) (hstep : h.step p i = some h') :
    ∃ g', g.step md5 p j = some g' ∧ Represents h' g' := by
  unfold HubState.step at hstep
  split at hstep
  · cases hstep
  · next hop =>
      cases hstep
      refine ⟨g, ?_, hr⟩
      rw [LockedHub.step, hplays.idle hop]
      rfl
  · next op hop =>
      split at hstep
      · cases hstep
      next hlocked =>
        obtain ⟨r, hrun, rfl⟩ := Option.map_eq_some_iff.mp hstep
        have hfree : g.gHlock.Free := hr.free.mpr (Bool.eq_false_iff.mpr hlocked)
        obtain ⟨hreturns, hview⟩ :=
          hplays.runs md5 (v := (h.kv, h.gUnauthCount)) hk hop hrun g.stage hr.view
        cases hprogram : j.1.program md5 p j.2 g.stage with
        | mk result s' =>
            rw [hprogram] at hreturns hview
            cases hreturns
            refine ⟨s'.hub, by rw [LockedHub.step, hprogram], hview, ?_⟩
            show s'.2.Free ↔ decide _ = false
            rw [decide_eq_false_iff_not]
            exact hplays.free hop hrun hfree hprogram

/-- The operations that change nothing. -/
def HubOperation.reads : HubOperation → Bool
  | .query _ => true
  | .next _ => true
  | .listReport => true
  | .staReport => true
  | _ => false

theorem reads_runs (md5 : Bytes → Bytes) {o : HubOperation} (out : HubOutcomes)
    (h : Kept p v.1 entries)
    (hreads : o.reads = true) : RunsTo HubStage.view (o.program md5 p out) v (.ok ()) v := by
  cases o with
  | query sn => exact (query_ends h sn).discard
  | next record => exact (next_ends h record).discard
  | listReport => exact (listReport_ends h).discard
  | staReport => exact (staReport_ends h).discard
  | add | del | verUpdate | statusUpdate | clean | authDone | authPassed | authFailure =>
      cases hreads

theorem Represents.reads {h : HubState} {g g' : LockedHub} (hr : Represents h g)
    (hk : Kept p h.kv entries) (hfree : g.gHlock.Free) (hreads : j.1.reads = true)
    (hstep : g.step md5 p j = some g') : Represents h g' := by
  obtain ⟨s', hprogram, rfl⟩ := step_eq_some hstep
  obtain ⟨-, hview⟩ :=
    reads_runs md5 j.2 (v := (h.kv, h.gUnauthCount)) hk hreads g.stage hr.view
  rw [hprogram] at hview
  have hclean : j.1 ≠ .clean := by
    intro h
    rw [h] at hreads
    cases hreads
  have hfree' : s'.2.Free :=
    (disciplined_program fun h => absurd h hclean).free g.stage () s' hfree hprogram
  exact ⟨hview, iff_of_true hfree' (hr.free.mp hfree)⟩

end Simulation

/-! ## Runs -/

/-- A call that finds the mutex free, and in which nothing fails but accesses to the store. -/
def StoreFails (g : LockedHub) (j : HubOperation × HubOutcomes) : Prop :=
  g.gHlock.Free ∧ (j.1.reads = true ∨ ∃ i, Plays i j)

theorem represents_start : Represents .initial (.start emptyHub) :=
  ⟨rfl, iff_of_true (free_start _) rfl⟩

/-- Every run of the hub over the store is a run of the hub with the mutex. -/
theorem hub_simulated (md5 : Bytes → Bytes) (p : Printer) {h : HubState}
    (hreach : Reach (HubState.step p) (fun _ _ => True) .initial h) :
    ∃ g, Reach (LockedHub.step md5 p) (fun _ _ => True) (.start emptyHub) g ∧ Represents h g := by
  obtain ⟨g, hg, -, hr⟩ := hreach.simulated
    (R := fun h g => (∃ entries, Kept p h.kv entries) ∧ Represents h g)
    ⟨⟨[], (counted_initial p).kept⟩, represents_start⟩ fun h i h' g _ hr _ hstep => by
      obtain ⟨⟨entries, hk⟩, hr⟩ := hr
      obtain ⟨entries', hk', -⟩ := hk.step hstep
      obtain ⟨j, hplays⟩ := exists_plays i
      obtain ⟨g', hnext, hr'⟩ := hr.step md5 hk hplays hstep
      exact .inr ⟨j, g', trivial, hnext, ⟨entries', hk'⟩, hr'⟩
  exact ⟨g, hg, hr⟩

/-- A device is added, and the store refuses it. -/
theorem hub_simulated_refused : ∃ h g,
    HubState.initial.step samplePrinter (.add sampleInfo, { Accesses.fine with rawSet := false }) =
      some h ∧
    Reach (LockedHub.step id samplePrinter) (fun _ _ => True) (.start emptyHub) g ∧
      Represents h g := by
  have hreturns : (HubState.initial.step samplePrinter
      (.add sampleInfo, { Accesses.fine with rawSet := false })).isSome = true := by
    decide +kernel
  obtain ⟨h, hstep⟩ := Option.isSome_iff_exists.mp hreturns
  obtain ⟨g, hg⟩ := hub_simulated id samplePrinter (Reach.next .start trivial hstep)
  exact ⟨h, g, hstep, hg⟩

/-- Runs of the hub with the mutex are runs of the hub over the store, as long as the memory
suffices. -/
theorem locked_hub_simulated (md5 : Bytes → Bytes) (p : Printer) {g : LockedHub}
    (hreach : Reach (LockedHub.step md5 p) StoreFails (.start emptyHub) g) :
    ∃ h, Reach (HubState.step p) (fun _ _ => True) .initial h ∧ Represents h g := by
  refine hreach.simulated (R := fun g h => Represents h g) represents_start ?_
  intro g j g' h hrun hr hok hstep
  obtain ⟨entries, hk, -⟩ := exists_kept hrun
  rcases hok.2 with hreads | ⟨i, hplays⟩
  · exact .inl (hr.reads hk hok.1 hreads hstep)
  by_cases hop : i.1.op = none
  · rw [LockedHub.step, hplays.stuck hop] at hstep
    cases hstep
  obtain ⟨h', hnext⟩ := hk.returns (hr.free.mp hok.1) hop
  obtain ⟨g'', hg, hr'⟩ := hr.step md5 hk hplays hnext
  cases hg.symm.trans hstep
  exact .inr ⟨i, h', trivial, hnext, hr'⟩

end EzIot.Hub
