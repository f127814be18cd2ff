import HotReload.Proofs.Reload.Calls
import HotReload.Proofs.Reload.Recompilers
import HotReload.Proofs.Reload.Rounds
import Mathlib

/-!
# Requirements within a batch

Units of a batch can **require** each other: one that is compiled before what it requires has been
installed fails, and waits for its next attempt. What is asked of the recompiler is that it answers
by the requirements (`Heeds`), and nothing else: that a table is there exactly if all that the unit
requires has been installed before, in the same batch.

How the batch fares is then a matter of the requirements alone, and not of its order.

* A unit that takes part in round `n + 1` has a chain of `n + 1` units below it, itself included
  (`Batch.chain_of_failing`): it has failed in round `n`, so it requires a unit that has taken part
  in round `n` too. So a unit is attempted at most as often as its longest chain is long.
* The first unit to succeed of those that reach a cycle would require another one of them
  (`Batch.not_reachesCycle_of_succeeded`), so none of them ever succeeds.

`Reloader.reload_by_requirements` says what this means for a reload. All attempts of a reload are
counted in one word. So a program that checks its arithmetic gets to the report only if the
compilations fit in the word (`Reloader.Course.reloadUnder_of_course`), which they do if the product
of units and budget does.
-/

namespace HotReload

/-! ### Chains -/

section Chains

variable (requires : UnitId → UnitId → Prop)

/-- A **chain** of units that ends in `u`: each of them but the first requires the one before it. -/
inductive Chain : Nat → UnitId → Prop where
  | single (u : UnitId) : Chain 1 u
  | next {n : Nat} {u v : UnitId} (hrequires : requires u v) (hchain : Chain n v) : Chain (n + 1) u

/-- The number of units on the **longest chain** that ends in a unit. -/
noncomputable def longestChain (u : UnitId) : ℕ∞ := ⨆ (n : ℕ) (_ : Chain requires n u), (n : ℕ∞)

/-- A unit **reaches a cycle** if it, or what it requires directly or indirectly, requires itself
indirectly. -/
def ReachesCycle (u : UnitId) : Prop :=
  ∃ v, Relation.ReflTransGen requires u v ∧ Relation.TransGen requires v v

variable {requires}

/-- No chain is longer than the longest one. -/
theorem Chain.le_longestChain {n : Nat} {u : UnitId} (h : Chain requires n u) :
    (n : ℕ∞) ≤ longestChain requires u := le_iSup₂_of_le n h le_rfl

/-- A bound on the longest chain is one on all chains. -/
theorem longestChain_le_iff {u : UnitId} {n : Nat} :
    longestChain requires u ≤ n ↔ ∀ m, Chain requires m u → m ≤ n := by
  simp only [longestChain, iSup₂_le_iff, Nat.cast_le]

/-- What reaches a cycle requires something that does. -/
theorem ReachesCycle.exists_requires {u : UnitId} (h : ReachesCycle requires u) :
    ∃ v, requires u v ∧ ReachesCycle requires v := by
  obtain ⟨v, huv, hcycle⟩ := h
  obtain rfl | ⟨c, huc, hcv⟩ := Relation.ReflTransGen.cases_head huv
  · -- on the cycle itself the next unit is on it, too
    obtain ⟨c, huc, hcu⟩ := Relation.TransGen.head'_iff.mp hcycle
    exact ⟨c, huc, u, hcu, hcycle⟩
  · exact ⟨c, huc, v, hcv, hcycle⟩

/-- So there are chains of any length that end in it. -/
theorem ReachesCycle.longestChain_eq_top {u : UnitId} (h : ReachesCycle requires u) :
    longestChain requires u = ⊤ := by
  have hchain : ∀ n u, ReachesCycle requires u → Chain requires (n + 1) u := by
    intro n
    -- whoever reaches a cycle requires another unit that reaches it, so chains can be made as long
    -- as wanted
    induction n with
    | zero => exact fun u _ => .single u
    | succ n ih =>
      intro u hu
      obtain ⟨v, huv, hv⟩ := hu.exists_requires
      exact .next huv (ih v hv)
  rw [ENat.eq_top_iff_forall_ge]
  intro n
  calc (n : ℕ∞) ≤ (n + 1 : ℕ) := Nat.cast_le.mpr (Nat.le_succ n)
    _ ≤ longestChain requires u := (hchain n u h).le_longestChain

end Chains

/-! ### Heeding requirements -/

/-- Compilations **heed** requirements if those of a unit yield a table exactly when all that the
unit requires has been installed before. -/
def Heeds (requires : UnitId → UnitId → Prop) (jobs : List Job) : Prop :=
  ∀ before u answer after, jobs = before ++ .compile u answer :: after →
    ((∃ table, answer = .ok table) ↔ ∀ v, requires u v → ∃ table, .install v table ∈ before)

/-- True of the compilations of a unit. -/
def Job.compiles (u : UnitId) : Job → Bool
  | compile v _ => v == u
  | install _ _ => false

/-- The number of attempts on a unit. -/
def attemptsOn (u : UnitId) (jobs : List Job) : Nat := jobs.countP (Job.compiles u)

/-- Trials heed requirements if a unit fails exactly when something that it requires has not
succeeded before. -/
def Trial.Heed (requires : UnitId → UnitId → Prop) (ts : List Trial) : Prop :=
  ∀ before t after, ts = before ++ t :: after →
    (t.failed = false ↔
      ∀ v, requires t.unit.1 v → ∃ t' ∈ before, t'.unit.1 = v ∧ t'.failed = false)

namespace Trial

variable {requires : UnitId → UnitId → Prop}

/-- A trial that has not failed has a table. -/
theorem failed_eq_false_iff (t : Trial) : t.failed = false ↔ ∃ table, t.answer = .ok table := by
  obtain ⟨u, e | table⟩ := t <;> simp

/-- What is installed by trials are the units that succeed in them. -/
theorem exists_install_iff (ts : List Trial) (v : UnitId) :
    (∃ table, Job.install v table ∈ ts.flatMap jobs) ↔
      ∃ t ∈ ts, t.unit.1 = v ∧ t.failed = false := by
  -- a trial installs exactly if it succeeds
  simp only [List.mem_flatMap, jobs]
  constructor
  · rintro ⟨table, ⟨u, e | table'⟩, ht, hjob⟩
    · simp at hjob
    · simp only [List.mem_cons, reduceCtorEq, false_or, List.not_mem_nil, or_false,
        Job.install.injEq] at hjob
      exact ⟨_, ht, hjob.1.symm, rfl⟩
  · rintro ⟨⟨u, e | table⟩, ht, rfl, hfailed⟩
    · simp at hfailed
    · exact ⟨table, _, ht, by simp⟩

/-- Trials heed what their jobs heed. -/
theorem Heed.of_jobs {ts : List Trial} (h : Heeds requires (ts.flatMap jobs)) :
    Heed requires ts := by
  rintro before t after rfl
  have hsplit : (before ++ t :: after).flatMap jobs =
      before.flatMap jobs ++ .compile t.unit.1 t.answer :: (t.jobs.tail ++ after.flatMap jobs) := by
    rw [List.flatMap_append, List.flatMap_cons]
    rfl
  rw [failed_eq_false_iff, h _ _ _ _ hsplit]
  simp only [exists_install_iff]

/-- A part of the trials, taken from the start, heeds what all of them heed. -/
theorem Heed.of_append {ts ts' : List Trial} (h : Heed requires (ts ++ ts')) :
    Heed requires ts := by
  rintro before t after rfl
  exact h before t (after ++ ts') (by simp)

/-- A trial is one compilation. -/
theorem attemptsOn_flatMap_jobs (u : UnitId) (ts : List Trial) :
    attemptsOn u (ts.flatMap jobs) = ts.countP fun t => t.unit.1 == u := by
  induction ts with
  | nil => rfl
  | cons t ts ih =>
    have hone : t.jobs.countP (Job.compiles u) = if t.unit.1 == u then 1 else 0 := by
      obtain ⟨v, e | table⟩ := t <;> simp [jobs, List.countP_cons, Job.compiles]
    rw [List.flatMap_cons, attemptsOn, List.countP_append, hone, List.countP_cons, ← ih,
      Nat.add_comm]
    rfl

end Trial

/-! ### Rounds -/

namespace Batch

variable {S : Type} {shop : Workshop S} {budget : Nat} {units : List (UnitId × String)}
  {requires : UnitId → UnitId → Prop} {s : S}

variable (shop budget units s) in
/-- Later rounds are added to those before. -/
theorem rounds_append {n m : Nat} (hnm : n ≤ m) :
    ∃ rest, (rounds shop budget units m s).1 = (rounds shop budget units n s).1 ++ rest := by
  induction m, hnm using Nat.le_induction with
  | base => exact ⟨[], (List.append_nil _).symm⟩
  | succ m _ ih =>
    obtain ⟨rest, hrest⟩ := ih
    rw [rounds_succ, hrest, List.append_assoc]
    exact ⟨_, rfl⟩

/-- Earlier rounds heed what all rounds heed. -/
theorem heed_rounds {n m : Nat} (hnm : n ≤ m)
    (h : Trial.Heed requires (rounds shop budget units m s).1.flatten) :
    Trial.Heed requires (rounds shop budget units n s).1.flatten := by
  obtain ⟨rest, hrest⟩ := rounds_append shop budget units s hnm
  rw [hrest, List.flatten_append] at h
  exact h.of_append

variable (shop budget s) in
/-- After any number of rounds a unit has failed in all of them or succeeded in one. -/
theorem failing_or_succeeded (hunits : units.Nodup) {u : UnitId × String} (hu : u ∈ units)
    (n : Nat) :
    u ∈ failing units (rounds shop budget units n s).1 ∨
      ∃ t ∈ (rounds shop budget units n s).1.flatten, t.unit = u ∧ t.failed = false := by
  induction n with
  | zero => exact .inl (List.mem_filter.mpr ⟨hu, rfl⟩)
  | succ n ih =>
    have hts := units_nextTrials shop budget units n s
    rw [rounds_succ, List.flatten_concat]
    obtain hfailing | ⟨t, ht, hsucceeded⟩ := ih
    · -- a unit that has failed so far takes part in the next round
      obtain ⟨t, ht, rfl⟩ := List.mem_map.mp (hts ▸ hfailing)
      rw [failing_append hunits hts]
      by_cases hfailed : t.failed = true
      · exact .inl (List.mem_map_of_mem (List.mem_filter.mpr ⟨ht, hfailed⟩))
      · exact .inr ⟨t, List.mem_append_right _ ht, rfl, Bool.eq_false_iff.mpr hfailed⟩
    · exact .inr ⟨t, List.mem_append_left _ ht, hsucceeded⟩

/-- **A unit that has failed in `n` rounds ends a chain of `n + 1` units.** -/
theorem chain_of_failing (hunits : units.Nodup)
    (hrequires : ∀ u v, requires u v → ∃ q ∈ units, q.1 = v) {n : Nat}
    (hheed : Trial.Heed requires (rounds shop budget units n s).1.flatten) :
    ∀ u ∈ failing units (rounds shop budget units n s).1, Chain requires (n + 1) u.1 := by
  induction n with
  | zero => exact fun u _ => .single u.1
  | succ n ih =>
    have hts := units_nextTrials shop budget units n s
    intro u hu
    rw [rounds_succ, failing_append hunits hts] at hu
    obtain ⟨t, ht, rfl⟩ := List.mem_map.mp hu
    obtain ⟨ht, hfailed⟩ := List.mem_filter.mp ht
    obtain ⟨earlier, later, hround⟩ := List.append_of_mem ht
    have hflatten : (rounds shop budget units (n + 1) s).1.flatten =
        ((rounds shop budget units n s).1.flatten ++ earlier) ++ t :: later := by
      rw [rounds_succ, List.flatten_concat, hround, List.append_assoc]
    -- something that the unit requires has not succeeded before its last failure
    have hmissing : ¬ ∀ v, requires t.unit.1 v →
        ∃ t' ∈ (rounds shop budget units n s).1.flatten ++ earlier,
          t'.unit.1 = v ∧ t'.failed = false := by
      intro hall
      rw [(hheed _ t later hflatten).mpr hall] at hfailed
      cases hfailed
    obtain ⟨v, hv⟩ := not_forall.mp hmissing
    obtain ⟨huv, hnone⟩ := Classical.not_imp.mp hv
    obtain ⟨q, hq, rfl⟩ := hrequires _ v huv
    -- so it has failed in all rounds before
    obtain hfailing | ⟨t', ht', hunit, hsucceeded⟩ :=
      failing_or_succeeded shop budget s hunits hq n
    · exact .next huv (ih (heed_rounds (Nat.le_succ n) hheed) q hfailing)
    · exact absurd ⟨t', List.mem_append_left _ ht', congrArg Prod.fst hunit, hsucceeded⟩ hnone

/-- The number of trials of a unit in some rounds. -/
def trialsOf (u : UnitId) (ts : List Trial) : Nat := ts.countP fun t => t.unit.1 == u

/-- A unit is tried at most once in a round. -/
theorem trialsOf_nextTrials_le (hunits : (units.map (·.1)).Nodup) (n : Nat) (u : UnitId) :
    trialsOf u (nextTrials shop budget units n s) ≤ 1 := by
  have hnodup : ((nextTrials shop budget units n s).map (·.unit.1)).Nodup := by
    have hts := congrArg (List.map Prod.fst) (units_nextTrials shop budget units n s)
    rw [List.map_map] at hts
    show ((nextTrials shop budget units n s).map (Prod.fst ∘ Trial.unit)).Nodup
    rw [hts]
    exact hunits.sublist (List.filter_sublist.map _)
  calc trialsOf u (nextTrials shop budget units n s)
      = ((nextTrials shop budget units n s).map (·.unit.1)).count u := by
        rw [List.count, List.countP_map]
        rfl
    _ ≤ 1 := List.nodup_iff_count_le_one.mp hnodup u

/-- So in `n` rounds it is tried at most `n` times. -/
theorem trialsOf_rounds_le (hunits : (units.map (·.1)).Nodup) (n : Nat) (u : UnitId) :
    trialsOf u (rounds shop budget units n s).1.flatten ≤ n := by
  induction n with
  | zero => exact Nat.le_refl 0
  | succ n ih =>
    rw [rounds_succ, List.flatten_concat, trialsOf, List.countP_append]
    exact Nat.add_le_add ih (trialsOf_nextTrials_le hunits n u)

/-- **Attempts are bounded by chains.** -/
theorem trialsOf_le_longestChain (hunits : (units.map (·.1)).Nodup)
    (hrequires : ∀ u v, requires u v → ∃ q ∈ units, q.1 = v) {n : Nat}
    (hheed : Trial.Heed requires (rounds shop budget units n s).1.flatten) (u : UnitId) :
    (trialsOf u (rounds shop budget units n s).1.flatten : ℕ∞) ≤ longestChain requires u := by
  induction n with
  | zero => exact zero_le
  | succ n ih =>
    have hbefore := heed_rounds (Nat.le_succ n) hheed
    by_cases hpart : ∃ t ∈ nextTrials shop budget units n s, t.unit.1 = u
    · -- who takes part in this round has failed in those before
      obtain ⟨t, ht, rfl⟩ := hpart
      have hfailing : t.unit ∈ failing units (rounds shop budget units n s).1 :=
        units_nextTrials shop budget units n s ▸ List.mem_map_of_mem ht
      calc (trialsOf t.unit.1 (rounds shop budget units (n + 1) s).1.flatten : ℕ∞)
          ≤ (n + 1 : ℕ) := Nat.cast_le.mpr (trialsOf_rounds_le hunits (n + 1) t.unit.1)
        _ ≤ longestChain requires t.unit.1 :=
          (chain_of_failing (.of_map _ hunits) hrequires hbefore _ hfailing).le_longestChain
    · -- who takes no part in the round is not tried more often than before
      have hnone : trialsOf u (nextTrials shop budget units n s) = 0 := by
        rw [trialsOf, List.countP_eq_zero]
        intro t ht hu
        exact hpart ⟨t, ht, beq_iff_eq.mp hu⟩
      rw [rounds_succ, List.flatten_concat, trialsOf, List.countP_append]
      change ((trialsOf u _ + trialsOf u _ : ℕ) : ℕ∞) ≤ _
      rw [hnone, Nat.add_zero]
      exact ih hbefore

/-- A unit that fails in all rounds is attempted in each. -/
theorem trialsOf_of_failing (hunits : (units.map (·.1)).Nodup) (n : Nat) {u : UnitId × String}
    (hu : u ∈ failing units (rounds shop budget units n s).1) :
    trialsOf u.1 (rounds shop budget units n s).1.flatten = n := by
  apply Nat.le_antisymm (trialsOf_rounds_le hunits n u.1)
  calc n = (Trial.errors u (rounds shop budget units n s).1.flatten).length :=
        (length_errors_rounds shop budget units (.of_map _ hunits) n s u hu).symm
    -- each error of the unit is the answer of a trial
    _ ≤ trialsOf u.1 (rounds shop budget units n s).1.flatten := by
        rw [Trial.errors, List.length_filterMap_eq_countP, trialsOf]
        apply List.countP_mono_left
        intro t _ ht
        split at ht
        · next h => rw [h, beq_self_eq_true]
        · cases ht

/-- **No unit that reaches a cycle succeeds**: the first one to do so would require another. -/
theorem not_reachesCycle_of_succeeded {ts : List Trial} (hheed : Trial.Heed requires ts) :
    ∀ t ∈ ts, t.failed = false → ¬ ReachesCycle requires t.unit.1 := by
  suffices h : ∀ n before t after, ts = before ++ t :: after → before.length = n →
      t.failed = false → ¬ ReachesCycle requires t.unit.1 by
    intro t ht
    obtain ⟨before, after, hsplit⟩ := List.append_of_mem ht
    exact h _ before t after hsplit rfl
  intro n
  -- by the number of trials before the success
  induction n using Nat.strong_induction_on with
  | _ n ih =>
    intro before t after hsplit hlength hsucceeded hcycle
    obtain ⟨v, huv, hv⟩ := hcycle.exists_requires
    obtain ⟨t', ht', rfl, hsucceeded'⟩ := (hheed before t after hsplit).mp hsucceeded v huv
    obtain ⟨before', after', rfl⟩ := List.append_of_mem ht'
    have hsplit' : ts = before' ++ t' :: (after' ++ t :: after) := by
      rw [hsplit, List.append_assoc]
      rfl
    have hlt : before'.length < n := by
      rw [← hlength, List.length_append, List.length_cons]
      omega
    exact ih before'.length hlt before' t' _ hsplit' rfl hsucceeded' hv

end Batch

/-! ### Reloads -/

namespace Reloader

variable {σ : Type} [Host σ]

/-- The **jobs of a reload**: what it compiles and what it installs, in order. -/
def jobs (recompile : Recompiler σ) (r : Reloader) (names : List String) (w : World σ) : List Job :=
  match r.openCall names w with
  | .error _ => []
  | .ok (us, s, v) =>
    (Batch.run (r.workshop recompile).recording r.config.retryBudget
      (us.map fun u => (u, (v.unit u).name)) ((v, s.journal), [])).2.2

/-- How many **compilations** a reload takes. -/
def compilations (recompile : Recompiler σ) (r : Reloader) (names : List String) (w : World σ) :
    Nat :=
  (r.jobs recompile names w).countP Job.isCompile

namespace Course

variable {recompile : Recompiler σ} {r : Reloader} {names : List String} {w : World σ}
  {c : Course σ}

/-- The rounds that the batch of a course goes by. -/
def trials (recompile : Recompiler σ) (r : Reloader) (c : Course σ) : List (List Trial) :=
  (Batch.rounds (r.workshop recompile) r.config.retryBudget c.units r.config.retryBudget
    (c.opened, c.session.journal)).1

/-- A configuration that is accepted allows at least one attempt. -/
theorem one_le_retryBudget (h : r.config.fault? = none) : 1 ≤ r.config.retryBudget := by
  unfold Config.fault? at h
  split at h
  · cases h
  · next hne => exact Nat.one_le_iff_ne_zero.mpr hne

/-- No target is compiled more often than the budget allows. -/
theorem compilations_le (hbudget : 1 ≤ r.config.retryBudget)
    (h : r.course? recompile names w = some c) :
    r.compilations recompile names w ≤ c.targets.length * r.config.retryBudget := by
  have hle := Batch.compilations_le (.of_map _ (nodup_units h)) hbudget (r.workshop recompile)
    (c.opened, c.session.journal)
  rw [units, List.length_map] at hle
  rw [compilations, jobs, opening_of_course h]
  exact hle

/-- **Which programs return.** A program that checks its arithmetic stops if the compilations do not
fit in the word in which attempts are counted. Every other one returns the report. -/
theorem reloadUnder_of_course (hbudget : 1 ≤ r.config.retryBudget)
    (h : r.course? recompile names w = some c) (arith : Arithmetic) :
    r.reloadUnder arith recompile names w =
      if arith = .checked ∧ UInt32.size ≤ r.compilations recompile names w then none
      else some (.ok c.report, c.returned r w) := by
  -- the counter of the call is that of its batch
  have hattempts : r.attempts recompile names w = .ofNat (r.compilations recompile names w) := by
    have hrun := Batch.attempts_run (.of_map _ (nodup_units h)) hbudget (r.workshop recompile)
      (c.opened, c.session.journal)
    unfold attempts compilations jobs
    rw [inSession_eq, opening_of_course h]
    exact hrun
  simp only [reloadUnder, hattempts, Counter.halts_ofNat, reload_of_course h]

/-- The jobs of a reload, its failures and the units that succeed, told by its rounds. -/
theorem batch_of_trials (hbudget : 1 ≤ r.config.retryBudget)
    (h : r.course? recompile names w = some c) :
    r.jobs recompile names w = (trials recompile r c).flatten.flatMap Trial.jobs ∧
      c.batch.failures = (Batch.failing c.units (trials recompile r c)).map (fun u =>
        ⟨u.2, r.config.retryBudget, Trial.lastError u (trials recompile r c).flatten⟩) ∧
      ∀ u, u ∈ c.batch.reloaded ↔
        ∃ t ∈ (trials recompile r c).flatten, t.unit.1 = u ∧ t.failed = false := by
  obtain ⟨-, -, -, hrun⟩ := course?_eq_some h
  have hnodup : c.units.Nodup := .of_map _ (nodup_units h)
  obtain ⟨done, hdone, heq⟩ := Batch.run_eq (r.workshop recompile) hnodup hbudget
    (c.opened, c.session.journal)
  -- the batch of the course is the one that the rounds tell
  have hbatch := congrArg Prod.fst (hrun.symm.trans heq)
  refine ⟨?_, ?_, fun u => ?_⟩
  · rw [jobs, opening_of_course h]
    exact Batch.jobs_run hnodup hbudget _ _
  · rw [show c.batch = _ from hbatch]
    exact List.map_map
  · rw [show c.batch = _ from hbatch]
    show u ∈ done.map (·.unit) ↔ _
    -- the units that are done are those of the trials that have succeeded
    rw [hdone, List.mem_map]
    constructor
    · rintro ⟨t, ht, rfl⟩
      obtain ⟨ht, hsucceeded⟩ := List.mem_filter.mp ht
      exact ⟨t, ht, rfl, Bool.not_eq_true' _ |>.mp hsucceeded⟩
    · rintro ⟨t, ht, rfl, hsucceeded⟩
      exact ⟨t, List.mem_filter.mpr ⟨ht, by rw [hsucceeded]; rfl⟩, rfl⟩

/-- A target has failed in all rounds or succeeded in one. -/
theorem failing_or_succeeded (h : r.course? recompile names w = some c) {u : UnitId}
    (hu : u ∈ c.targets) :
    (u, (c.opened.unit u).name) ∈ Batch.failing c.units (trials recompile r c) ∨
      ∃ t ∈ (trials recompile r c).flatten, t.unit.1 = u ∧ t.failed = false := by
  obtain hfailing | ⟨t, ht, hunit, hsucceeded⟩ := Batch.failing_or_succeeded
    (r.workshop recompile) r.config.retryBudget (c.opened, c.session.journal)
    (.of_map _ (nodup_units h)) (List.mem_map_of_mem hu) r.config.retryBudget
  · exact .inl hfailing
  · exact .inr ⟨t, ht, congrArg Prod.fst hunit, hsucceeded⟩

/-! ### Reloads that heed requirements -/

section Heeding

variable {requires : UnitId → UnitId → Prop} (h : r.course? recompile names w = some c)
  (hbudget : 1 ≤ r.config.retryBudget) (hrequires : ∀ u v, requires u v → v ∈ c.targets)
  (hheeds : Heeds requires (r.jobs recompile names w))

include h hbudget hheeds

/-- If the jobs of a reload heed requirements then so do its trials. -/
theorem heed_trials : Trial.Heed requires (trials recompile r c).flatten :=
  .of_jobs ((batch_of_trials hbudget h).1 ▸ hheeds)

omit hheeds in
/-- Attempts are counted by trials. -/
theorem attemptsOn_jobs (u : UnitId) :
    attemptsOn u (r.jobs recompile names w) = Batch.trialsOf u (trials recompile r c).flatten := by
  rw [(batch_of_trials hbudget h).1]
  exact Trial.attemptsOn_flatMap_jobs u _

include hrequires

/-- **A unit is attempted no more often than its longest chain is long.** -/
theorem attemptsOn_le (u : UnitId) :
    (attemptsOn u (r.jobs recompile names w) : ℕ∞) ≤ longestChain requires u := by
  rw [attemptsOn_jobs h hbudget]
  exact Batch.trialsOf_le_longestChain (nodup_units h)
    (fun u v huv => List.mem_map.mp (map_fst_units c ▸ hrequires u v huv))
    (heed_trials h hbudget hheeds) u

/-- A unit that is given up on ends a chain that is longer than the budget. -/
theorem not_longestChain_le {u : UnitId × String}
    (hu : u ∈ Batch.failing c.units (trials recompile r c)) :
    ¬ longestChain requires u.1 ≤ r.config.retryBudget := by
  intro hle
  have hchain := Batch.chain_of_failing (.of_map _ (nodup_units h))
    (fun u v huv => List.mem_map.mp (map_fst_units c ▸ hrequires u v huv))
    (heed_trials h hbudget hheeds) u hu
  exact absurd (longestChain_le_iff.mp hle _ hchain) (Nat.not_succ_le_self _)

/-- **If the budget is enough for every chain then nothing fails.** -/
theorem failures_eq_nil
    (hall : ∀ u ∈ c.targets, longestChain requires u ≤ r.config.retryBudget) :
    c.batch.failures = [] := by
  rw [(batch_of_trials hbudget h).2.1, List.map_eq_nil_iff, List.eq_nil_iff_forall_not_mem]
  intro u hu
  -- whatever has failed was a target, and its chain would be too long for the budget
  have htarget : u.1 ∈ c.targets :=
    map_fst_units c ▸ List.mem_map_of_mem (List.mem_of_mem_filter hu)
  exact not_longestChain_le h hbudget hrequires hheeds hu (hall u.1 htarget)

omit hrequires in
/-- A unit that reaches a cycle uses up its budget. -/
theorem failed_of_reachesCycle {u : UnitId} (hu : u ∈ c.targets)
    (hcycle : ReachesCycle requires u) :
    attemptsOn u (r.jobs recompile names w) = r.config.retryBudget ∧
      ∃ detail, ⟨(w.unit u).name, r.config.retryBudget, detail⟩ ∈ c.batch.failures := by
  obtain hfailing | ⟨t, ht, rfl, hsucceeded⟩ := failing_or_succeeded h hu
  · -- it has failed in every round, so as often as the budget allows
    refine ⟨?_, Trial.lastError (u, (c.opened.unit u).name) (trials recompile r c).flatten, ?_⟩
    · rw [attemptsOn_jobs h hbudget]
      exact Batch.trialsOf_of_failing (nodup_units h) r.config.retryBudget hfailing
    · rw [(batch_of_trials hbudget h).2.1, ← name_opened h u]
      exact List.mem_map_of_mem hfailing
  · -- whoever succeeds reaches no cycle
    exact absurd hcycle
      (Batch.not_reachesCycle_of_succeeded (heed_trials h hbudget hheeds) t ht hsucceeded)

/-- A unit whose chains are within the budget succeeds, and no failure has its name. -/
theorem reloaded_of_longestChain_le (hw : w.Sound) {u : UnitId} (hu : u ∈ c.targets)
    (hle : longestChain requires u ≤ r.config.retryBudget) :
    u ∈ c.batch.reloaded ∧ ∀ f ∈ c.batch.failures, f.unit ≠ (w.unit u).name := by
  obtain ⟨-, hfailures, hreloaded⟩ := batch_of_trials hbudget h
  constructor
  · rw [hreloaded]
    exact (failing_or_succeeded h hu).resolve_left
      fun hfailing => not_longestChain_le h hbudget hrequires hheeds hfailing hle
  · intro f hf hname
    rw [hfailures] at hf
    obtain ⟨q, hq, rfl⟩ := List.mem_map.mp hf
    obtain ⟨v, hv, rfl⟩ := List.mem_map.mp (List.mem_of_mem_filter hq)
    -- a failure of this name would be one of the unit itself
    obtain rfl : v = u := target_eq_of_name hw h hv hu ((name_opened h v).symm.trans hname)
    exact not_longestChain_le h hbudget hrequires hheeds hq hle

end Heeding

end Course

/-- **Forward references within a batch.** A reload is given distinct units in some order, and its
compilations heed what these require. A program that checks its arithmetic stops if there are more
compilations than a word can count, and there are no more than units and budget allow; every other
one returns. Whatever the order,

* each unit is attempted at most as often as the longest chain that ends in it has units;
* none fails if no chain has more units than the budget has attempts (there is no cycle then);
* a unit that reaches a cycle is reported as failed, and has been attempted as often as the budget
  allows;
* a unit whose chains are within the budget succeeds. -/
theorem reload_by_requirements {recompile : Recompiler σ} {r : Reloader} {names : List String}
    {w : World σ} {us : List UnitId} {requires : UnitId → UnitId → Prop} (hw : w.Sound)
    (hlawful : recompile.Lawful) (hidle : w.isHeld r.guard = false)
    (hconfig : r.config.fault? = none) (htargets : targets w r.registry names = .ok us)
    (hopen : ∀ u ∈ us, w.isOpen u = true) (hrequires : ∀ u v, requires u v → v ∈ us)
    (hheeds : Heeds requires (r.jobs recompile names w)) :
    ∃ report w',
      (∀ arith, r.reloadUnder arith recompile names w =
        if arith = .checked ∧ UInt32.size ≤ r.compilations recompile names w then none
        else some (.ok report, w')) ∧
      r.compilations recompile names w ≤ us.length * r.config.retryBudget ∧
      (∀ u ∈ us, (attemptsOn u (r.jobs recompile names w) : ℕ∞) ≤ longestChain requires u) ∧
      ((∀ u ∈ us, longestChain requires u ≤ r.config.retryBudget) → report.failures = []) ∧
      (∀ u ∈ us, ReachesCycle requires u →
        attemptsOn u (r.jobs recompile names w) = r.config.retryBudget ∧
          ∃ detail, ⟨(w.unit u).name, r.config.retryBudget, detail⟩ ∈ report.failures) ∧
      ∀ u ∈ us, longestChain requires u ≤ r.config.retryBudget →
        (w.unit u).name ∈ report.reloaded ∧ ∀ f ∈ report.failures, f.unit ≠ (w.unit u).name := by
  obtain ⟨c, hcourse, rfl⟩ := exists_course_of_open recompile hidle hconfig htargets hopen
  have hbudget := Course.one_le_retryBudget hconfig
  refine ⟨c.report, c.returned r w, Course.reloadUnder_of_course hbudget hcourse,
    Course.compilations_le hbudget hcourse, fun u _ => ?_, ?_, ?_, fun u hu hle => ?_⟩
  · exact Course.attemptsOn_le hcourse hbudget hrequires hheeds u
  · exact Course.failures_eq_nil hcourse hbudget hrequires hheeds
  · exact fun u hu => Course.failed_of_reachesCycle hcourse hbudget hheeds hu
  · obtain ⟨hreloaded, hfailures⟩ :=
      Course.reloaded_of_longestChain_le hcourse hbudget hrequires hheeds hw hu hle
    have hregistered := (Course.target_registered hw hcourse hu).2
    exact ⟨(Course.mem_reloaded_report hlawful hw hcourse hregistered).mpr hreloaded, hfailures⟩

end Reloader

/-! ### A recompiler that heeds requirements -/

section Requiring

variable {σ : Type}

/-- Compiles a unit to one export, once all the units that it needs have this export. -/
def Recompiler.requiring (name : String) (needs : UnitId → List UnitId) : Recompiler σ :=
  fun u _ w =>
    if (needs u).all fun v => (w.export? v name).isSome then (.ok (.ofList [(name, .nil)]), w)
    else (.error "a requirement is missing", w)

variable {name : String} {needs : UnitId → List UnitId}

/-- This recompiler leaves the world as it is. -/
theorem Recompiler.requiring_world (u : UnitId) (r : RegistryId) (w : World σ) :
    (requiring name needs u r w).2 = w := by
  unfold requiring
  split <;> rfl

/-- It succeeds if all that is needed is there. -/
theorem Recompiler.requiring_eq_ok_iff {u : UnitId} {r : RegistryId} {w : World σ}
    {table : Table Value} :
    (requiring name needs u r w).1 = .ok table ↔
      (∀ v ∈ needs u, (w.export? v name).isSome = true) ∧ table = .ofList [(name, .nil)] := by
  unfold requiring
  rw [← List.all_eq_true]
  split
  · next h => simp [h, eq_comm]
  · next h => simp [h]

/-- It is lawful, since what it returns holds no definitions. -/
theorem Recompiler.lawful_requiring : (requiring name needs : Recompiler σ).Lawful where
  sound u r w hw := (requiring_world u r w).symm ▸ hw
  later u r w _ := by
    rw [requiring_world]
    exact .refl w
  table u r w table _ h e he := by
    obtain ⟨-, rfl⟩ := requiring_eq_ok_iff.mp h
    obtain rfl : e = (name, .nil) := List.mem_singleton.mp he
    rfl
  pins u r w := by rw [requiring_world]

/-- What a table of one export does to this export of all units, in either mode. -/
theorem World.export?_install_single (w : World σ) (mode : InstallMode) (u v : UnitId) (x : String)
    (a : Value) :
    (w.install mode u (.ofList [(x, a)])).export? v x =
      if v = u then some a else w.export? v x := by
  have hsingle : (Table.ofList [(x, a)]).get? x = some a := Table.get?_insert_self _ _ _
  cases mode <;>
    simp only [install, mergeExports, export?, exports_replaceExports]
  · split
    · rw [Table.get?_merge, hsingle, Option.some_or]
    · rfl
  · split
    · exact hsingle
    · rfl

variable {requires : UnitId → UnitId → Prop} {jobs : List Job}

/-- One more job heeds requirements if its answer is the one that they ask for. -/
theorem Heeds.concat (h : Heeds requires jobs) {job : Job}
    (hjob : ∀ u answer, job = .compile u answer →
      ((∃ table, answer = .ok table) ↔ ∀ v, requires u v → ∃ table, .install v table ∈ jobs)) :
    Heeds requires (jobs ++ [job]) := by
  intro before u answer after hsplit
  obtain rfl | ⟨after', last, rfl⟩ := List.eq_nil_or_concat' after
  · -- the last job is the one in question
    obtain ⟨rfl, hlast⟩ := List.append_inj' hsplit rfl
    exact hjob u answer (List.singleton_inj.mp hlast)
  · -- any other job stands among those before
    have hsplit' : jobs ++ [job] = (before ++ .compile u answer :: after') ++ [last] := by
      rw [hsplit, List.append_assoc]
      rfl
    exact h before u answer after' (List.append_inj' hsplit' rfl).1

/-- **Marked.** The jobs so far heed what is needed, and the export marks what has been
installed. -/
structure Marked (name : String) (needs : UnitId → List UnitId) (w : World σ) (jobs : List Job) :
    Prop where
  heeds : Heeds (fun u v => v ∈ needs u) jobs
  marks : ∀ u v, v ∈ needs u →
    ((w.export? v name).isSome = true ↔ ∃ table, .install v table ∈ jobs)

namespace Marked

variable {w : World σ}

/-- To compile leaves marks as they are. -/
theorem compile (h : Marked name needs w jobs) (u : UnitId) (r : RegistryId) :
    Marked name needs w (jobs ++ [.compile u (Recompiler.requiring name needs u r w).1]) where
  heeds := by
    apply h.heeds.concat
    rintro _ _ ⟨⟩
    simp only [Recompiler.requiring_eq_ok_iff, exists_and_left, exists_eq, and_true]
    exact forall₂_congr fun v hv => h.marks u v hv
  marks u' v hv := by simpa using h.marks u' v hv

/-- To install sets the mark of the unit. -/
theorem install (h : Marked name needs w jobs) (u : UnitId) (mode : InstallMode) :
    Marked name needs (w.install mode u (.ofList [(name, .nil)]))
      (jobs ++ [.install u (.ofList [(name, .nil)])]) where
  heeds := h.heeds.concat fun _ _ hjob => nomatch hjob
  marks u' v hv := by
    rw [World.export?_install_single]
    -- the table that is installed has the mark and nothing else
    by_cases huv : v = u
    · rw [if_pos huv, huv]
      simp
    · rw [if_neg huv, h.marks u' v hv]
      simp [huv]

end Marked

/-- The recompiler heeds what it needs, where no unit that is needed has the export from before. -/
theorem Recompiler.heeds_requiring [Host σ] (r : Reloader) (names : List String) {w : World σ}
    (hnew : ∀ u v, v ∈ needs u → w.export? v name = none) :
    Heeds (fun u v => v ∈ needs u) (r.jobs (requiring name needs) names w) := by
  unfold Reloader.jobs
  cases hopening : r.openCall names w with
  -- a call that is refused has no jobs
  | error e => exact fun before u answer after h => by simp at h
  | ok opened =>
    obtain ⟨us, s, v⟩ := opened
    have hkeeps : (r.workshop (requiring name needs)).recording.Keeps
        ((us.map fun u => (u, (v.unit u).name)).map (·.1))
        fun t : (World σ × Journal) × List Job => Marked name needs t.1.1 t.2 := by
      -- marks are set by installations, one at a time
      constructor
      · exact fun _ _ _ _ ht => ht
      · intro u _ t ht
        show Marked name needs (requiring name needs u r.registry t.1.1).2 _
        rw [requiring_world]
        exact ht.compile u r.registry
      · intro u _ t table ht htable
        obtain ⟨-, rfl⟩ := (requiring_eq_ok_iff (r := r.registry)).mp htable
        show Marked name needs ((requiring name needs u r.registry t.1.1).2.install _ u _) _
        rw [requiring_world]
        exact (ht.compile u r.registry).install u r.config.installMode
    have hstart : Marked name needs v [] := by
      refine ⟨fun before u answer after h => by simp at h, fun u x hx => ?_⟩
      -- nothing that is needed is exported yet, and nothing has been installed
      rw [Reloader.export?_of_opening hopening, hnew u x hx]
      simp
    exact (Batch.run_preserves (s := ((v, s.journal), [])) r.config.retryBudget _ hkeeps
      hstart).heeds

end Requiring

namespace Scenario.TwoUnits

/-- The bare fixture with a third unit `c`. -/
def trio : World Fixture := (bare.load ⟨0⟩ "c").2

/-- Unit `a` needs `b`, and `c` needs itself. -/
def needsOf : UnitId → List UnitId
  | ⟨1⟩ => [⟨0⟩]
  | ⟨2⟩ => [⟨2⟩]
  | _ => []

/-- No chain that ends in `a` or `b` has more than two units. -/
theorem longestChain_needsOf {u : UnitId} (hu : u = ⟨1⟩ ∨ u = ⟨0⟩) :
    longestChain (fun u v => v ∈ needsOf u) u ≤ 2 := by
  have hzero : ∀ m, Chain (fun u v => v ∈ needsOf u) m ⟨0⟩ → m = 1 := by
    rintro m (_ | ⟨hv, -⟩)
    · rfl
    · exact absurd hv List.not_mem_nil
  have hle : ∀ m, Chain (fun u v => v ∈ needsOf u) m u → m ≤ 2 := by
    -- the second unit needs nothing, and the first needs only the second
    obtain rfl | rfl := hu
    · rintro m (_ | ⟨hv, hchain⟩)
      · exact Nat.le_succ 1
      · obtain rfl := List.mem_singleton.mp hv
        exact Nat.succ_le_succ (hzero _ hchain).le
    · exact fun m hm => (hzero m hm).le.trans (Nat.le_succ 1)
  exact longestChain_le_iff.mpr hle

end Scenario.TwoUnits

namespace Reloader

open Scenario.TwoUnits Recompiler in
/-- Unit `a` comes first and needs `b`, which comes later: both succeed. Unit `c` needs itself and
is given up on. Checked arithmetic does not get in the way. -/
theorem reload_by_requirements_forward :
    ∃ report w',
      reloader.reloadUnder .checked (requiring "f" needsOf) ["a", "b", "c"] trio =
        some (.ok report, w') ∧
      "a" ∈ report.reloaded ∧ "b" ∈ report.reloaded ∧
      (∃ detail, ⟨"c", 10, detail⟩ ∈ report.failures) ∧
      attemptsOn ⟨1⟩ (reloader.jobs (requiring "f" needsOf) ["a", "b", "c"] trio) ≤ 2 := by
  have hheeds : Heeds (fun u v => v ∈ needsOf u)
      (reloader.jobs (requiring "f" needsOf) ["a", "b", "c"] trio) := by
    apply heeds_requiring
    rintro ⟨_ | _ | _ | n⟩ v hv
    · exact absurd hv List.not_mem_nil
    · rw [List.mem_singleton.mp hv]
      rfl
    · rw [List.mem_singleton.mp hv]
      rfl
    · exact absurd hv List.not_mem_nil
  have hwithin : ∀ u v, v ∈ needsOf u → v ∈ [(⟨1⟩ : UnitId), ⟨0⟩, ⟨2⟩] := by
    rintro ⟨_ | _ | _ | n⟩ v hv
    · exact absurd hv List.not_mem_nil
    · simp [List.mem_singleton.mp hv]
    · simp [List.mem_singleton.mp hv]
    · exact absurd hv List.not_mem_nil
  obtain ⟨report, w', hreload, hle, hattempts, -, hcycle, hsucceed⟩ :=
    reload_by_requirements (r := reloader) (w := trio) (by decide +kernel) lawful_requiring rfl rfl
      rfl (by decide +kernel) hwithin hheeds
  have hchains : ∀ u : UnitId, u = ⟨1⟩ ∨ u = ⟨0⟩ →
      longestChain (fun u v => v ∈ needsOf u) u ≤ (reloader.config.retryBudget : ℕ∞) :=
    fun u hu => (longestChain_needsOf hu).trans (by decide)
  have hself : ReachesCycle (fun u v => v ∈ needsOf u) ⟨2⟩ :=
    ⟨⟨2⟩, .refl, .single (List.mem_singleton_self _)⟩
  -- there are few compilations, so the counter does not leave its word
  have hfits : ¬ UInt32.size ≤ reloader.compilations (requiring "f" needsOf) ["a", "b", "c"] trio :=
    Nat.not_le.mpr (Nat.lt_of_le_of_lt hle (by decide))
  refine ⟨report, w', ?_, ?_, ?_, ?_, ?_⟩
  · rw [hreload, if_neg fun h => hfits h.2]
  · exact (hsucceed ⟨1⟩ (by simp) (hchains _ (.inl rfl))).1
  · exact (hsucceed ⟨0⟩ (by simp) (hchains _ (.inr rfl))).1
  · exact (hcycle ⟨2⟩ (by simp) hself).2
  · have hle := (hattempts ⟨1⟩ (by simp)).trans (longestChain_needsOf (.inl rfl))
    exact Nat.cast_le.mp hle

end Reloader

end HotReload
