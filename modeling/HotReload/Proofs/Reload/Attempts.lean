import HotReload.Reload.Batch

/-!
# Attempts of a batch

What a whole batch keeps follows from what its workshop keeps (`Workshop.Keeps`,
`Batch.run_preserves`), also if it has to be said with the units that have succeeded so far
(`Workshop.KeepsAlong`, `Batch.run_along`). How its units fare is bookkeeping: an attempt moves a
unit from the head of the queue to one of three places, so each unit is in one of them at any time
(`Batch.perm_roster_drain`), and none is reported twice (`Batch.nodup_reloaded`).

If no attempt fails, the units succeed in the order in which they were given
(`Batch.run_of_succeeding`).
-/

namespace HotReload

variable {S : Type}

/-- True of the events that are noted before references are repaired. -/
def Event.precedesRepair : Event → Bool
  | unitSkipped _ | recompileStarted _ | recompiled _ | recompileRetry _ _
  | recompileFailed _ _ => true
  | _ => false

/-- What a workshop does to a state for the sake of these units **keeps** `P`. A table is installed
in the state that its compilation has left. -/
structure Workshop.Keeps (shop : Workshop S) (units : List UnitId) (P : S → Prop) : Prop where
  note : ∀ unit e s, e.precedesRepair = true → P s → P (shop.note unit e s)
  compile : ∀ u ∈ units, ∀ s, P s → P (shop.compile u s).2
  install : ∀ u ∈ units, ∀ s table, P s → (shop.compile u s).1 = .ok table →
    P (shop.install u table (shop.compile u s).2)

/-- The same of a predicate that speaks of the units that have succeeded so far as well. A unit joins
them when its table is installed. -/
structure Workshop.KeepsAlong (shop : Workshop S) (units : List UnitId)
    (P : List UnitId → S → Prop) : Prop where
  note : ∀ us unit e s, e.precedesRepair = true → P us s → P us (shop.note unit e s)
  compile : ∀ us, ∀ u ∈ units, ∀ s, P us s → P us (shop.compile u s).2
  install : ∀ us, ∀ u ∈ units, ∀ s table, P us s → (shop.compile u s).1 = .ok table →
    P (us ++ [u]) (shop.install u table (shop.compile u s).2)

/-- What is kept anyhow is also kept along a batch. -/
theorem Workshop.Keeps.along {shop : Workshop S} {units : List UnitId} {P : S → Prop}
    (h : shop.Keeps units P) : shop.KeepsAlong units fun _ => P where
  note _ := h.note
  compile _ := h.compile
  install _ := h.install

/-- Whatever happens to a record, it stays the one of its unit. -/
@[simp] theorem Progress.unit_advance (p : Progress) (phase : Phase) :
    (p.advance phase).unit = p.unit := by
  unfold advance
  split <;> rfl

@[simp] theorem Progress.name_advance (p : Progress) (phase : Phase) :
    (p.advance phase).name = p.name := by
  unfold advance
  split <;> rfl

@[simp] theorem Progress.unit_failedWith (p : Progress) (detail : String) :
    (p.failedWith detail).unit = p.unit := rfl

@[simp] theorem Progress.name_failedWith (p : Progress) (detail : String) :
    (p.failedWith detail).name = p.name := rfl

namespace Batch

variable {units : List UnitId} {P : S → Prop} (shop : Workshop S) (budget : Nat)

/-! ### One attempt -/

/-- An attempt that succeeds: the table is installed and noted, and the unit is done. -/
theorem attempt_of_ok {p : Progress} (b : Batch) {s : S} {table : Table Value}
    (h : (shop.compile p.unit (shop.note p.name (.recompileStarted p.attempt) s)).1 = .ok table) :
    attempt shop budget p b s =
      ({ b with attempts := b.attempts.next, succeeded := b.succeeded ++ [p.advance .succeeded] },
        shop.note p.name (.recompiled table.size) (shop.install p.unit table
          (shop.compile p.unit (shop.note p.name (.recompileStarted p.attempt) s)).2)) := by
  have hpair : shop.compile p.unit (shop.note p.name (.recompileStarted p.attempt) s) =
      (.ok table, (shop.compile p.unit (shop.note p.name (.recompileStarted p.attempt) s)).2) :=
    Prod.ext h rfl
  simp only [attempt]
  rw [hpair]

/-- An attempt that fails: the unit is queued again, or given up on without a note. -/
theorem attempt_of_error {p : Progress} (b : Batch) {s : S} {detail : String}
    (h : (shop.compile p.unit (shop.note p.name (.recompileStarted p.attempt) s)).1 =
      .error detail) :
    attempt shop budget p b s =
      if (p.failedWith detail).failures < budget then
        ({ b with
            attempts := b.attempts.next
            queue := b.queue ++ [(p.failedWith detail).advance .retrying] },
          shop.note p.name (.recompileRetry p.attempt detail)
            (shop.compile p.unit (shop.note p.name (.recompileStarted p.attempt) s)).2)
      else
        ({ b with
            attempts := b.attempts.next
            exhausted := b.exhausted ++ [(p.failedWith detail).advance .failed] },
          (shop.compile p.unit (shop.note p.name (.recompileStarted p.attempt) s)).2) := by
  have hpair : shop.compile p.unit (shop.note p.name (.recompileStarted p.attempt) s) =
      (.error detail,
        (shop.compile p.unit (shop.note p.name (.recompileStarted p.attempt) s)).2) :=
    Prod.ext h rfl
  simp only [attempt]
  rw [hpair]

variable {shop} in
/-- One attempt keeps what notes, compilations and installations keep. -/
theorem attempt_along {P : List UnitId → S → Prop} (hshop : shop.KeepsAlong units P) {p : Progress}
    (hp : p.unit ∈ units) (b : Batch) {s : S} (hs : P b.reloaded s) :
    P (attempt shop budget p b s).1.reloaded (attempt shop budget p b s).2 := by
  have hnote := hshop.note b.reloaded p.name (.recompileStarted p.attempt) s rfl hs
  have hcompile := hshop.compile b.reloaded p.unit hp _ hnote
  cases h : (shop.compile p.unit (shop.note p.name (.recompileStarted p.attempt) s)).1 with
  | ok table =>
    -- the unit now counts as reloaded
    have hreloaded : b.reloaded ++ [p.unit] =
        (b.succeeded ++ [p.advance .succeeded]).map (·.unit) := by
      rw [List.map_append, List.map_singleton, Progress.unit_advance]
      rfl
    have hinstall := hshop.install b.reloaded p.unit hp _ table hnote h
    rw [hreloaded] at hinstall
    rw [attempt_of_ok shop budget b h]
    exact hshop.note _ _ _ _ rfl hinstall
  | error detail =>
    rw [attempt_of_error shop budget b h]
    split
    · exact hshop.note _ _ _ _ rfl hcompile
    · exact hcompile

variable {shop} in
/-- The same for what does not depend on the units that are done. -/
theorem attempt_preserves (hshop : shop.Keeps units P) {p : Progress} (hp : p.unit ∈ units)
    (b : Batch) {s : S} (hs : P s) : P (attempt shop budget p b s).2 :=
  attempt_along budget hshop.along hp b hs

/-- The units of a batch with their names: waiting, succeeded or given up on. -/
def roster (b : Batch) : List (UnitId × String) :=
  (b.queue ++ b.succeeded ++ b.exhausted).map fun p => (p.unit, p.name)

/-- The units of a batch: waiting, succeeded or given up on. -/
def members (b : Batch) : List UnitId := (b.queue ++ b.succeeded ++ b.exhausted).map (·.unit)

/-- The members are the units of the roster. -/
theorem map_fst_roster (b : Batch) : b.roster.map (·.1) = b.members := by
  rw [roster, List.map_map]
  rfl

/-- An attempt puts its unit in one of the three places. -/
theorem perm_roster_attempt (p : Progress) (b : Batch) (s : S) :
    (attempt shop budget p b s).1.roster.Perm ((p.unit, p.name) :: b.roster) := by
  -- what a unit is listed as does not depend on how it fares
  let entry (p : Progress) : UnitId × String := (p.unit, p.name)
  cases h : (shop.compile p.unit (shop.note p.name (.recompileStarted p.attempt) s)).1 with
  | ok table =>
    -- the unit goes between those that succeeded before and those that were given up on
    have hperm : (b.queue.map entry ++ b.succeeded.map entry ++
        entry p :: b.exhausted.map entry).Perm (entry p :: (b.queue.map entry ++
          b.succeeded.map entry ++ b.exhausted.map entry)) := List.perm_middle
    rw [attempt_of_ok shop budget b h]
    simpa [roster, entry] using hperm
  | error detail =>
    -- it waits again, or it is given up on
    rw [attempt_of_error shop budget b h]
    split
    · simp [roster]
    · have hperm : (b.queue.map entry ++ b.succeeded.map entry ++
          b.exhausted.map entry ++ [entry p]).Perm (entry p :: (b.queue.map entry ++
            b.succeeded.map entry ++ b.exhausted.map entry)) := List.perm_append_singleton ..
      simpa [roster, entry] using hperm

/-! ### All attempts -/

/-- Without anything in the queue a batch stands still. -/
theorem drain_of_nil (n : Nat) {b : Batch} (s : S) (h : b.queue = []) :
    drain shop budget n b s = (b, s) := by
  cases n with
  | zero => rfl
  | succ n => rw [drain, h]

/-- Otherwise the first unit of the queue is attempted. -/
theorem drain_of_cons (n : Nat) {b : Batch} (s : S) {p : Progress} {rest : List Progress}
    (h : b.queue = p :: rest) :
    drain shop budget (n + 1) b s =
      drain shop budget n (attempt shop budget p { b with queue := rest } s).1
        (attempt shop budget p { b with queue := rest } s).2 := by
  rw [drain, h]

/-- The unit of the next attempt is a member, and the attempt brings in no other. -/
theorem roster_of_cons {b : Batch} {p : Progress} {rest : List Progress} (h : b.queue = p :: rest)
    (s : S) :
    (p.unit, p.name) ∈ b.roster ∧
      (attempt shop budget p { b with queue := rest } s).1.roster.Perm b.roster := by
  have hroster : b.roster = (p.unit, p.name) :: ({ b with queue := rest } : Batch).roster := by
    simp only [roster, h, List.cons_append, List.map_cons]
  rw [hroster]
  exact ⟨List.mem_cons_self, perm_roster_attempt shop budget p _ s⟩

/-- An attempt leaves the members the same, in another order. -/
theorem members_of_cons {b : Batch} {p : Progress} {rest : List Progress} (h : b.queue = p :: rest)
    (s : S) :
    p.unit ∈ b.members ∧
      (attempt shop budget p { b with queue := rest } s).1.members.Perm b.members := by
  obtain ⟨hmem, hperm⟩ := roster_of_cons shop budget h s
  rw [← map_fst_roster, ← map_fst_roster]
  exact ⟨List.mem_map_of_mem hmem, hperm.map _⟩

variable {shop} in
/-- Any number of attempts keep what one attempt keeps. -/
theorem drain_along {P : List UnitId → S → Prop} (hshop : shop.KeepsAlong units P) (n : Nat)
    {b : Batch} (hb : ∀ u ∈ b.members, u ∈ units) {s : S} (hs : P b.reloaded s) :
    P (drain shop budget n b s).1.reloaded (drain shop budget n b s).2 := by
  -- the members stay the same, so only units of the batch are ever compiled
  induction n generalizing b s with
  | zero => exact hs
  | succ n ih =>
    cases hq : b.queue with
    | nil =>
      rw [drain_of_nil shop budget _ s hq]
      exact hs
    | cons p rest =>
      obtain ⟨hp, hperm⟩ := members_of_cons shop budget hq s
      rw [drain_of_cons shop budget n s hq]
      exact ih (fun u hu => hb u (hperm.mem_iff.mp hu))
        (attempt_along budget hshop (hb _ hp) { b with queue := rest } hs)

/-- And leave the roster the same, up to the order. -/
theorem perm_roster_drain (n : Nat) (b : Batch) (s : S) :
    (drain shop budget n b s).1.roster.Perm b.roster := by
  induction n generalizing b s with
  | zero => exact .refl _
  | succ n ih =>
    cases hq : b.queue with
    | nil => rw [drain_of_nil shop budget _ s hq]
    | cons p rest =>
      rw [drain_of_cons shop budget n s hq]
      exact (ih _ _).trans (roster_of_cons shop budget hq s).2

/-- In the beginning the roster is the list of units. -/
theorem roster_ofUnits (us : List (UnitId × String)) : (ofUnits us).roster = us := by
  simp [roster, ofUnits, Progress.fresh, Function.comp_def]

theorem members_ofUnits (us : List (UnitId × String)) : (ofUnits us).members = us.map (·.1) := by
  rw [← map_fst_roster, roster_ofUnits]

variable {shop} in
/-- **A batch keeps what its notes, compilations and installations keep.** -/
theorem run_along {P : List UnitId → S → Prop} (us : List (UnitId × String))
    (hshop : shop.KeepsAlong (us.map (·.1)) P) {s : S} (hs : P [] s) :
    P (run shop budget us s).1.reloaded (run shop budget us s).2 := by
  have hdrain := drain_along budget hshop (bound us.length budget)
    (b := ofUnits us) (fun u hu => members_ofUnits us ▸ hu) hs
  -- in the end the units that were given up on are noted
  have hfold : ∀ (fs : List Failure) (vs : List UnitId) (s : S), P vs s →
      P vs (noteFailures shop fs s) := by
    intro fs vs
    induction fs with
    | nil =>
      intro s hs
      exact hs
    | cons f fs ih =>
      intro s hs
      exact ih _ (hshop.note vs _ _ s rfl hs)
  exact hfold _ _ _ hdrain

variable {shop} in
/-- **A batch keeps** what its workshop keeps. -/
theorem run_preserves (us : List (UnitId × String)) (hshop : shop.Keeps (us.map (·.1)) P) {s : S}
    (hs : P s) : P (run shop budget us s).2 :=
  run_along budget us hshop.along hs

/-- **Every unit is in one place.** -/
theorem perm_roster_run (us : List (UnitId × String)) (s : S) :
    (run shop budget us s).1.roster.Perm us :=
  (perm_roster_drain shop budget _ _ s).trans (.of_eq (roster_ofUnits us))

/-- No unit is lost in a batch, and none is added. -/
theorem perm_members_run (us : List (UnitId × String)) (s : S) :
    (run shop budget us s).1.members.Perm (us.map (·.1)) := by
  rw [← map_fst_roster]
  exact (perm_roster_run shop budget us s).map _

/-- A unit succeeds once at most. -/
theorem nodup_reloaded {us : List (UnitId × String)} (h : (us.map (·.1)).Nodup) (s : S) :
    (run shop budget us s).1.reloaded.Nodup := by
  have hmembers := (perm_members_run shop budget us s).nodup_iff.mpr h
  rw [members, List.map_append, List.map_append, List.nodup_append, List.nodup_append] at hmembers
  exact hmembers.1.2.1

/-- What succeeds is a unit of the batch. -/
theorem mem_of_mem_reloaded {us : List (UnitId × String)} {s : S} {u : UnitId}
    (h : u ∈ (run shop budget us s).1.reloaded) : u ∈ us.map (·.1) := by
  rw [← (perm_members_run shop budget us s).mem_iff, members,
    List.map_append, List.map_append]
  exact List.mem_append_left _ (List.mem_append_right _ h)

/-- What is given up on is a unit of the batch, and it does not succeed. -/
theorem of_mem_failures {us : List (UnitId × String)} (h : (us.map (·.1)).Nodup) {s : S}
    {f : Failure} (hf : f ∈ (run shop budget us s).1.failures) :
    ∃ u, (u, f.unit) ∈ us ∧ u ∉ (run shop budget us s).1.reloaded := by
  obtain ⟨p, hp, rfl⟩ := List.mem_map.mp hf
  have hroster : (p.unit, p.name) ∈ (run shop budget us s).1.roster :=
    List.mem_map_of_mem (List.mem_append_right _ hp)
  refine ⟨p.unit, (perm_roster_run shop budget us s).mem_iff.mp hroster, fun hc => ?_⟩
  -- it would be in two of the three places
  have hmembers := (perm_members_run shop budget us s).nodup_iff.mpr h
  rw [members, List.map_append, List.map_append, List.nodup_append] at hmembers
  exact hmembers.2.2 _ (List.mem_append_right _ hc) _ (List.mem_map_of_mem hp) rfl

/-! ### Batches without failures -/

variable {shop} in
/-- If every compilation succeeds then the queue is worked off in its order, and no unit is given up
on. -/
theorem drain_of_succeeding (hshop : shop.Keeps units P)
    (hok : ∀ u ∈ units, ∀ s, P s → ∃ table, (shop.compile u s).1 = .ok table) (n : Nat) {b : Batch}
    (hb : ∀ u ∈ b.members, u ∈ units) {s : S} (hs : P s) (hn : b.queue.length ≤ n) :
    (drain shop budget n b s).1.reloaded = b.reloaded ++ b.queue.map (·.unit) ∧
      (drain shop budget n b s).1.exhausted = b.exhausted := by
  induction n generalizing b s with
  | zero =>
    -- there is an attempt for each unit that waits
    have hq := List.length_eq_zero_iff.mp (Nat.le_zero.mp hn)
    rw [drain_of_nil shop budget _ s hq, hq]
    simp
  | succ n ih =>
    cases hq : b.queue with
    | nil =>
      rw [drain_of_nil shop budget _ s hq]
      simp
    | cons p rest =>
      obtain ⟨hp, hperm⟩ := members_of_cons shop budget hq s
      obtain ⟨table, htable⟩ :=
        hok p.unit (hb _ hp) _ (hshop.note p.name (.recompileStarted p.attempt) s rfl hs)
      have hattempt := attempt_of_ok shop budget { b with queue := rest } htable
      have hkept := attempt_preserves budget hshop (hb _ hp) { b with queue := rest } hs
      -- a unit that succeeds does not come back to the queue
      have hrest : (attempt shop budget p { b with queue := rest } s).1.queue.length ≤ n := by
        rw [hq, List.length_cons] at hn
        rw [hattempt]
        exact Nat.le_of_succ_le_succ hn
      obtain ⟨hreloaded, hexhausted⟩ := ih (fun u hu => hb u (hperm.mem_iff.mp hu)) hkept hrest
      rw [drain_of_cons shop budget n s hq, hreloaded, hexhausted, hattempt]
      simp [reloaded]

variable {shop} in
/-- A batch in which every compilation succeeds reloads its units in the order in which they were
given, and gives up on none. -/
theorem run_of_succeeding (us : List (UnitId × String)) (hshop : shop.Keeps (us.map (·.1)) P)
    (hok : ∀ u ∈ us.map (·.1), ∀ s, P s → ∃ table, (shop.compile u s).1 = .ok table) {s : S}
    (hs : P s) :
    (run shop budget us s).1.reloaded = us.map (·.1) ∧ (run shop budget us s).1.failures = [] := by
  -- one attempt for each unit is enough
  have hbound : (ofUnits us).queue.length ≤ bound us.length budget := by
    rw [ofUnits, List.length_map, bound]
    exact Nat.le_mul_of_pos_right _ (Nat.lt_of_lt_of_le Nat.zero_lt_one (Nat.le_max_right _ _))
  obtain ⟨hreloaded, hexhausted⟩ := drain_of_succeeding budget hshop hok
    (bound us.length budget) (b := ofUnits us) (fun u hu => members_ofUnits us ▸ hu) hs hbound
  refine ⟨hreloaded.trans ?_, ?_⟩
  · simp [reloaded, ofUnits, Progress.fresh, Function.comp_def]
  · rw [failures]
    exact List.map_eq_nil_iff.mpr hexhausted

end Batch

end HotReload
