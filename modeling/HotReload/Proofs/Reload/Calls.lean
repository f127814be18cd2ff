import HotReload.Proofs.Reload.Course

/-!
# Calls of reloaders

A call to a reloader opens its session before it does anything else. Up to there it can be refused,
by its guard or for what it has been asked to do; from there on it returns a report
(`Reloader.inSession_eq`). So what comes after the opening can rely on it: a second look at the
exports of a target cannot fail (`Reloader.introspectOwn_of_opening`).

A batch and a wrap depend on the recompiler or the wrapper only in the worlds that they go through:
with another one that does the same there they come to the same (`Batch.run_congr`,
`World.wrapEach_agrees`).
-/

namespace HotReload

variable {σ : Type}

/-! ### Batches -/

namespace Batch

variable {S : Type} {P : S → Prop} {units : List UnitId} {shop : Workshop S}
  {compile : UnitId → S → Except String (Table Value) × S}

/-- A workshop that compiles the same as another one in the states of a batch makes the same
attempts. -/
theorem attempt_congr (hshop : shop.Keeps units P)
    (hcompile : ∀ u ∈ units, ∀ s, P s → compile u s = shop.compile u s) (budget : Nat)
    {p : Progress} (hp : p.unit ∈ units) (b : Batch) {s : S} (hs : P s) :
    attempt { shop with compile := compile } budget p b s = attempt shop budget p b s := by
  have hnote := hshop.note p.name (.recompileStarted p.attempt) s rfl hs
  simp only [attempt, hcompile p.unit hp _ hnote]

/-- Two recompilers that agree as long as something is kept make the same attempts. -/
theorem drain_congr (hshop : shop.Keeps units P)
    (hcompile : ∀ u ∈ units, ∀ s, P s → compile u s = shop.compile u s) (budget n : Nat)
    {b : Batch} (hb : ∀ u ∈ b.members, u ∈ units) {s : S} (hs : P s) :
    drain { shop with compile := compile } budget n b s = drain shop budget n b s := by
  induction n generalizing b s with
  | zero => rfl
  | succ n ih =>
    cases hq : b.queue with
    | nil => rw [drain_of_nil _ budget _ s hq, drain_of_nil _ budget _ s hq]
    | cons p rest =>
      obtain ⟨hp, hperm⟩ := members_of_cons shop budget hq s
      rw [drain_of_cons _ budget n s hq, drain_of_cons _ budget n s hq,
        attempt_congr hshop hcompile budget (hb _ hp) _ hs]
      exact ih (fun u hu => hb u (hperm.mem_iff.mp hu))
        (attempt_preserves budget hshop (hb _ hp) _ hs)

/-- A batch depends on how its units are compiled in the states that it goes through, and on no
other. -/
theorem run_congr (budget : Nat) (us : List (UnitId × String)) (hshop : shop.Keeps (us.map (·.1)) P)
    (hcompile : ∀ u ∈ us.map (·.1), ∀ s, P s → compile u s = shop.compile u s) {s : S}
    (hs : P s) : run { shop with compile := compile } budget us s = run shop budget us s := by
  simp only [run, drain_congr hshop hcompile budget _
    (fun u hu => members_ofUnits us ▸ hu) hs]
  rfl

end Batch

/-! ### Wraps -/

/-- What a wrap does to a world, from one definition to the next, **keeps** `P`. -/
structure WrapJob.Keeps (job : WrapJob σ) (P : World σ → Prop) : Prop where
  wrapper : ∀ c name w, P w → P (job.wrapper c name w).2
  note : ∀ e w, P w → P (job.note e w)
  setMember : ∀ t name m w, P w → P (w.setMember t name m)
  pins : ∀ pins w, P w → P { w with pins := pins }

namespace World

variable {P : World σ → Prop} {job : WrapJob σ} {wrapper : Wrapper σ}

/-- What is held on to while definitions are wrapped. -/
def keptIn (defs : List (String × Definition)) : List Node :=
  defs.flatMap fun e => (Value.definition e.2).nodes

/-- Definitions are wrapped one after the other, while those that are left are held on to. -/
theorem wrapEach_cons (job : WrapJob σ) (e : String × Definition)
    (rest : List (String × Definition)) (p : WrapProgress) (w : World σ) :
    wrapEach job (e :: rest) p w =
      wrapEach job rest (w.holding (keptIn (e :: rest)) (wrapDefinition job p · e)).1
        (w.holding (keptIn (e :: rest)) (wrapDefinition job p · e)).2 :=
  rfl

/-- A callable is wrapped alike by wrappers that do the same, and what the wrapper keeps is kept. -/
theorem wrapCallable_agrees (hjob : job.Keeps P)
    (hagrees : ∀ c name w, P w → wrapper c name w = job.wrapper c name w) (name : String)
    (c : CallableId) (p : WrapProgress) {w : World σ} (hw : P w) :
    wrapCallable { job with wrapper := wrapper } name c p w = wrapCallable job name c p w ∧
      P (wrapCallable job name c p w).2 := by
  unfold wrapCallable
  split
  · exact ⟨rfl, hw⟩
  · have hnote := hjob.note (.wrapped (w.callableName c).text) w hw
    simp only [hagrees _ _ _ hnote]
    exact ⟨trivial, hjob.wrapper _ _ _ hnote⟩

/-- For a member the wrapper is asked once. -/
theorem wrapMember_agrees (hjob : job.Keeps P)
    (hagrees : ∀ c name w, P w → wrapper c name w = job.wrapper c name w) (t : TypeId)
    (name : String) (m : Member) (p : WrapProgress) {w : World σ} (hw : P w) :
    wrapMember { job with wrapper := wrapper } t name m p w = wrapMember job t name m p w ∧
      P (wrapMember job t name m p w).2 := by
  unfold wrapMember
  simp only [hagrees _ _ _ hw]
  exact ⟨trivial, hjob.note _ _ (hjob.setMember _ _ _ _ (hjob.wrapper _ _ _ hw))⟩

/-- The members of a type, one after the other. -/
theorem wrapMembers_agrees (hjob : job.Keeps P)
    (hagrees : ∀ c name w, P w → wrapper c name w = job.wrapper c name w) (t : TypeId)
    (members : List (String × Member)) (p : WrapProgress) {w : World σ} (hw : P w) :
    members.foldl (fun (p, w) e => wrapMember { job with wrapper := wrapper } t e.1 e.2 p w)
        (p, w) =
      members.foldl (fun (p, w) e => wrapMember job t e.1 e.2 p w) (p, w) ∧
      P (members.foldl (fun (p, w) e => wrapMember job t e.1 e.2 p w) (p, w)).2 := by
  induction members generalizing p w with
  | nil => exact ⟨rfl, hw⟩
  | cons e members ih =>
    obtain ⟨heq, hP⟩ := wrapMember_agrees hjob hagrees t e.1 e.2 p hw
    simp only [List.foldl_cons, heq]
    exact ih (wrapMember job t e.1 e.2 p w).1 hP

/-- A definition is a callable, or a type with its members. -/
theorem wrapDefinition_agrees (hjob : job.Keeps P)
    (hagrees : ∀ c name w, P w → wrapper c name w = job.wrapper c name w) (p : WrapProgress)
    {w : World σ} (hw : P w) (e : String × Definition) :
    wrapDefinition { job with wrapper := wrapper } p w e = wrapDefinition job p w e ∧
      P (wrapDefinition job p w e).2 := by
  obtain ⟨name, c | t⟩ := e
  · exact wrapCallable_agrees hjob hagrees name c p hw
  · show wrapType _ t p w = wrapType job t p w ∧ P (wrapType job t p w).2
    unfold wrapType
    split
    · -- a type that has been wrapped is passed over
      exact ⟨rfl, hw⟩
    · exact wrapMembers_agrees hjob hagrees t _ _ hw

/-- **Two wrappers that agree as long as something is kept wrap alike**, and keep it. -/
theorem wrapEach_agrees (hjob : job.Keeps P)
    (hagrees : ∀ c name w, P w → wrapper c name w = job.wrapper c name w)
    (defs : List (String × Definition)) (p : WrapProgress) {w : World σ} (hw : P w) :
    wrapEach { job with wrapper := wrapper } defs p w = wrapEach job defs p w ∧
      P (wrapEach job defs p w).2 := by
  induction defs generalizing p w with
  | nil => exact ⟨rfl, hw⟩
  | cons e rest ih =>
    -- what is still to be wrapped is pinned for the time of one definition
    have hpinned : P (w.pin (keptIn (e :: rest))) := hjob.pins _ w hw
    obtain ⟨heq, hP⟩ := wrapDefinition_agrees hjob hagrees p hpinned e
    have hholding : w.holding (keptIn (e :: rest))
        (wrapDefinition { job with wrapper := wrapper } p · e) =
          w.holding (keptIn (e :: rest)) (wrapDefinition job p · e) := by
      rw [holding, heq]
      rfl
    rw [wrapEach_cons, wrapEach_cons, hholding]
    exact ih _ (hjob.pins w.pins _ hP)

end World

/-! ### Opening -/

namespace Reloader

variable [Host σ] {α : Type}

/-- **Opening a call**: the targets, the session, and the world in which the work of the call
starts, or why the call is refused. -/
def openCall (r : Reloader) (names : List String) (w : World σ) :
    Except ReloadError (List UnitId × Session × World σ) :=
  if w.isHeld r.guard then .error .busy
  else
    match r.prepare names (r.entered w) with
    | (.error e, _) => .error e
    | (.ok (us, s), v) => .ok (us, s, v.pin (us.map .unit ++ s.nodes))

/-- The world when a call has been refused: its guard has been tried, or taken and released. -/
def refused (r : Reloader) (w : World σ) : World σ :=
  if w.isHeld r.guard then w else (w.putGuard r.guard true).putGuard r.guard false

/-- The world when a call that started in `w` returns from `v`. -/
def closed (r : Reloader) (w v : World σ) : World σ :=
  { v with pins := w.pins }.putGuard r.guard false

omit [Host σ] in
/-- Looking for targets never ends with the refusal of a second call. -/
theorem targets_ne_busy (w : World σ) (r : RegistryId) (names : List String) :
    targets w r names ≠ .error .busy := by
  induction names with
  | nil => exact fun h => nomatch h
  | cons name names ih =>
    intro h
    rw [targets] at h
    split at h
    · cases h
    · next u _ =>
      cases hrest : targets w r names with
      | error e =>
        rw [hrest] at h
        cases h
        exact ih hrest
      -- all names are known, so there is no error
      | ok us =>
        rw [hrest] at h
        cases h

/-- A session that is not opened leaves the world as it was. -/
theorem world_of_start_error {w v : World σ} {us : List UnitId} {reg : RegistryId}
    {enumerator : Enumerator} {config : Config} {e : IntrospectError}
    (h : Session.start w us reg enumerator config = (.error e, v)) : v = w := by
  rw [Session.start] at h
  split at h
  · cases h
    rfl
  · cases h

/-- A preparation that fails has changed nothing, and it does not blame another call. -/
theorem prepare_eq_error {r : Reloader} {names : List String} {w v : World σ} {e : ReloadError}
    (h : r.prepare names w = (.error e, v)) : v = w ∧ e ≠ .busy := by
  unfold prepare at h
  split at h
  · cases h
    exact ⟨rfl, fun hc => nomatch hc⟩
  · split at h
    · -- an unknown name
      next e' htargets =>
      cases h
      refine ⟨rfl, fun hc => ?_⟩
      rw [hc] at htargets
      exact targets_ne_busy _ _ _ htargets
    · split at h
      · -- a unit that cannot be read
        next us _ e' w' hstart =>
        cases h
        exact ⟨world_of_start_error hstart, fun hc => nomatch hc⟩
      · cases h

/-- **A call depends on its work only once it is open.** -/
theorem inSession_eq (r : Reloader) (names : List String)
    (call : List UnitId → Session → World σ → α × World σ) (w : World σ) :
    r.inSession names call w =
      match r.openCall names w with
      | .error e => (.error e, r.refused w)
      | .ok (us, s, v) => (.ok (call us s v).1, r.closed w (call us s v).2) := by
  unfold inSession guarded openCall refused
  split
  · rfl
  · simp only [World.holding]
    cases hprepare : r.prepare names (r.entered w) with
    | mk result v =>
      rw [entered] at hprepare
      simp only [hprepare]
      cases result with
      | error e =>
        -- a failed preparation has left the world alone
        obtain ⟨rfl, -⟩ := prepare_eq_error hprepare
        rfl
      | ok opened => rfl

/-- Opening a call may sweep a heap, and takes the guard and pins what the call works on. No other
cell is written. -/
theorem opening_eq {r : Reloader} {names : List String} {w v : World σ} {us : List UnitId}
    {s : Session} (h : r.openCall names w = .ok (us, s, v)) :
    ∃ heaps guards pins, v = { w with heaps := heaps, guards := guards, pins := pins } := by
  unfold openCall at h
  split at h
  · cases h
  · split at h
    · cases h
    · next us' s' v' hprepare =>
      obtain ⟨-, -, hstart⟩ := prepare_eq_ok hprepare
      obtain ⟨-, -, -, -, heaps, rfl⟩ := Session.opened_of_start hstart
      cases h
      exact ⟨heaps, _, _, rfl⟩

/-- To open a session changes no exports. -/
theorem export?_of_opening {r : Reloader} {names : List String} {w v : World σ} {us : List UnitId}
    {s : Session} (h : r.openCall names w = .ok (us, s, v)) (u : UnitId) (x : String) :
    v.export? u x = w.export? u x := by
  obtain ⟨heaps, guards, pins, rfl⟩ := opening_eq h
  rfl

omit [Host σ] in
/-- Units of which a snapshot could be taken show their exports. -/
theorem isOpen_of_addAll {w : World σ} {us : List UnitId} {s s' : Snapshot}
    (h : Snapshot.addAll w us s = .ok s') : ∀ u ∈ us, w.isOpen u = true := by
  induction us generalizing s with
  | nil => exact List.forall_mem_nil _
  | cons u us ih =>
    obtain ⟨hopen, hrest⟩ := Snapshot.addAll_cons_eq_ok.mp h
    exact List.forall_mem_cons.mpr ⟨hopen, ih hrest⟩

/-- A target that a session was opened on shows its exports a second time, so reading what it owns
cannot fail any more. -/
theorem introspectOwn_of_opening {r : Reloader} {names : List String} {w v : World σ}
    {us : List UnitId} {s : Session} (h : r.openCall names w = .ok (us, s, v)) {u : UnitId}
    (hu : u ∈ us) : v.introspectOwn u = .ok (v.ownDefinitions (v.unit u).name (v.exports u)) := by
  -- the snapshot has read the unit, so it is not sealed
  have hopen : v.isOpen u = true := by
    unfold openCall at h
    split at h
    · cases h
    · split at h
      · cases h
      · next us' s' v' hprepare =>
        obtain ⟨-, -, hstart⟩ := prepare_eq_ok hprepare
        obtain ⟨hopened, -, -, -, heaps, rfl⟩ := Session.opened_of_start hstart
        cases h
        exact isOpen_of_addAll hopened.capture_eq u hu
  rw [World.introspectOwn, World.introspect_eq_ok_iff.mpr ⟨hopen, rfl⟩]
  rfl

namespace Course

variable {recompile : Recompiler σ} {r : Reloader} {names : List String} {w : World σ}

/-- A course begins as the call is opened. -/
theorem opening_of_course {c : Course σ} (h : r.course? recompile names w = some c) :
    r.openCall names w = .ok (c.targets, c.session, c.opened) := by
  unfold course? at h
  unfold openCall
  split at h
  · cases h
  · next hheld =>
    rw [if_neg hheld]
    -- both look at the same preparation
    cases hprepare : r.prepare names (r.entered w) with
    | mk result v =>
      rw [hprepare] at h
      cases result with
      | error e => cases h
      | ok opened =>
        cases h
        rfl

/-- Whatever the call is going to do, what it is opened with is that of a course. -/
theorem exists_of_opening (recompile : Recompiler σ) {us : List UnitId} {s : Session} {v : World σ}
    (h : r.openCall names w = .ok (us, s, v)) :
    ∃ c, r.course? recompile names w = some c ∧ c.targets = us ∧ c.session = s ∧ c.opened = v := by
  unfold openCall at h
  unfold course?
  split at h
  · cases h
  · next hheld =>
    rw [if_neg hheld]
    cases hprepare : r.prepare names (r.entered w) with
    | mk result v' =>
      rw [hprepare] at h
      cases result with
      -- a failed preparation opens nothing
      | error e => cases h
      | ok opened =>
        cases h
        exact ⟨_, rfl, rfl, rfl, rfl⟩

end Course

end Reloader

end HotReload
