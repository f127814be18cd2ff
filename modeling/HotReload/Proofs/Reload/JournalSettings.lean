import HotReload.Proofs.Reload.Calls
import HotReload.Proofs.Reload.History
import HotReload.Proofs.Reload.Recompilers

/-!
# Journal settings and calls

What a journal keeps is a matter of configuration. It is no concern of what a reload or a wrap does:
events are recorded beside the work, and nothing of the work depends on what has been recorded. So
there is one account of a call, its world and its history among it, and the settings decide how much
of the history its report shows (`Reloader.exists_account_of_session`). For two settings this says
that reports differ in their events at most, and how (`Report.Rejournaled`,
`Reloader.calls_ignore_journal`).

Each stage of a call is gone through for this: opening the session, running a batch, wrapping
definitions and propagating. A stage is taken from a history to a longer one, whatever the settings.
-/

namespace HotReload

variable {σ : Type}

/-! ### Batches -/

/-- A workshop **reflects** another one along `f`: it does to the image of a state what the other
one does to the state. -/
structure Workshop.Reflects {S T : Type} (shop' : Workshop T) (shop : Workshop S) (f : S → T) :
    Prop where
  note : ∀ unit e s, e.precedesRepair = true → shop'.note unit e (f s) = f (shop.note unit e s)
  compile : ∀ u s, shop'.compile u (f s) = ((shop.compile u s).1, f (shop.compile u s).2)
  install : ∀ u table s, shop'.install u table (f s) = f (shop.install u table s)

namespace Batch

variable {S T : Type} {shop' : Workshop T} {shop : Workshop S} {f : S → T}

/-- An attempt in the reflection is the reflection of the attempt. -/
theorem attempt_of_reflects (h : shop'.Reflects shop f) (budget : Nat) (p : Progress) (b : Batch)
    (s : S) :
    attempt shop' budget p b (f s) =
      ((attempt shop budget p b s).1, f (attempt shop budget p b s).2) := by
  have hnote := h.note p.name (.recompileStarted p.attempt) s rfl
  have hcompile := h.compile p.unit (shop.note p.name (.recompileStarted p.attempt) s)
  -- the answer of the recompiler is the same on both sides, so both go the same way
  cases hresult : (shop.compile p.unit (shop.note p.name (.recompileStarted p.attempt) s)).1 with
  | ok table =>
    rw [attempt_of_ok shop' budget b (by rw [hnote, hcompile, hresult]),
      attempt_of_ok shop budget b hresult, hnote, hcompile, h.install, h.note _ _ _ rfl]
  | error detail =>
    rw [attempt_of_error shop' budget b (by rw [hnote, hcompile, hresult]),
      attempt_of_error shop budget b hresult, hnote, hcompile]
    split
    · rw [h.note _ _ _ rfl]
    · rfl

/-- So is any number of attempts. -/
theorem drain_of_reflects (h : shop'.Reflects shop f) (budget n : Nat) (b : Batch) (s : S) :
    drain shop' budget n b (f s) =
      ((drain shop budget n b s).1, f (drain shop budget n b s).2) := by
  induction n generalizing b s with
  | zero => rfl
  | succ n ih =>
    cases hq : b.queue with
    | nil => rw [drain_of_nil _ budget _ _ hq, drain_of_nil _ budget _ _ hq]
    | cons p rest =>
      rw [drain_of_cons _ budget n _ hq, drain_of_cons _ budget n _ hq, attempt_of_reflects h]
      exact ih _ _

/-- **A batch is reflected** as its attempts are. -/
theorem run_of_reflects (h : shop'.Reflects shop f) (budget : Nat) (us : List (UnitId × String))
    (s : S) :
    run shop' budget us (f s) = ((run shop budget us s).1, f (run shop budget us s).2) := by
  -- the failures are noted at the end, one after the other
  have hfold : ∀ (fs : List Failure) (s : S),
      noteFailures shop' fs (f s) = f (noteFailures shop fs s) := by
    intro fs
    induction fs with
    | nil => exact fun _ => rfl
    | cons x fs ih =>
      intro s
      have hcons : noteFailures shop' (x :: fs) (f s) =
          noteFailures shop' fs (shop'.note x.unit (.recompileFailed x.attempts x.detail) (f s)) :=
        rfl
      rw [hcons, h.note _ _ _ rfl]
      exact ih _
  simp only [run, drain_of_reflects h, hfold]

end Batch

/-! ### Wrapping -/

namespace World

/-- What has been noted of a wrap so far concerns no removed symbol. -/
def WrapsOnly (p : WrapProgress) : Prop := ∀ e ∈ p.events, e.isSymbolRemoved = false

/-- One more wrapping leaves only wrappings. -/
theorem WrapsOnly.concat {p p' : WrapProgress} (h : WrapsOnly p) {name : String}
    (heq : p'.events = p.events ++ [.wrapped name]) : WrapsOnly p' := by
  intro e he
  rw [heq, List.mem_append, List.mem_singleton] at he
  rcases he with he | rfl
  · exact h e he
  · rfl

variable (job : WrapJob σ)

/-- To wrap a definition shows wrappings and nothing else. -/
theorem wrapsOnly_wrapDefinition {p : WrapProgress} (hp : WrapsOnly p) (w : World σ)
    (e : String × Definition) : WrapsOnly (wrapDefinition job p w e).1 := by
  obtain ⟨name, c | t⟩ := e
  · show WrapsOnly (wrapCallable job name c p w).1
    unfold wrapCallable
    split
    · exact hp
    · exact hp.concat rfl
  · show WrapsOnly (wrapType job t p w).1
    unfold wrapType
    split
    · exact hp
    · -- each member adds one event
      have hfold : ∀ (ms : List (String × Member)) (q : WrapProgress) (v : World σ), WrapsOnly q →
          WrapsOnly (ms.foldl (fun s m => wrapMember job t m.1 m.2 s.1 s.2) (q, v)).1 := by
        intro ms
        induction ms with
        | nil => exact fun _ _ hq => hq
        | cons m ms ih => exact fun q v hq => ih _ _ (hq.concat rfl)
      exact hfold _ _ _ hp

/-- And so do all definitions of a unit. -/
theorem wrapsOnly_wrapEach (defs : List (String × Definition)) {p : WrapProgress}
    (hp : WrapsOnly p) (w : World σ) : WrapsOnly (wrapEach job defs p w).1 := by
  induction defs generalizing p w with
  | nil => exact hp
  | cons e rest ih =>
    rw [wrapEach_cons]
    exact ih (wrapsOnly_wrapDefinition job hp _ e) _

end World

/-- The events of a wrap concern no removed symbols, so all of them are recorded. -/
theorem Reloader.wrapAll_under (wrapper : Wrapper σ) (options : WrapOptions)
    (owned : List (UnitId × List (String × Definition))) (s : Session) (w : World σ) :
    ∃ h' w', ∀ (j : JournalSettings) (h : History),
      wrapAll wrapper options owned (s.under j h) w = (s.under j (h ++ h'), w') := by
  induction owned generalizing w with
  | nil => exact ⟨[], w, fun j h => by rw [List.append_nil]; rfl⟩
  | cons x rest ih =>
    obtain ⟨u, defs⟩ := x
    let job : WrapJob σ := ⟨wrapper, options, fun _ w => w⟩
    -- wrappings are recorded under all settings
    have hevents : ∀ e ∈ (w.wrapDefinitions job u defs).2, e.isSymbolRemoved = false :=
      World.wrapsOnly_wrapEach job defs (fun _ he => absurd he List.not_mem_nil) w
    obtain ⟨h', w', hrest⟩ := ih (w.wrapDefinitions job u defs).1
    let unit := ((w.wrapDefinitions job u defs).1.unit u).name
    let events := (w.wrapDefinitions job u defs).2
    refine ⟨events.map (unit, ·) ++ h', w', fun j h => ?_⟩
    have hnoted : { s.under j h with journal := (j.tells h).logAll unit events } =
        s.under j (h ++ events.map (unit, ·)) := by
      rw [j.logAll_tells_of_forall h unit hevents]
      rfl
    calc wrapAll wrapper options ((u, defs) :: rest) (s.under j h) w
        = wrapAll wrapper options rest
            { s.under j h with journal := (j.tells h).logAll unit events }
            (w.wrapDefinitions job u defs).1 := rfl
      _ = (s.under j (h ++ events.map (unit, ·) ++ h'), w') := by rw [hnoted, hrest]
      _ = (s.under j (h ++ (events.map (unit, ·) ++ h')), w') := by rw [List.append_assoc]

/-! ### Opening -/

variable [Host σ]

/-- A session is opened alike under all settings, up to its journal. -/
theorem Session.start_journaling (w : World σ) (us : List UnitId) (r : RegistryId) (e : Enumerator)
    (config : Config) (j : JournalSettings) :
    start w us r e (config.journaling j) =
      ((start w us r e config).1.map fun s => s.under j s.references.history,
        (start w us r e config).2) := by
  unfold start
  split
  · rfl
  · simp only [firstJournal_journaling]
    rfl

namespace Reloader

/-- A reloader with other journal settings. -/
def journaling (r : Reloader) (j : JournalSettings) : Reloader :=
  { r with config := r.config.journaling j }

variable {r : Reloader}

/-- Targets do not depend on the journal either. -/
theorem prepare_journaling (hr : r.config.fault? = none) {j : JournalSettings}
    (hj : (r.config.journaling j).fault? = none) (names : List String) (w : World σ) :
    (r.journaling j).prepare names w =
      ((r.prepare names w).1.map fun x => (x.1, x.2.under j x.2.references.history),
        (r.prepare names w).2) := by
  have hfault : (r.journaling j).config.fault? = none := hj
  have htargets : targets w (r.journaling j).registry names = targets w r.registry names := rfl
  simp only [prepare, hfault, hr, htargets]
  cases targets w r.registry names with
  | error e => rfl
  | ok us =>
    have hstart : Session.start w us (r.journaling j).registry (r.journaling j).enumerator
        (r.journaling j).config = _ :=
      Session.start_journaling w us r.registry r.enumerator r.config j
    simp only [hstart]
    cases Session.start w us r.registry r.enumerator r.config with
    | mk result v => cases result <;> rfl

/-- A call under other settings is opened on the same targets, and its session differs in its
journal only. -/
theorem openCall_journaling (hr : r.config.fault? = none) {j : JournalSettings}
    (hj : (r.config.journaling j).fault? = none) (names : List String) (w : World σ) :
    (r.journaling j).openCall names w = (r.openCall names w).map fun x =>
      (x.1, x.2.1.under j x.2.1.references.history, x.2.2) := by
  have hprepare := prepare_journaling hr hj names (r.entered w)
  have hentered : (r.journaling j).entered w = r.entered w := rfl
  have hguard : (r.journaling j).guard = r.guard := rfl
  simp only [openCall, hentered, hguard, hprepare]
  -- the guard is looked at first, and no setting takes it
  split
  · rfl
  · cases r.prepare names (r.entered w) with
    | mk result v => cases result <;> rfl

/-! ### The account of a call -/

/-- A report with the events that the settings let through of a history. -/
def telling (report : Report) (j : JournalSettings) (h : History) : Report :=
  { report with events := (j.tells h).entries }

/-- **One account for all settings.** If what is done in a session is the same under all settings,
then so is the whole call, and the settings decide what its report shows of its history. -/
theorem exists_account_of_session (hr : r.config.fault? = none) (names : List String) (w : World σ)
    (call : JournalSettings → List UnitId → Session → World σ → Report × World σ)
    (hcall : ∀ us (s : Session) h v, ∃ report h' v', ∀ j,
      call j us (s.under j h) v = (telling report j h', v')) :
    ∃ (answer : Except ReloadError (Report × History)) (w' : World σ), ∀ j : JournalSettings,
      (r.config.journaling j).fault? = none →
        (r.journaling j).inSession names (call j) w =
          (answer.map fun x => telling x.1 j x.2, w') := by
  cases hopen : r.openCall names w with
  | error e =>
    -- a refused call has no journal at all
    refine ⟨.error e, r.refused w, fun j hj => ?_⟩
    rw [inSession_eq, openCall_journaling hr hj, hopen]
    rfl
  | ok opened =>
    obtain ⟨us, s, v⟩ := opened
    obtain ⟨report, h', v', hall⟩ := hcall us s s.references.history v
    refine ⟨.ok (report, h'), r.closed w v', fun j hj => ?_⟩
    rw [inSession_eq, openCall_journaling hr hj, hopen]
    show (Except.ok (call j us (s.under j s.references.history) v).1, _) = _
    rw [hall j]
    rfl

/-- The workshop of a reload with a history in the place of a journal. -/
def chronicling (recompile : Recompiler σ) (r : Reloader) : Workshop (World σ × History) where
  compile u s :=
    let (result, w) := recompile u r.registry s.1
    (result, w, s.2)
  install u table s := (s.1.install r.config.installMode u table, s.2)
  note unit event s := (s.1, s.2 ++ [(unit, event)])

omit [Host σ] in
/-- What a workshop notes under some settings is told by the history. -/
theorem reflects_chronicling (recompile : Recompiler σ) (r : Reloader) (j : JournalSettings) :
    ((r.journaling j).workshop recompile).Reflects (r.chronicling recompile)
      fun s => (s.1, j.tells s.2) where
  note unit e s he := by
    have hrecorded : e.isSymbolRemoved = false := by
      cases e <;> first | rfl | cases he
    exact congrArg (Prod.mk s.1) (j.log_tells s.2 unit hrecorded)
  compile _ _ := rfl
  install _ _ _ := rfl

/-- **The work of a reload, told by one history for all settings.** -/
theorem reloadIn_under (recompile : Recompiler σ) (r : Reloader) (us : List UnitId) (s : Session)
    (h : History) (v : World σ) :
    ∃ report h' v', ∀ j,
      reloadIn recompile (r.journaling j) us (s.under j h) v = (telling report j h', v') := by
  -- the history is the state beside the world, in the place of a journal
  let batch := Batch.run (r.chronicling recompile) r.config.retryBudget
    (us.map fun u => (u, (v.unit u).name)) (v, h)
  let ended := s.propagate batch.1.reloaded batch.2.1
  refine ⟨report s (namesOf ended.2.2 batch.1.reloaded) batch.1.failures ended.2.1,
    batch.2.2 ++ s.propagationHistory batch.1.reloaded batch.2.1, ended.2.2, fun j => ?_⟩
  have hrun : Batch.run ((r.journaling j).workshop recompile) (r.journaling j).config.retryBudget
      (us.map fun u => (u, (v.unit u).name)) (v, (s.under j h).journal) =
        (batch.1, batch.2.1, j.tells batch.2.2) :=
    Batch.run_of_reflects (reflects_chronicling recompile r j) _ _ (v, h)
  have hpropagate : { s.under j h with journal := j.tells batch.2.2 }.propagate batch.1.reloaded
      batch.2.1 = _ := s.propagate_under j batch.2.2 batch.1.reloaded batch.2.1
  simp only [reloadIn, recompileIn, hrun, hpropagate]
  rfl

/-- The work of a wrap, told likewise. -/
theorem wrapIn_under (wrapper : Wrapper σ) (options : WrapOptions) (us : List UnitId) (s : Session)
    (h : History) (v : World σ) :
    ∃ report h' v', ∀ j,
      wrapIn wrapper options us (s.under j h) v = (telling report j h', v') := by
  obtain ⟨hwraps, v', hall⟩ := wrapAll_under wrapper options
    (us.map fun u => (u, v.ownDefinitions (v.unit u).name (v.exports u))) s v
  let ended := s.propagate us v'
  refine ⟨report s (namesOf ended.2.2 us) [] ended.2.1,
    h ++ hwraps ++ s.propagationHistory us v', ended.2.2, fun j => ?_⟩
  simp only [wrapIn, hall j h, s.propagate_under j (h ++ hwraps) us v']
  rfl

end Reloader

/-! ### Two settings -/

/-- **Reports under two settings.** They tell the same of the call. If the first journal is
unbounded and records the same, then the second shows the last of its entries. If both are unbounded
and only the first records removed symbols, then the second shows the other entries with new
numbers. -/
structure Report.Rejournaled (j j' : JournalSettings) (report report' : Report) : Prop where
  reloaded : report'.reloaded = report.reloaded
  failures : report'.failures = report.failures
  skippedUnits : report'.skippedUnits = report.skippedUnits
  stats : report'.stats = report.stats
  bounded : j'.logRemovedSymbols = j.logRemovedSymbols → j.capacity = none → ∀ n,
    j'.capacity = some n → report'.events = report.events.drop (report.events.length - n)
  filtered : j = ⟨none, true⟩ → j' = ⟨none, false⟩ →
    report'.events = Journal.renumbered (report.events.filter (!·.event.isSymbolRemoved))

/-- **Answers under two settings**: the same error or reports that tell the same, and one world. -/
structure SameAnswer (j j' : JournalSettings)
    (answer answer' : Except ReloadError Report × World σ) : Prop where
  world : answer'.2 = answer.2
  error : ∀ e, answer'.1 = .error e ↔ answer.1 = .error e
  report : ∀ report, answer.1 = .ok report →
    ∃ report', answer'.1 = .ok report' ∧ report.Rejournaled j j' report'

/-- Views of one history differ as the settings say. -/
theorem Report.rejournaled_telling (report : Report) (j j' : JournalSettings) (h : History) :
    (Reloader.telling report j h).Rejournaled j j' (Reloader.telling report j' h) where
  reloaded := rfl
  failures := rfl
  skippedUnits := rfl
  stats := rfl
  bounded hlog hnone n hn := by
    have hrecords : j'.records = j.records := by
      funext e
      rw [JournalSettings.records, JournalSettings.records, hlog]
    show Journal.trim j'.capacity (Journal.numbered (h.filter (j'.records ·.2))) =
      (Journal.trim j.capacity (Journal.numbered (h.filter (j.records ·.2)))).drop _
    rw [hrecords, hn]
    simp only [Reloader.telling, JournalSettings.tells, Journal.telling, hnone, Journal.trim]
  -- the bound on the journal is gone here, so nothing but the filter is left
  filtered hj hj' := by
    subst hj hj'
    -- with everything recorded the entries are those of the whole history
    have hall : h.filter ((⟨none, true⟩ : JournalSettings).records ·.2) = h :=
      List.filter_eq_self.mpr fun _ _ => rfl
    show Journal.numbered (h.filter ((⟨none, false⟩ : JournalSettings).records ·.2)) =
      Journal.renumbered ((Journal.numbered (h.filter
        ((⟨none, true⟩ : JournalSettings).records ·.2))).filter (!·.event.isSymbolRemoved))
    rw [hall, Journal.renumbered_filter (fun e => !e.isSymbolRemoved)]
    rfl

omit [Host σ] in
/-- Two settings that tell the same account give the same answer. -/
theorem sameAnswer_of_account {j j' : JournalSettings}
    {answer : Except ReloadError (Report × History)} {w : World σ} :
    SameAnswer j j' (answer.map fun x => Reloader.telling x.1 j x.2, w)
      (answer.map fun x => Reloader.telling x.1 j' x.2, w) := by
  cases answer with
  | error e => exact ⟨rfl, fun _ => Iff.rfl, fun _ h => nomatch h⟩
  | ok x =>
    refine ⟨rfl, fun e => iff_of_false nofun nofun, fun report h => ?_⟩
    obtain rfl := Except.ok.inj h
    exact ⟨_, rfl, x.1.rejournaled_telling j j' x.2⟩

namespace Reloader

/-- **Journal settings are no concern of a call.** Under any two of them with which its
configuration has no fault, a reload or a wrap refuses for the same reason or returns reports that
differ in their events only, and it leaves the same world. -/
theorem calls_ignore_journal (r : Reloader) {j j' : JournalSettings}
    (hj : (r.config.journaling j).fault? = none) (hj' : (r.config.journaling j').fault? = none)
    (names : List String) (w : World σ) :
    (∀ recompile, SameAnswer j j' ((r.journaling j).reload recompile names w)
        ((r.journaling j').reload recompile names w)) ∧
      ∀ wrapper options, SameAnswer j j' ((r.journaling j).wrap wrapper options names w)
        ((r.journaling j').wrap wrapper options names w) := by
  have hvalid : (r.journaling j).config.fault? = none := hj
  constructor
  · intro recompile
    obtain ⟨answer, w', hall⟩ := exists_account_of_session hvalid names w
      (fun j => reloadIn recompile (r.journaling j))
      fun us s h v => reloadIn_under recompile r us s h v
    have hfirst : (r.journaling j).reload recompile names w = _ := hall j hj
    have hsecond : (r.journaling j').reload recompile names w = _ := hall j' hj'
    rw [hfirst, hsecond]
    exact sameAnswer_of_account
  · intro wrapper options
    obtain ⟨answer, w', hall⟩ := exists_account_of_session hvalid names w
      (fun _ => wrapIn wrapper options)
      fun us s h v => wrapIn_under wrapper options us s h v
    have hfirst : (r.journaling j).wrap wrapper options names w = _ := hall j hj
    have hsecond : (r.journaling j').wrap wrapper options names w = _ := hall j' hj'
    rw [hfirst, hsecond]
    exact sameAnswer_of_account

open Scenario.TwoUnits

/-- A reloader that puts new tables in the place of old ones. -/
def replacing : Reloader :=
  { reloader with config := { Config.standard with installMode := .replace } }

/-- The course of a reload after which `b` exports nothing but a new `g`. -/
def removal : Course Fixture :=
  ((replacing.journaling ⟨none, true⟩).course? (.renewing "g") ["b"] opening).get
    (by decide +kernel)

/-- Both definitions that `a` has from `b` are gone. A journal that does not record this has the
other entries with other numbers, and the count of removed symbols is there all the same. -/
theorem calls_ignore_journal_removal :
    ∃ report report' w',
      (replacing.journaling ⟨none, true⟩).reload (.renewing "g") ["b"] opening =
        (.ok report, w') ∧
      (replacing.journaling ⟨none, false⟩).reload (.renewing "g") ["b"] opening =
        (.ok report', w') ∧
      report.stats.removedSymbols = 2 ∧ report'.stats = report.stats ∧
      report'.events =
        Journal.renumbered (report.events.filter (!·.event.isSymbolRemoved)) := by
  have hcourse : (replacing.journaling ⟨none, true⟩).course? (.renewing "g") ["b"] opening =
      some removal := (Option.some_get _).symm
  have hreload := reload_of_course hcourse
  have hlogged : (replacing.config.journaling ⟨none, true⟩).fault? = none := rfl
  have hleft : (replacing.config.journaling ⟨none, false⟩).fault? = none := rfl
  obtain ⟨hreloads, -⟩ := calls_ignore_journal replacing hlogged hleft ["b"] opening
  have hanswer := hreloads (.renewing "g")
  obtain ⟨report', hreport', hsame⟩ := hanswer.report _ (congrArg Prod.fst hreload)
  have hworld := hanswer.world.trans (congrArg Prod.snd hreload)
  exact ⟨removal.report, report', _, hreload, Prod.ext hreport' hworld, by decide +kernel,
    hsame.stats, hsame.filtered rfl rfl⟩

end Reloader

end HotReload
