import HotReload.Proofs.Reload.Calls
import HotReload.Proofs.Reload.Recompilers

/-!
# The guard of a reloader

A reloader takes its guard when a call begins and releases it when the call returns. Code of the
host that runs in between, as a recompiler or as a wrapper, can make calls of its own, at any depth:
`HostCode` tells such code by its changes to the world and its calls to reloaders. Guards are
private to reloaders, so a change leaves them as they are (`Change`).

* Host code releases what it takes: it leaves every guard as it was (`HostCode.isHeld_run`).
* While a guard is held, host code fares as it does when every call to a reloader with this guard is
  answered by a refusal and nothing else happens (`HostCode.run_refusing`).
* So a call on a reloader that is busy is refused at any depth, and a call that is not made from
  within another one never is for that reason (`Reloader.calls_guarded`).
-/

namespace HotReload

variable {σ : Type}

namespace World

/-! ### What leaves guards alone -/

@[simp] theorem isHeld_pin (w : World σ) (nodes : List Node) (g : GuardId) :
    (w.pin nodes).isHeld g = w.isHeld g := rfl

@[simp] theorem isHeld_install (w : World σ) (mode : InstallMode) (u : UnitId) (table : Table Value)
    (g : GuardId) : (w.install mode u table).isHeld g = w.isHeld g := by
  cases mode <;> rfl

/-- A new guard is free, and the others are what they were. -/
theorem isHeld_newGuard (w : World σ) (g : GuardId) : w.newGuard.2.isHeld g = w.isHeld g := by
  show (w.guards.alloc false).2.get g.index = w.guards.get g.index
  rw [Store.get_alloc]
  split
  · next h =>
    -- a guard that is not there yet reads as free, too
    rw [h]
    exact (w.guards.get_of_size_le (Nat.le_refl _)).symm
  · rfl

/-- A propagation neither takes nor gives back a guard. -/
theorem isHeld_propagate [Host σ] (s : Session) (us : List UnitId) (w : World σ) (g : GuardId) :
    (s.propagate us w).2.2.isHeld g = w.isHeld g := by
  rw [isHeld, isHeld, (Session.frame_propagate s us w).guards]

/-- **Untouched.** All cells are as they were, and no guard is held that was not. -/
structure Untouched (w w' : World σ) : Prop where
  cells : w' = { w with guards := w'.guards }
  guards : ∀ g, w'.isHeld g = w.isHeld g

end World

/-- A recompiler **spares guards** if it leaves them as it finds them. -/
def Recompiler.SparesGuards (recompile : Recompiler σ) : Prop :=
  ∀ u reg w g, (recompile u reg w).2.isHeld g = w.isHeld g

/-- A wrapper **spares guards** if it leaves them as it finds them. -/
def Wrapper.SparesGuards (wrapper : Wrapper σ) : Prop :=
  ∀ c name w g, (wrapper c name w).2.isHeld g = w.isHeld g

namespace Reloader

variable [Host σ] {recompile recompile' : Recompiler σ} {wrapper wrapper' : Wrapper σ}
  {g : GuardId}

/-! ### The work of a call -/

omit [Host σ] in
/-- A batch leaves guards alone if its recompiler does. -/
theorem keeps_workshop_guards (r : Reloader) (hspares : recompile.SparesGuards) (held : Bool)
    (units : List UnitId) :
    (r.workshop recompile).Keeps units fun s => s.1.isHeld g = held where
  note _ _ _ _ hs := hs
  compile u _ s hs := (hspares u r.registry s.1 g).trans hs
  install u _ s table hs _ := by
    show (World.install _ _ _ _).isHeld g = held
    rw [World.isHeld_install]
    exact (hspares u r.registry s.1 g).trans hs

/-- And so does all the work of a reload. -/
theorem isHeld_reloadIn (r : Reloader) (hspares : recompile.SparesGuards) (us : List UnitId)
    (s : Session) (w : World σ) :
    (reloadIn recompile r us s w).2.isHeld g = w.isHeld g := by
  have hbatch := Batch.run_preserves r.config.retryBudget (us.map fun u => (u, (w.unit u).name))
    (keeps_workshop_guards (g := g) r hspares (w.isHeld g) _) (s := (w, s.journal)) rfl
  exact (World.isHeld_propagate _ _ _ g).trans hbatch

/-- A reload that finds a guard held goes as its recompiler does while it is. -/
theorem reloadIn_congr (r : Reloader) (hspares : recompile.SparesGuards)
    (hagrees : ∀ u reg v, v.isHeld g = true → recompile' u reg v = recompile u reg v)
    (us : List UnitId) (s : Session) {w : World σ} (hheld : w.isHeld g = true) :
    reloadIn recompile' r us s w = reloadIn recompile r us s w := by
  have hcompile : ∀ u ∈ (us.map fun u => (u, (w.unit u).name)).map (·.1),
      ∀ s : World σ × Journal, s.1.isHeld g = true →
        (r.workshop recompile').compile u s = (r.workshop recompile).compile u s := by
    intro u _ s hs
    simp only [workshop, hagrees u r.registry s.1 hs]
  -- the two workshops differ in how they compile, and in nothing else
  have hbatch : Batch.run (r.workshop recompile') r.config.retryBudget
      (us.map fun u => (u, (w.unit u).name)) (w, s.journal) =
        Batch.run (r.workshop recompile) r.config.retryBudget
          (us.map fun u => (u, (w.unit u).name)) (w, s.journal) :=
    Batch.run_congr r.config.retryBudget _
      (keeps_workshop_guards (g := g) r hspares true _) hcompile hheld
  simp only [reloadIn, recompileIn, hbatch]

omit [Host σ] in
/-- Wrapping leaves guards alone if the wrapper does. -/
theorem keeps_wrapJob_guards (options : WrapOptions) (hspares : wrapper.SparesGuards)
    (held : Bool) :
    (⟨wrapper, options, fun _ w => w⟩ : WrapJob σ).Keeps fun w => w.isHeld g = held where
  wrapper c name w hw := (hspares c name w g).trans hw
  note _ _ hw := hw
  setMember _ _ _ _ hw := hw
  pins _ _ hw := hw

omit [Host σ] in
/-- Wrapping the targets goes as the wrapper does where the guard is as it is found. -/
theorem wrapAll_agrees (options : WrapOptions) (hspares : wrapper.SparesGuards) (held : Bool)
    (hagrees : ∀ c name v, v.isHeld g = held → wrapper' c name v = wrapper c name v)
    (owned : List (UnitId × List (String × Definition))) (s : Session) {w : World σ}
    (hheld : w.isHeld g = held) :
    wrapAll wrapper' options owned s w = wrapAll wrapper options owned s w ∧
      (wrapAll wrapper options owned s w).2.isHeld g = held := by
  induction owned generalizing s w with
  | nil => exact ⟨rfl, hheld⟩
  | cons e rest ih =>
    obtain ⟨u, defs⟩ := e
    -- the two wrappers are asked in worlds where the guard is still as it was
    obtain ⟨heach, hkept⟩ := World.wrapEach_agrees
      (keeps_wrapJob_guards (g := g) options hspares held) hagrees defs default hheld
    have hdefs : w.wrapDefinitions ⟨wrapper', options, fun _ w => w⟩ u defs =
        w.wrapDefinitions ⟨wrapper, options, fun _ w => w⟩ u defs := by
      simp only [World.wrapDefinitions, heach]
    simp only [wrapAll, hdefs]
    exact ih _ hkept

/-- So all the work of a wrap leaves guards alone. -/
theorem isHeld_wrapIn (options : WrapOptions) (hspares : wrapper.SparesGuards) (us : List UnitId)
    (s : Session) (w : World σ) :
    (wrapIn wrapper options us s w).2.isHeld g = w.isHeld g := by
  have hall := (wrapAll_agrees options hspares (w.isHeld g) (fun _ _ _ _ => rfl)
    (us.map fun u => (u, w.ownDefinitions (w.unit u).name (w.exports u))) s rfl).2
  exact (World.isHeld_propagate _ _ _ g).trans hall

/-- A wrap that finds a guard held goes as its wrapper does while it is. -/
theorem wrapIn_congr (options : WrapOptions) (hspares : wrapper.SparesGuards)
    (hagrees : ∀ c name v, v.isHeld g = true → wrapper' c name v = wrapper c name v)
    (us : List UnitId) (s : Session) {w : World σ} (hheld : w.isHeld g = true) :
    wrapIn wrapper' options us s w = wrapIn wrapper options us s w := by
  simp only [wrapIn, (wrapAll_agrees options hspares true hagrees _ s hheld).1]

/-! ### Taking and releasing -/

/-- While a call is open its guard is held, and the others are what they were. -/
theorem isHeld_of_opening {r : Reloader} {names : List String} {w v : World σ} {us : List UnitId}
    {s : Session} (h : r.openCall names w = .ok (us, s, v)) (g : GuardId) :
    v.isHeld g = if g = r.guard then true else w.isHeld g := by
  unfold openCall at h
  split at h
  · cases h
  · split at h
    · cases h
    · next us' s' v' hprepare =>
      obtain ⟨-, -, hstart⟩ := prepare_eq_ok hprepare
      -- the session changes heaps, and the guard is taken
      obtain ⟨-, -, -, -, heaps, rfl⟩ := Session.opened_of_start hstart
      cases h
      exact World.isHeld_putGuard w r.guard g true

omit [Host σ] in
/-- A refused call leaves the world untouched. -/
theorem untouched_refused (r : Reloader) (w : World σ) : w.Untouched (r.refused w) := by
  unfold refused
  split
  · exact ⟨rfl, fun _ => rfl⟩
  · -- the guard was taken for the opening and is given back, so it is free as before
    next hheld =>
    refine ⟨rfl, fun g => ?_⟩
    rw [World.isHeld_putGuard, World.isHeld_putGuard]
    split
    · next hg => rw [hg, Bool.eq_false_iff.mpr hheld]
    · rfl

/-- A call that is let in finds its guard free. -/
theorem isHeld_eq_false_of_opening {r : Reloader} {names : List String} {w v : World σ}
    {us : List UnitId} {s : Session} (h : r.openCall names w = .ok (us, s, v)) :
    w.isHeld r.guard = false := by
  unfold openCall at h
  split at h
  · cases h
  · next hheld => exact Bool.eq_false_iff.mpr hheld

/-- When a call returns, its guard is as it was before, whatever has been done in between. -/
theorem isHeld_guard_inSession {α : Type} (r : Reloader) (names : List String)
    (call : List UnitId → Session → World σ → α × World σ) (w : World σ) :
    (r.inSession names call w).2.isHeld r.guard = w.isHeld r.guard := by
  rw [inSession_eq]
  cases hopening : r.openCall names w with
  | error e => exact (untouched_refused r w).guards r.guard
  | ok opened =>
    obtain ⟨us, s, v⟩ := opened
    calc (World.putGuard _ r.guard false).isHeld r.guard = false := by
          rw [World.isHeld_putGuard, if_pos rfl]
      _ = w.isHeld r.guard := (isHeld_eq_false_of_opening hopening).symm

/-- **Every call balances its guard**, and leaves the others as they were if its work does. -/
theorem isHeld_inSession {α : Type} (r : Reloader) (names : List String)
    {call : List UnitId → Session → World σ → α × World σ}
    (hcall : ∀ us s v g, (call us s v).2.isHeld g = v.isHeld g) (w : World σ) (g : GuardId) :
    (r.inSession names call w).2.isHeld g = w.isHeld g := by
  by_cases hg : g = r.guard
  · -- the guard of this reloader is taken and given back
    rw [hg]
    exact isHeld_guard_inSession r names call w
  · rw [inSession_eq]
    cases hopening : r.openCall names w with
    | error e => exact (untouched_refused r w).guards g
    | ok opened =>
      obtain ⟨us, s, v⟩ := opened
      calc (World.putGuard _ r.guard false).isHeld g = (call us s v).2.isHeld g := by
            rw [World.isHeld_putGuard, if_neg hg]
            rfl
        _ = v.isHeld g := hcall us s v g
        _ = w.isHeld g := by rw [isHeld_of_opening hopening, if_neg hg]

/-- **After a reload every guard is as it was.** -/
theorem isHeld_reload (r : Reloader) (hspares : recompile.SparesGuards) (names : List String)
    (w : World σ) (g : GuardId) : (r.reload recompile names w).2.isHeld g = w.isHeld g :=
  isHeld_inSession r names (fun _ _ _ _ => isHeld_reloadIn r hspares _ _ _) w g

/-- **And after a wrap.** -/
theorem isHeld_wrap (r : Reloader) (options : WrapOptions) (hspares : wrapper.SparesGuards)
    (names : List String) (w : World σ) (g : GuardId) :
    (r.wrap wrapper options names w).2.isHeld g = w.isHeld g :=
  isHeld_inSession r names (fun _ _ _ _ => isHeld_wrapIn options hspares _ _ _) w g

/-- During a call of a reloader, and during one of any reloader if it was held before, a guard is
held. So the call depends on its work as far as that holds. -/
theorem inSession_congr {α : Type} {r : Reloader} (names : List String)
    {call call' : List UnitId → Session → World σ → α × World σ}
    (hcall : ∀ us s v, v.isHeld g = true → call' us s v = call us s v) {w : World σ}
    (hheld : g = r.guard ∨ w.isHeld g = true) :
    r.inSession names call' w = r.inSession names call w := by
  rw [inSession_eq, inSession_eq]
  cases hopening : r.openCall names w with
  | error e => rfl
  | ok opened =>
    obtain ⟨us, s, v⟩ := opened
    -- the work is done in worlds in which the guard is held
    have hv : v.isHeld g = true := by
      rw [isHeld_of_opening hopening]
      split
      · rfl
      · next hg => exact hheld.resolve_left hg
    simp only [hcall us s v hv]

/-- Two recompilers that agree while the guard is held make the same reload. -/
theorem reload_congr {r : Reloader} (names : List String) (hspares : recompile.SparesGuards)
    (hagrees : ∀ u reg v, v.isHeld g = true → recompile' u reg v = recompile u reg v)
    {w : World σ} (hheld : g = r.guard ∨ w.isHeld g = true) :
    r.reload recompile' names w = r.reload recompile names w :=
  inSession_congr names (fun us s _ hv => reloadIn_congr r hspares hagrees us s hv) hheld

/-- Two wrappers that agree while the guard is held make the same wrap. -/
theorem wrap_congr {r : Reloader} (options : WrapOptions) (names : List String)
    (hspares : wrapper.SparesGuards)
    (hagrees : ∀ c name v, v.isHeld g = true → wrapper' c name v = wrapper c name v)
    {w : World σ} (hheld : g = r.guard ∨ w.isHeld g = true) :
    r.wrap wrapper' options names w = r.wrap wrapper options names w :=
  inSession_congr names (fun us s _ hv => wrapIn_congr options hspares hagrees us s hv) hheld

/-- A call is refused for another one exactly while its guard is held. -/
theorem inSession_busy_iff {α : Type} (r : Reloader) (names : List String)
    (call : List UnitId → Session → World σ → α × World σ) (w : World σ) :
    (r.inSession names call w).1 = .error .busy ↔ w.isHeld r.guard = true := by
  rw [inSession_eq]
  unfold openCall
  constructor
  · intro h
    split at h
    · next e hopening =>
      split at hopening
      · next hheld => exact hheld
      · split at hopening
        · next e' v hprepare =>
          cases hopening
          cases h
          -- the preparation fails with other errors
          exact absurd rfl (prepare_eq_error hprepare).2
        · cases hopening
    · cases h
  · intro hheld
    rw [if_pos hheld]

/-- A call on a reloader that is busy is refused, and the world stays as it is. -/
theorem inSession_of_held {α : Type} {r : Reloader} (names : List String)
    (call : List UnitId → Session → World σ → α × World σ) {w : World σ}
    (hheld : w.isHeld r.guard = true) : r.inSession names call w = (.error .busy, w) := by
  rw [inSession_eq, openCall, refused, if_pos hheld, if_pos hheld]

/-- **A refused call has done nothing**, and what it would have done had no part in it. -/
theorem inSession_error {α : Type} {r : Reloader} {names : List String}
    {call : List UnitId → Session → World σ → α × World σ} {w w' : World σ} {e : ReloadError}
    (h : r.inSession names call w = (.error e, w')) :
    w.Untouched w' ∧ ∀ call' : List UnitId → Session → World σ → α × World σ,
      r.inSession names call' w = (.error e, w') := by
  rw [inSession_eq] at h
  cases hopening : r.openCall names w with
  | error e' =>
    rw [hopening] at h
    cases h
    -- the error stems from the opening, before any work
    refine ⟨untouched_refused r w, fun call' => ?_⟩
    rw [inSession_eq, hopening]
  | ok opened =>
    rw [hopening] at h
    cases h

end Reloader

/-! ### Host code -/

/-- A **change** of the world by code of the host that makes no call to a reloader. Whatever it
does, guards are out of its reach; that of a reloader that it makes is free
(`World.isHeld_newGuard`). -/
structure Change (σ : Type) where
  apply : World σ → World σ
  isHeld_apply : ∀ w g, (apply w).isHeld g = w.isHeld g

/-- **Host code** that changes the world, makes calls to reloaders and ends with an answer. The
recompilers and the wrappers of its calls are host code in turn. What it does next can depend on the
world after a change and on what a call has returned. -/
inductive HostCode (σ : Type) : Type → Type 1 where
  | done {α : Type} (answer : α) : HostCode σ α
  | change {α : Type} (f : Change σ) (next : World σ → HostCode σ α) : HostCode σ α
  | reload {α : Type} (r : Reloader) (names : List String)
      (compile : UnitId → RegistryId → HostCode σ (Except String (Table Value)))
      (next : Except ReloadError Report → HostCode σ α) : HostCode σ α
  | wrap {α : Type} (r : Reloader) (options : WrapOptions) (names : List String)
      (wrapper : CallableId → String → HostCode σ CallableId)
      (next : Except ReloadError Report → HostCode σ α) : HostCode σ α

namespace HostCode

/-- The same code with every call to a reloader of the guard `g` answered by a refusal: the world
stays as it is, and the code goes on. -/
def refusing {α : Type} (g : GuardId) : HostCode σ α → HostCode σ α
  | done a => done a
  | change f next => change f fun w => (next w).refusing g
  | reload r names compile next =>
    if r.guard = g then (next (.error .busy)).refusing g
    else reload r names (fun u reg => (compile u reg).refusing g) fun result =>
      (next result).refusing g
  | wrap r options names wrapper next =>
    if r.guard = g then (next (.error .busy)).refusing g
    else wrap r options names (fun c name => (wrapper c name).refusing g) fun result =>
      (next result).refusing g

variable [Host σ] {α : Type}

/-- **Running** host code. -/
def run {α : Type} : HostCode σ α → World σ → α × World σ
  | done a, w => (a, w)
  | change f next, w => (next (f.apply w)).run (f.apply w)
  | reload r names compile next, w =>
    let (result, w) := r.reload (fun u reg => (compile u reg).run) names w
    (next result).run w
  | wrap r options names wrapper next, w =>
    let (result, w) := r.wrap (fun c name => (wrapper c name).run) options names w
    (next result).run w

/-- The recompiler that compiles by host code. -/
def recompiler (compile : UnitId → RegistryId → HostCode σ (Except String (Table Value))) :
    Recompiler σ :=
  fun u reg => (compile u reg).run

/-- The wrapper that wraps by host code. -/
def wrapper (wrap : CallableId → String → HostCode σ CallableId) : Wrapper σ :=
  fun c name => (wrap c name).run

@[simp] theorem run_done (answer : α) (w : World σ) :
    (HostCode.done answer : HostCode σ α).run w = (answer, w) := rfl

/-- Host code that reloads goes on with the answer, in the world that the reload leaves. -/
theorem run_reload (r : Reloader) (names : List String)
    (compile : UnitId → RegistryId → HostCode σ (Except String (Table Value)))
    (next : Except ReloadError Report → HostCode σ α) (w : World σ) :
    (HostCode.reload r names compile next).run w =
      (next (r.reload (recompiler compile) names w).1).run
        (r.reload (recompiler compile) names w).2 :=
  rfl

theorem run_wrap (r : Reloader) (options : WrapOptions) (names : List String)
    (wrap : CallableId → String → HostCode σ CallableId)
    (next : Except ReloadError Report → HostCode σ α) (w : World σ) :
    (HostCode.wrap r options names wrap next).run w =
      (next (r.wrap (wrapper wrap) options names w).1).run
        (r.wrap (wrapper wrap) options names w).2 :=
  rfl

/-- **Host code releases what it takes.** -/
theorem isHeld_run (code : HostCode σ α) (w : World σ) (g : GuardId) :
    (code.run w).2.isHeld g = w.isHeld g := by
  induction code generalizing w g with
  | done a => rfl
  | change f next ih => exact (ih (f.apply w) (f.apply w) g).trans (f.isHeld_apply w g)
  | reload r names compile next ihcompile ihnext =>
    -- what the call compiles with releases what it takes, and so the call does
    have hspares : (recompiler compile).SparesGuards := ihcompile
    exact (ihnext _ _ g).trans (Reloader.isHeld_reload r hspares names w g)
  | wrap r options names wrap next ihwrap ihnext =>
    have hspares : (wrapper wrap).SparesGuards := ihwrap
    exact (ihnext _ _ g).trans (Reloader.isHeld_wrap r options hspares names w g)

/-- Host code as a recompiler leaves guards as they were. -/
theorem sparesGuards_recompiler
    (compile : UnitId → RegistryId → HostCode σ (Except String (Table Value))) :
    (recompiler compile).SparesGuards :=
  fun u reg w g => (compile u reg).isHeld_run w g

theorem sparesGuards_wrapper (wrap : CallableId → String → HostCode σ CallableId) :
    (wrapper wrap).SparesGuards :=
  fun c name w g => (wrap c name).isHeld_run w g

/-- **Re-entry is refused.** While a guard is held, host code comes to the same with every call to a
reloader of this guard refused, those from within other calls included. -/
theorem run_refusing {g : GuardId} (code : HostCode σ α) {w : World σ}
    (hheld : w.isHeld g = true) : (code.refusing g).run w = code.run w := by
  induction code generalizing w with
  | done a => rfl
  | change f next ih => exact ih (f.apply w) ((f.isHeld_apply w g).trans hheld)
  | reload r names compile next ihcompile ihnext =>
    rw [refusing]
    split
    · next hguard =>
      -- the call itself is refused, and the code goes on with that
      rw [run_reload, Reloader.reload,
        Reloader.inSession_of_held names _ (hguard.symm ▸ hheld)]
      exact ihnext _ hheld
    · -- the call is let in or not for reasons of its own, and its work finds the guard held
      have hcall : r.reload (recompiler fun u reg => (compile u reg).refusing g) names w =
          r.reload (recompiler compile) names w :=
        Reloader.reload_congr names (sparesGuards_recompiler compile)
          (fun u reg v hv => ihcompile u reg hv) (.inr hheld)
      rw [run_reload, run_reload, hcall]
      exact ihnext _ ((Reloader.isHeld_reload r (sparesGuards_recompiler compile) names w g).trans
        hheld)
  | wrap r options names wrap next ihwrap ihnext =>
    rw [refusing]
    split
    · next hguard =>
      rw [run_wrap, Reloader.wrap, Reloader.inSession_of_held names _ (hguard.symm ▸ hheld)]
      exact ihnext _ hheld
    · have hcall : r.wrap (wrapper fun c name => (wrap c name).refusing g) options names w =
          r.wrap (wrapper wrap) options names w :=
        Reloader.wrap_congr options names (sparesGuards_wrapper wrap)
          (fun c name v hv => ihwrap c name hv) (.inr hheld)
      rw [run_wrap, run_wrap, hcall]
      exact ihnext _ ((Reloader.isHeld_wrap r options (sparesGuards_wrapper wrap) names w g).trans
        hheld)

end HostCode

/-! ### Calls and their guard -/

namespace Reloader

variable [Host σ]

/-- A reloader **lets in** the next call: whatever comes of it, it is not refused for another one
that is running. -/
def LetsIn (r : Reloader) (w : World σ) : Prop :=
  ∀ names, (∀ recompile, (r.reload recompile names w).1 ≠ .error .busy) ∧
    ∀ wrapper options, (r.wrap wrapper options names w).1 ≠ .error .busy

/-- Nobody is told to wait when the guard is free. -/
theorem letsIn_of_free {r : Reloader} {w : World σ} (hfree : w.isHeld r.guard = false) :
    r.LetsIn w := by
  refine fun names => ⟨fun recompile hbusy => ?_, fun wrapper options hbusy => ?_⟩ <;>
    rw [(inSession_busy_iff r names _ w).mp hbusy] at hfree <;> cases hfree

/-- **Calls and their guard.** Of the calls of a reloader on any names in any world:

* a call that returns an error leaves everything as it was, and it returns the same error whatever
  its recompiler or its wrapper would have done, so neither has been called;
* a recompiler or a wrapper that makes calls, at any depth, does the same as with each of those on
  this reloader refused and the world left as it was;
* if the guard is free, the next call is let in, and so is any call after that one, with any other
  code of the host in between. -/
theorem calls_guarded (r : Reloader) (names : List String) (w : World σ) :
    (∀ recompile e w', r.reload recompile names w = (.error e, w') →
      w.Untouched w' ∧ ∀ recompile', r.reload recompile' names w = (.error e, w')) ∧
    (∀ wrapper options e w', r.wrap wrapper options names w = (.error e, w') →
      w.Untouched w' ∧
        ∀ wrapper' options', r.wrap wrapper' options' names w = (.error e, w')) ∧
    (∀ compile, r.reload (HostCode.recompiler compile) names w =
      r.reload (HostCode.recompiler fun u reg => (compile u reg).refusing r.guard) names w) ∧
    (∀ wrap options, r.wrap (HostCode.wrapper wrap) options names w =
      r.wrap (HostCode.wrapper fun c name => (wrap c name).refusing r.guard) options names w) ∧
    (w.isHeld r.guard = false → r.LetsIn w ∧ ∀ (α : Type) (code : HostCode σ α),
      (∀ recompile, r.LetsIn (code.run (r.reload recompile names w).2).2) ∧
        ∀ wrapper options, r.LetsIn (code.run (r.wrap wrapper options names w).2).2) := by
  refine ⟨fun recompile e w' h => ?_, fun wrapper options e w' h => ?_, fun compile => ?_,
    fun wrap options => ?_, fun hfree => ⟨letsIn_of_free hfree, fun α code => ?_⟩⟩
  · obtain ⟨huntouched, hsame⟩ := inSession_error h
    exact ⟨huntouched, fun recompile' => hsame (reloadIn recompile' r)⟩
  · obtain ⟨huntouched, hsame⟩ := inSession_error h
    exact ⟨huntouched, fun wrapper' options' => hsame (wrapIn wrapper' options')⟩
  · -- within the call its guard is held, and there host code is refused anyhow
    symm
    apply reload_congr names (HostCode.sparesGuards_recompiler compile) _ (.inl rfl)
    intro u reg v hv
    exact (compile u reg).run_refusing hv
  · symm
    apply wrap_congr options names (HostCode.sparesGuards_wrapper wrap) _ (.inl rfl)
    intro c name v hv
    exact (wrap c name).run_refusing hv
  · -- a call gives its guard back, and host code gives back what it takes
    have hafter : ∀ {β : Type} (call : List UnitId → Session → World σ → β × World σ),
        (code.run (r.inSession names call w).2).2.isHeld r.guard = false := by
      intro β call
      calc (code.run (r.inSession names call w).2).2.isHeld r.guard
          = (r.inSession names call w).2.isHeld r.guard := code.isHeld_run _ _
        _ = w.isHeld r.guard := isHeld_guard_inSession r names call w
        _ = false := hfree
    exact ⟨fun recompile => letsIn_of_free (hafter _),
      fun wrapper options => letsIn_of_free (hafter _)⟩

end Reloader

namespace Scenario.TwoUnits

/-- Compiles a unit by a reload of unit `a`, and fails as that does. -/
def reentering : UnitId → RegistryId → HostCode Fixture (Except String (Table Value)) := fun _ _ =>
  .reload reloader ["a"] (fun _ _ => .done (.ok .empty)) fun result =>
    .done (match result with
      | .ok _ => .ok .empty
      | .error e => .error e.message)

end Scenario.TwoUnits

namespace Reloader

open Scenario.TwoUnits in
/-- A reload of an unknown unit is refused, and one that is re-entered fails for that on each
attempt. A reload after both is let in. -/
theorem calls_guarded_reentering :
    ((reloader.reload .unchanged ["b", "z"] bare).1 = .error (.unknownUnit "z") ∧
      bare.Untouched (reloader.reload .unchanged ["b", "z"] bare).2) ∧
    reloader.reload (HostCode.recompiler reentering) ["b"] bare =
      reloader.reload (HostCode.recompiler fun u reg => (reentering u reg).refusing reloader.guard)
        ["b"] bare ∧
    (reloader.reload (HostCode.recompiler reentering) ["b"] bare).1.toOption.map (·.failures) =
      some [⟨"b", 10, "a reload is already in progress on this reloader"⟩] ∧
    reloader.LetsIn (reloader.reload (HostCode.recompiler reentering) ["b"] bare).2 := by
  obtain ⟨herror, -, -, -, -⟩ := calls_guarded reloader ["b", "z"] bare
  obtain ⟨-, -, hnested, -, hfree⟩ := calls_guarded reloader ["b"] bare
  have hunknown : (reloader.reload .unchanged ["b", "z"] bare).1 = .error (.unknownUnit "z") := rfl
  have huntouched := (herror .unchanged _ _ (Prod.ext hunknown rfl)).1
  refine ⟨⟨hunknown, huntouched⟩, hnested reentering, ?_, ?_⟩
  · decide +kernel
  · have hnext := ((hfree (by decide)).2 Unit (.done ())).1 (HostCode.recompiler reentering)
    rwa [HostCode.run_done] at hnext

end Reloader

end HotReload
