import HotReload.Proofs.Reload.Calls
import HotReload.Proofs.Reload.Wrapping
import HotReload.Proofs.World.Storage

/-!
# The storage of objects along a run

A program retargets objects and makes calls to reloaders, one after the other and as often as it
likes, and the code of the host that runs in between and inside does the same (`World.Run`). Apart
from a direct call to `World.retarget`, the type of an object is written in one place only, where a
propagation repairs the objects of a type that has been replaced, and that goes through the same
test of layouts. So all of it keeps storage (`World.Run.keepsStorage`): along a run of any length an
object has the layout that it has had, an object that the host stores has its very type for life,
and nobody but the host writes fields (`World.Run.object_kept`).
-/

namespace HotReload

variable {σ : Type} {writes : ObjectId → String → Bool}

namespace World

/-! ### Repairs -/

/-- A slot gets a definition that is there. Types and objects have no part in it. -/
theorem keepsTypes_repoint {w : World σ} {t : ExternalBinding × Definition}
    (ht : w.isBacked (.definition t.2) = true) : w.KeepsTypes writes (w.repoint t).1 := by
  by_cases hacts : w.Acts t
  · rw [repoint_of_acts hacts]
    exact keepsTypes_setExport _ _ ht
  · rw [repoint_of_not_acts hacts]
    exact .of_stores rfl rfl rfl rfl

/-- A new ancestor keeps the layout of every type. -/
theorem keepsTypes_repointAncestors (new : TypeId) (w : World σ) (s : TypeId) :
    w.KeepsTypes writes (repointAncestors new w s).1 := by
  unfold repointAncestors
  split
  · exact w.keepsTypes_setAncestors s _
  · exact .of_stores rfl rfl rfl rfl

/-- An object moves only to a type that agrees with its own on the layout. -/
theorem keepsStorage_retargetObject {w : World σ} (hw : w.Grounded) {new : TypeId}
    (hnew : new.index < w.types.size) (o : ObjectId) :
    w.KeepsStorage writes (retargetObject new w o).1 := by
  rw [retargetObject_fst]
  split
  · -- the test of the layouts has succeeded here
    next h => exact keepsStorage_setTypeOf hw hnew h.2
  · exact .refl hw

variable [Host σ]

/-- The repair for one type moves objects between types that agree. -/
theorem keepsStorage_repairType {w : World σ} (hw : w.Grounded) (s : Session) {types : List TypeId}
    (htypes : ∀ t ∈ types, t.index < w.types.size) (old : TypeId) :
    w.KeepsStorage writes (repairType s types w old).1 := by
  obtain ⟨-, h⟩ | ⟨-, h⟩ | ⟨new, -, hsucc, h⟩ := repairType_cases s types w old <;> rw [h]
  · exact .refl hw
  · exact .refl hw
  · -- the successor is one of the types of the table
    have hnew := htypes new (List.mem_of_find?_eq_some hsucc)
    have hsubtypes : w.KeepsStorage writes (w.repointSubtypes old new).1 :=
      repairEach_preserves (.refl hw) fun t _ v hv =>
        hv.trans hw ((v.keepsTypes_repointAncestors new t).keepsStorage hv.grounded)
    refine repairEach_preserves hsubtypes fun o _ v hv => hv.trans hw ?_
    exact keepsStorage_retargetObject hv.grounded (Nat.lt_of_lt_of_le hnew hv.later.types) o

/-- What a repair refers to is what the unit exports, so it exists. -/
theorem keepsStorage_repair {w : World σ} (hw : w.Grounded) (s : Session) (u : UnitId) :
    w.KeepsStorage writes (w.repair s u).1 := by
  have hpinned : w.KeepsStorage writes (w.pin (w.keptFor u)) :=
    KeepsTypes.keepsStorage (.of_stores rfl rfl rfl rfl) hw
  -- what goes into slots has been claimed by a name in the table, so it exists
  have hbindings : w.KeepsStorage writes (w.withBindings s u).1 := by
    refine repairEach_preserves hpinned fun t ht v hv => hv.trans hw ?_
    obtain ⟨-, hclaim⟩ := Session.mem_repointings.mp ht
    obtain ⟨-, -, x, hx⟩ := w.claimant?_spec hclaim
    exact (keepsTypes_repoint (hv.later.isBacked (hw.exports u x _ hx))).keepsStorage hv.grounded
  -- the types of the table exist as well, and none goes away on the way
  have hcurrent : ∀ t ∈ typesAmong (w.ownExports u), t.index < w.types.size := by
    intro t ht
    obtain ⟨x, hx⟩ := Snapshot.mem_typesAmong.mp ht
    exact of_decide_eq_true (hw.exports u x (.type t) (w.mem_ownExports.mp hx).1)
  have htypes : w.KeepsStorage writes (repairTypes s (w.unit u).name
      (typesAmong (w.ownExports u)) (w.withBindings s u).1).1 := by
    refine repairEach_preserves hbindings fun old _ v hv => hv.trans hw ?_
    exact keepsStorage_repairType hv.grounded s
      (fun t ht => Nat.lt_of_lt_of_le (hcurrent t ht) hv.later.types) old
  rw [repair_eq]
  exact htypes.trans hw (KeepsTypes.keepsStorage (.of_stores rfl rfl rfl rfl) htypes.grounded)

/-- **A propagation keeps storage**, whatever its session has recorded. -/
theorem keepsStorage_propagate {w : World σ} (hw : w.Grounded) (s : Session) (us : List UnitId) :
    w.KeepsStorage writes (s.propagate us w).2.2 := by
  rw [(s.propagate_eq_repairEach us w).2]
  exact repairEach_preserves (.refl hw) fun u _ v hv =>
    hv.trans hw (keepsStorage_repair hv.grounded s u)

end World

/-! ### Wrapping -/

namespace World

variable {wrapper : Wrapper σ}

/-- What a wrap keeps from one definition to the next. -/
theorem keeps_jobOf_storage (options : WrapOptions)
    (hwrapper : ∀ c name (v : World σ), v.Grounded → v.KeepsStorage writes (wrapper c name v).2)
    {w : World σ} (hw : w.Grounded) :
    (jobOf wrapper options).Keeps fun v => w.KeepsStorage writes v where
  wrapper c name v hv := hv.trans hw (hwrapper c name v hv.grounded)
  note _ _ hv := hv
  setMember t name m v hv :=
    hv.trans hw ((v.keepsTypes_setMember t name m).keepsStorage hv.grounded)
  pins _ _ hv := hv.trans hw (KeepsTypes.keepsStorage (.of_stores rfl rfl rfl rfl) hv.grounded)

/-- Callables are all that a table holds. -/
def OnlyCallables (table : Table Value) : Prop :=
  ∀ x v, table.get? x = some v → ∃ c, v = .callable c

/-- One more callable leaves only callables. -/
theorem OnlyCallables.insert {table : Table Value} (h : OnlyCallables table) (name : String)
    (c : CallableId) : OnlyCallables (table.insert name (.callable c)) := by
  intro x v hv
  rw [Table.get?_insert] at hv
  split at hv
  · exact ⟨c, (Option.some.inj hv).symm⟩
  · exact h x v hv

variable (wrapper) in
/-- Wrapping enters a new callable for a callable, and for a type nothing at all. -/
theorem onlyCallables_wrapDefinition (options : WrapOptions) {p : WrapProgress}
    (hp : OnlyCallables p.updates) (w : World σ) (e : String × Definition) :
    OnlyCallables (wrapDefinition (jobOf wrapper options) p w e).1.updates := by
  obtain ⟨name, c | s⟩ := e
  · show OnlyCallables (wrapCallable _ name c p w).1.updates
    unfold wrapCallable
    split
    · exact hp.insert name _
    · exact hp.insert name _
  · show OnlyCallables (wrapType _ s p w).1.updates
    unfold wrapType
    split
    · exact hp
    · -- members are rewritten in place, not entered in the table
      rw [(progress_wrapMembers wrapper options s _ _ w).2]
      exact hp

variable (wrapper) in
/-- **A wrap exports no new types.** Types are changed in place. -/
theorem onlyCallables_wrapEach (options : WrapOptions) (defs : List (String × Definition))
    {p : WrapProgress} (hp : OnlyCallables p.updates) (w : World σ) :
    OnlyCallables (wrapEach (jobOf wrapper options) defs p w).1.updates := by
  induction defs generalizing p w with
  | nil => exact hp
  | cons e rest ih =>
    rw [wrapEach_cons]
    exact ih (onlyCallables_wrapDefinition wrapper options hp (w.pin (keptIn (e :: rest))) e) _

/-- Wrapping the definitions of a unit keeps storage if the wrappers do. -/
theorem keepsStorage_wrapDefinitions (options : WrapOptions)
    (hwrapper : ∀ c name (v : World σ), v.Grounded → v.KeepsStorage writes (wrapper c name v).2)
    {w : World σ} (hw : w.Grounded) (u : UnitId) (defs : List (String × Definition)) :
    w.KeepsStorage writes (w.wrapDefinitions (jobOf wrapper options) u defs).1 := by
  have heach : w.KeepsStorage writes (wrapEach (jobOf wrapper options) defs default w).2 :=
    (wrapEach_agrees (keeps_jobOf_storage options hwrapper hw) (fun _ _ _ _ => rfl) defs default
      (.refl hw)).2
  have hentered : OnlyCallables (wrapEach (jobOf wrapper options) defs default w).1.updates :=
    onlyCallables_wrapEach wrapper options defs (fun x v h => by cases h) w
  -- what is installed in the end are callables, which no layout speaks of
  refine heach.trans hw (KeepsTypes.keepsStorage ?_ heach.grounded)
  refine keepsTypes_install .merge u fun x v hv => ?_
  obtain ⟨c, rfl⟩ := hentered x v hv
  rfl

end World

/-! ### Calls -/

/-- A recompiler that returns nothing that does not exist. -/
def Recompiler.Returns (recompile : Recompiler σ) : Prop :=
  ∀ u r (w : World σ) table, w.Grounded → (recompile u r w).1 = .ok table →
    ∀ x v, table.get? x = some v → (recompile u r w).2.isBacked v = true

namespace Reloader

variable {recompile : Recompiler σ} {wrapper : Wrapper σ}

/-- A batch keeps storage if its recompiler does and returns what exists. -/
theorem keeps_workshop_storage (r : Reloader)
    (hcompile : ∀ u reg (v : World σ), v.Grounded → v.KeepsStorage writes (recompile u reg v).2)
    (hreturns : recompile.Returns) {w : World σ} (hw : w.Grounded) (units : List UnitId) :
    (r.workshop recompile).Keeps units fun s => w.KeepsStorage writes s.1 where
  note _ _ _ _ hs := hs
  compile u _ _ hs := hs.trans hw (hcompile u r.registry _ hs.grounded)
  install u _ s table hs htable := by
    -- the table is installed in the world that the recompiler has left
    have hcompiled := hs.trans hw (hcompile u r.registry s.1 hs.grounded)
    refine hcompiled.trans hw (World.KeepsTypes.keepsStorage ?_ hcompiled.grounded)
    exact World.keepsTypes_install r.config.installMode u
      (hreturns u r.registry s.1 table hs.grounded htable)

variable [Host σ]

/-- A call keeps storage if its work does. -/
theorem keepsStorage_inSession {α : Type} (r : Reloader) (names : List String)
    {call : List UnitId → Session → World σ → α × World σ}
    (hcall : ∀ us s (v : World σ), v.Grounded → v.KeepsStorage writes (call us s v).2) {w : World σ}
    (hw : w.Grounded) : w.KeepsStorage writes (r.inSession names call w).2 := by
  rw [inSession_eq]
  cases hopening : r.openCall names w with
  | error e =>
    -- a refused call leaves types and objects as they are
    refine World.KeepsTypes.keepsStorage ?_ hw
    show w.KeepsTypes writes (r.refused w)
    unfold refused
    split <;> exact .of_stores rfl rfl rfl rfl
  | ok opened =>
    obtain ⟨us, s, v⟩ := opened
    have hopened : w.KeepsStorage writes v := by
      -- neither does an opening touch them
      obtain ⟨heaps, guards, pins, rfl⟩ := opening_eq hopening
      exact World.KeepsTypes.keepsStorage (.of_stores rfl rfl rfl rfl) hw
    have hdone := hopened.trans hw (hcall us s v hopened.grounded)
    exact hdone.trans hw (World.KeepsTypes.keepsStorage (.of_stores rfl rfl rfl rfl) hdone.grounded)

/-- **A reload keeps storage** if its recompiler does. -/
theorem keepsStorage_reload (r : Reloader)
    (hcompile : ∀ u reg (v : World σ), v.Grounded → v.KeepsStorage writes (recompile u reg v).2)
    (hreturns : recompile.Returns) (names : List String) {w : World σ} (hw : w.Grounded) :
    w.KeepsStorage writes (r.reload recompile names w).2 := by
  refine keepsStorage_inSession r names (fun us s v hv => ?_) hw
  have hshop : ∀ units, (r.workshop recompile).Keeps units fun s => v.KeepsStorage writes s.1 :=
    r.keeps_workshop_storage hcompile hreturns hv
  have hbatch := Batch.run_preserves r.config.retryBudget (us.map fun u => (u, (v.unit u).name))
    (hshop _) (s := (v, s.journal)) (.refl hv)
  exact hbatch.trans hv (World.keepsStorage_propagate hbatch.grounded _ _)

/-- **A wrap keeps storage** if its wrapper does. -/
theorem keepsStorage_wrap (r : Reloader) (options : WrapOptions)
    (hwrapper : ∀ c name (v : World σ), v.Grounded → v.KeepsStorage writes (wrapper c name v).2)
    (names : List String) {w : World σ} (hw : w.Grounded) :
    w.KeepsStorage writes (r.wrap wrapper options names w).2 := by
  have hall : ∀ owned s (v : World σ), v.Grounded →
      v.KeepsStorage writes (wrapAll wrapper options owned s v).2 := by
    -- the induction is on the units still to be wrapped
    intro owned
    induction owned with
    | nil => exact fun s v hv => .refl hv
    | cons e rest ih =>
      intro s v hv
      have hfirst : v.KeepsStorage writes
          (v.wrapDefinitions (World.jobOf wrapper options) e.1 e.2).1 :=
        World.keepsStorage_wrapDefinitions options hwrapper hv e.1 e.2
      exact hfirst.trans hv (ih _ _ hfirst.grounded)
  refine keepsStorage_inSession r names (fun us s v hv => ?_) hw
  have hwrapped := hall (us.map fun u => (u, v.ownDefinitions (v.unit u).name (v.exports u))) s v hv
  exact hwrapped.trans hv (World.keepsStorage_propagate hwrapped.grounded _ _)

end Reloader

/-! ### Runs -/

namespace World

variable [Host σ]

/-- **A run** from one world to another: direct calls to `retarget`, reloads, wraps and
propagations, one after the other. What recompilers and wrappers do when they are called are runs as
well. In between and inside, the host can do what leaves the types of objects alone: make objects of
types that exist, among other things, and write the fields that `writes` lets it write. So
constructions are runs too (`World.runs_construct`). -/
inductive Run (writes : ObjectId → String → Bool) : World σ → World σ → Prop where
  | refl (w : World σ) : Run writes w w
  | trans {w v w' : World σ} (before : Run writes w v) (after : Run writes v w') : Run writes w w'
  | host {w w' : World σ} (step : w.KeepsTypes writes w') : Run writes w w'
  | retarget {w : World σ} (o : ObjectId) {t : TypeId} (known : t.index < w.types.size) :
    Run writes w (w.retargeted o t)
  | reload {recompile : Recompiler σ}
    (calls : ∀ u reg v, v.Grounded → Run writes v (recompile u reg v).2)
    (returns : recompile.Returns) (r : Reloader) (names : List String) (w : World σ) :
    Run writes w (r.reload recompile names w).2
  | wrap {wrapper : Wrapper σ}
    (calls : ∀ c name v, v.Grounded → Run writes v (wrapper c name v).2) (options : WrapOptions)
    (r : Reloader) (names : List String) (w : World σ) :
    Run writes w (r.wrap wrapper options names w).2
  | propagate (s : Session) (us : List UnitId) (w : World σ) :
    Run writes w (s.propagate us w).2.2

namespace Run

/-- **Runs keep storage.** -/
theorem keepsStorage {w w' : World σ} (h : w.Run writes w') (hw : w.Grounded) :
    w.KeepsStorage writes w' := by
  induction h with
  | refl w => exact .refl hw
  | trans _ _ ihbefore ihafter =>
    have hbefore := ihbefore hw
    exact hbefore.trans hw (ihafter hbefore.grounded)
  -- each sort of step has its own lemma above
  | host step => exact step.keepsStorage hw
  | retarget o known => exact keepsStorage_retargeted hw o known
  | reload _ returns r names w ihcalls =>
    have hcompile := fun u reg v hv => ihcalls u reg v hv hv
    exact r.keepsStorage_reload hcompile returns names hw
  | wrap _ options r names w ihcalls =>
    have hwrapper := fun c name v hv => ihcalls c name v hv hv
    exact r.keepsStorage_wrap options hwrapper names hw
  | propagate s us w => exact keepsStorage_propagate hw s us

/-- An object that is there when a run begins keeps the layout of its type, and what the host does
not write. -/
theorem object_kept {w w' : World σ} (h : w.Run writes w') (hw : w.Grounded) {o : ObjectId}
    (ho : o.index < w.objects.size) :
    (w'.type (w'.object o).type).layout = (w.type (w.object o).type).layout ∧
      ((w.type (w.object o).type).layout = .native → (w'.object o).type = (w.object o).type) ∧
      w'.unwritten writes o = w.unwritten writes o := by
  have hkept := h.keepsStorage hw
  have hlayout := hkept.later.layout _ (hw.types o ho)
  refine ⟨(hkept.stored o ho).layout.trans hlayout, fun hnative => ?_, hkept.unwritten o ho⟩
  exact (hkept.stored o ho).native (hlayout.trans hnative)

end Run

end World

end HotReload
