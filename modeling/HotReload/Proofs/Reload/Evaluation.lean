import HotReload.Proofs.Reload.Storage

/-!
# Calls are runs

A run (`World.Run`) asks of the code that is called within it that it makes runs itself. The code of
callables does (`World.runs_run`): evaluation makes objects, writes fields and exports, and never
touches the type of an object. The reason is that a body can get hold of values that exist, and of
no others. It starts from its arguments and from the values that it names, and whatever it reads in
a grounded world exists as well.

So the property that goes through an evaluation is `Act.Runs`: from a world where certain values
are backed, an action makes a run and returns values that are backed then.
-/

namespace HotReload

variable {σ : Type} [Host σ] {writes : ObjectId → String → Bool}

/-! ### Actions -/

/-- An action **runs** on `vs` if it makes a run wherever `vs` are backed, and what it returns holds
values that are backed then. -/
def Act.Runs {α : Type} (writes : ObjectId → String → Bool) (vs : List Value)
    (out : α → List Value) (act : Act σ α) : Prop :=
  ∀ w : World σ, w.Grounded → w.Backs vs →
    w.Run writes (act.run.run w).2 ∧
      ∀ a, (act.run.run w).1 = .ok a → (act.run.run w).2.Backs (out a)

namespace Act.Runs

variable {α β : Type} {us vs : List Value} {out : α → List Value} {out' : β → List Value}

/-- An action that may use less may also be given more. -/
theorem mono {act : Act σ α} (h : act.Runs writes us out)
    (hvs : ∀ w : World σ, w.Backs vs → w.Backs us) : act.Runs writes vs out :=
  fun w hw hback => h w hw (hvs w hback)

/-- To return what exists is no step at all. -/
theorem pure {a : α} (ha : ∀ w : World σ, w.Backs vs → w.Backs (out a)) :
    (Pure.pure a : Act σ α).Runs writes vs out :=
  fun w _ hvs => ⟨.refl w, fun _ h => Except.ok.inj h ▸ ha w hvs⟩

/-- Every world backs a scalar. -/
theorem scalar {v : Value} (hv : ∀ w : World σ, w.isBacked v = true) :
    (Pure.pure v : Act σ Value).Runs writes vs fun v => [v] :=
  .pure fun w _ => World.backs_cons.mpr ⟨hv w, World.backs_nil⟩

/-- Neither is to give up. -/
theorem throw (e : CallError) : (MonadExcept.throw e : Act σ α).Runs writes vs out :=
  fun w _ _ => ⟨.refl w, fun _ h => nomatch h⟩

/-- **One after the other.** What was backed before an action is backed after it. -/
theorem bind {act : Act σ α} {next : α → Act σ β} (h : act.Runs writes us out)
    (hus : ∀ w : World σ, w.Backs vs → w.Backs us)
    (hnext : ∀ a, (next a).Runs writes (out a ++ vs) out') :
    (act >>= next).Runs writes vs out' := by
  intro w hw hvs
  obtain ⟨hrun, hresult⟩ := h w hw (hus w hvs)
  rw [ExceptT.run_bind, StateT.run_bind]
  cases heq : act.run.run w with
  | mk result v =>
    rw [heq] at hrun hresult
    cases result with
    -- after an error nothing more is run
    | error e => exact ⟨hrun, fun _ hb => nomatch hb⟩
    | ok a =>
      have hkept := hrun.keepsStorage hw
      -- what was there before the first action is there after it
      have hback : v.Backs (out a ++ vs) :=
        World.backs_append.mpr ⟨hresult a rfl, hkept.later.backs hvs⟩
      obtain ⟨hrun', hresult'⟩ := hnext a v hkept.grounded hback
      exact ⟨hrun.trans hrun', hresult'⟩

/-- A result that is dropped need not exist. -/
theorem discard {act : Act σ α} (h : act.Runs writes vs out) :
    (Functor.discard act).Runs writes vs fun _ => [] :=
  h.bind (fun _ => id) fun _ => .pure fun _ _ => World.backs_nil

/-- What is held meanwhile makes no difference. -/
theorem holding {act : Act σ α} (h : act.Runs writes vs out) (nodes : List Node) :
    (act.holding nodes).Runs writes vs out := by
  intro w hw hvs
  have hpin : w.KeepsTypes writes (w.pin nodes) := .of_stores rfl rfl rfl rfl
  obtain ⟨hrun, hresult⟩ := h (w.pin nodes) (hpin.grounded hw) hvs
  exact ⟨(World.Run.host hpin).trans (hrun.trans (.host (.of_stores rfl rfl rfl rfl))), hresult⟩

/-- What is found in the world is backed. -/
theorem find {next : World σ → Act σ α} (found : World σ → List Value)
    (hfound : ∀ w : World σ, w.Grounded → w.Backs vs → w.Backs (found w))
    (h : ∀ w, (next w).Runs writes (found w ++ vs) out) : (get >>= next).Runs writes vs out :=
  fun w hw hvs => h w w hw (World.backs_append.mpr ⟨hfound w hw hvs, hvs⟩)

/-- Looking at the world first makes no difference. -/
theorem look {next : World σ → Act σ α} (h : ∀ w, (next w).Runs writes vs out) :
    (get >>= next).Runs writes vs out :=
  .find (fun _ => []) (fun _ _ _ => World.backs_nil) h

/-- A result that has been computed is returned or thrown. -/
theorem lift {x : Except CallError α}
    (hx : ∀ a, x = .ok a → ∀ w : World σ, w.Backs vs → w.Backs (out a)) :
    (liftExcept x : Act σ α).Runs writes vs out := by
  cases x with
  | ok a => exact .pure (hx a rfl)
  | error e => exact .throw e

/-- **A step of the host** on backed values. -/
theorem step {next : World σ → World σ} {result : World σ → α}
    (h : ∀ w, w.Grounded → w.Backs vs →
      w.KeepsTypes writes (next w) ∧ (next w).Backs (out (result w))) :
    (get >>= fun w => set (next w) >>= fun _ => Pure.pure (result w) : Act σ α).Runs writes vs
      out := by
  intro w hw hvs
  obtain ⟨hkeeps, hback⟩ := h w hw hvs
  exact ⟨.host hkeeps, fun a ha => Except.ok.inj ha ▸ hback⟩

/-- A second attempt is run in the world that the failed one leaves. -/
theorem orElse {a b : Act σ α} (ha : a.Runs writes vs out) (hb : b.Runs writes vs out) :
    (a.orElse b).Runs writes vs out := by
  intro w hw hvs
  obtain ⟨hrun, hresult⟩ := ha w hw hvs
  rw [Act.orElse, ExceptT.run_mk, StateT.run_bind]
  cases heq : a.run.run w with
  | mk result v =>
    rw [heq] at hrun hresult
    cases result with
    | ok a => exact ⟨hrun, hresult⟩
    | error e =>
      -- what the first action has done stays done
      have hkept := hrun.keepsStorage hw
      obtain ⟨hrun', hresult'⟩ := hb v hkept.grounded (hkept.later.backs hvs)
      exact ⟨hrun.trans hrun', hresult'⟩

/-- An error is no value, so it asks for nothing. -/
theorem outcome {act : Act σ α} (h : act.Runs writes vs out) :
    act.outcome.Runs writes vs fun r => r.toOption.toList.flatMap out := by
  intro w hw hvs
  obtain ⟨hrun, hresult⟩ := h w hw hvs
  refine ⟨hrun, fun r hr => ?_⟩
  obtain rfl : (act.run.run w).1 = r := Except.ok.inj hr
  show (act.run.run w).2.Backs _
  cases hx : (act.run.run w).1 with
  | ok a => simpa [Except.toOption] using hresult a hx
  | error e => simp [Except.toOption]

/-! Operands. -/

/-- If a value is an object then it is this object that exists. -/
theorem asObject {v : Value} :
    (liftExcept v.asObject : Act σ ObjectId).Runs writes [v] fun o => [.object o] := by
  refine .lift fun o ho w hw => ?_
  -- only an object is read as one
  cases v <;> cases ho
  exact hw

theorem asType {v : Value} :
    (liftExcept v.asType : Act σ TypeId).Runs writes [v] fun t => [.type t] := by
  refine .lift fun t ht w hw => ?_
  unfold Value.asType at ht
  split at ht <;> cases ht
  exact hw

theorem asInt (v : Value) : (liftExcept v.asInt : Act σ Int64).Runs writes vs fun _ => [] :=
  .lift fun _ _ _ _ => World.backs_nil

/-- An operand that has to be an object. -/
theorem object {act : Act σ Value} {next : Value → ObjectId → Act σ β}
    (h : act.Runs writes us fun v => [v]) (hus : ∀ w : World σ, w.Backs vs → w.Backs us)
    (hnext : ∀ v o, (next v o).Runs writes (.object o :: vs) out') :
    (act >>= fun v => liftExcept v.asObject >>= next v).Runs writes vs out' := by
  refine h.bind hus fun v => asObject.bind (fun w hw => ?_) fun o => (hnext v o).mono fun w hw => ?_
  · simp_all
  · simp_all

/-- An operand that has to be a type. -/
theorem type {act : Act σ Value} {next : Value → TypeId → Act σ β}
    (h : act.Runs writes us fun v => [v]) (hus : ∀ w : World σ, w.Backs vs → w.Backs us)
    (hnext : ∀ v t, (next v t).Runs writes (.type t :: vs) out') :
    (act >>= fun v => liftExcept v.asType >>= next v).Runs writes vs out' := by
  refine h.bind hus fun v => asType.bind (fun w hw => ?_) fun t => (hnext v t).mono fun w hw => ?_
  · simp_all
  · simp_all

/-- An operand that has to be an integer. -/
theorem int {act : Act σ Value} {next : Int64 → Act σ β}
    (h : act.Runs writes us fun v => [v]) (hus : ∀ w : World σ, w.Backs vs → w.Backs us)
    (hnext : ∀ n, (next n).Runs writes vs out') :
    (act >>= fun v => liftExcept v.asInt >>= next).Runs writes vs out' := by
  refine h.bind hus fun v => (asInt v).bind (fun _ => id) fun n => (hnext n).mono fun w hw => ?_
  simp_all

end Act.Runs

/-! ### Members and construction -/

namespace World

variable {out : Value → List Value} {run : Runner σ}

/-- A call through a type runs the member that is found, with the receiver in front. -/
theorem runs_callResolved (hrun : ∀ c args, (run c args).Runs writes args out) (o : Option ObjectId)
    (t : TypeId) (name : String) (args : List Value) :
    (callResolved run o t name args).Runs writes (.type t :: (o.toList.map .object ++ args))
      out := by
  refine .look fun w => ?_
  split
  · exact .throw _
  · next m _ =>
    -- type and receiver are given to the call besides its arguments
    refine ((hrun m.callable _).holding _).mono fun v hv => ?_
    unfold receive
    split <;> simp_all

/-- A call on an object starts from the type that the object has at this moment. -/
theorem runs_callMethod (hrun : ∀ c args, (run c args).Runs writes args out) (o : ObjectId)
    (name : String) (args : List Value) :
    (callMethod run o name args).Runs writes (.object o :: args) out := by
  refine .find (fun w => [.type (w.object o).type]) (fun w hw hvs => ?_) fun w => ?_
  · simp only [backs_cons, isBacked_object, isBacked_type, backs_nil, and_true] at hvs ⊢
    exact hw.types o hvs.1
  · exact (runs_callResolved hrun (some o) _ name args).holding _

/-- A call through a type has no receiver. -/
theorem runs_callMember (hrun : ∀ c args, (run c args).Runs writes args out) (t : TypeId)
    (name : String) (args : List Value) :
    (callMember run t name args).Runs writes (.type t :: args) out :=
  runs_callResolved hrun none t name args

/-- What is left of a construction once the object is there. -/
def setUp (run : Runner σ) (t : TypeId) (o : ObjectId) (args : List Value) : Act σ ObjectId := do
  modify fun w => w.registerAtHome t o
  let w ← get
  if (w.resolve? t "init").isSome then discard (callMethod run o "init" args)
  return o

/-- To construct an object is to make a cell and to set it up. -/
theorem run_run_construct (run : Runner σ) (t : TypeId) (args : List Value) (w : World σ) :
    (construct run t args).run.run w =
      ((setUp run t (w.newObject t).1 args).holding [.object (w.newObject t).1]).run.run
        (w.newObject t).2 :=
  rfl

/-- Setting up registers the object and runs its initialiser, if there is one. -/
theorem runs_setUp (hrun : ∀ c args, (run c args).Runs writes args out) (t : TypeId) (o : ObjectId)
    (args : List Value) :
    (setUp run t o args).Runs writes (.object o :: args) fun o => [.object o] := by
  have hregister : (modify fun w : World σ => w.registerAtHome t o : Act σ PUnit).Runs writes
      (.object o :: args) fun _ => [] :=
    fun w _ _ => ⟨.host (w.keepsTypes_registerAtHome t o), fun _ _ => backs_nil⟩
  have hreturn : (pure o : Act σ ObjectId).Runs writes (.object o :: args) fun o => [.object o] :=
    .pure fun w hw => backs_cons.mpr ⟨(backs_cons.mp hw).1, backs_nil⟩
  refine hregister.bind (fun _ => id) fun _ => .look fun w => ?_
  split
  · -- what the initialiser returns is dropped
    exact (runs_callMethod hrun o "init" args).discard.bind (fun _ => id) fun _ => hreturn
  · exact hreturn

/-- **Construction** makes an object, and the rest of it is a run. -/
theorem run_from_newObject (hrun : ∀ c args, (run c args).Runs writes args out) {w : World σ}
    (hw : w.Grounded) {t : TypeId} (ht : t.index < w.types.size) {args : List Value}
    (hargs : w.Backs args) :
    (w.newObject t).2.Run writes ((construct run t args).run.run w).2 ∧
      ∀ o, ((construct run t args).run.run w).1 = .ok o →
        ((construct run t args).run.run w).2.Backs [.object o] := by
  have hmade : w.KeepsTypes writes (w.newObject t).2 := keepsTypes_newObject ht
  have hbacks : (w.newObject t).2.Backs (.object (w.newObject t).1 :: args) :=
    backs_cons.mpr ⟨isBacked_object.mpr (w.lt_size_objects_newObject t), hmade.later.backs hargs⟩
  rw [run_run_construct]
  exact (runs_setUp hrun t _ args).holding _ _ (hmade.grounded hw) hbacks

/-- To construct an object of an existing type is a run, and the object exists. -/
theorem runs_construct (hrun : ∀ c args, (run c args).Runs writes args out) (t : TypeId)
    (args : List Value) :
    (construct run t args).Runs writes (.type t :: args) fun o => [.object o] := by
  intro w hw hvs
  obtain ⟨ht, hargs⟩ := backs_cons.mp hvs
  obtain ⟨hrest, hresult⟩ := run_from_newObject hrun hw (isBacked_type.mp ht) hargs
  -- the new cell first, then whatever the initialiser does
  exact ⟨(Run.host (keepsTypes_newObject (isBacked_type.mp ht))).trans hrest, hresult⟩

/-- To invoke a callable is to call it, to invoke a type is to construct an object. -/
theorem runs_invoke (hrun : ∀ c args, (run c args).Runs writes args fun v => [v]) (v : Value)
    (args : List Value) : (invoke run v args).Runs writes (v :: args) fun v => [v] := by
  unfold invoke
  split
  · exact (hrun _ args).mono fun w hw => (backs_cons.mp hw).2
  · exact ((runs_construct hrun _ args).holding _).bind (fun _ => id) fun o =>
      .pure fun w hw => (backs_append.mp hw).1
  · exact .throw _

end World

/-! ### Paths -/

namespace Frame

omit [Host σ]

variable {f : Frame} {w : World σ}

/-- A global is an export of the home, so it exists. -/
theorem isBacked_global (hw : w.Grounded) {name : String} {v : Value}
    (h : f.global w name = .ok v) : w.isBacked v = true := by
  unfold global at h
  split at h
  · cases h
  · split at h
    · next hv =>
      cases h
      exact hw.exports _ _ _ hv
    · cases h

/-- A step of a path leads to something that exists. -/
theorem isBacked_step (hw : w.Grounded) {v a : Value} {segment : String}
    (h : step w v segment = .ok a) : w.isBacked a = true := by
  unfold step at h
  split at h
  · -- a unit leads to what it exports, a type to a callable
    split at h
    · next hv =>
      cases h
      exact hw.exports _ _ _ hv
    · cases h
  · split at h
    · cases h
      rfl
    · cases h
  · cases h

/-- So does a path of any length. -/
theorem isBacked_foldlM_step (hw : w.Grounded) (rest : List String) {v a : Value}
    (hv : w.isBacked v = true) (h : rest.foldlM (step w) v = .ok a) : w.isBacked a = true := by
  induction rest generalizing v with
  | nil => exact Except.ok.inj h ▸ hv
  | cons segment rest ih =>
    rw [List.foldlM_cons] at h
    cases hstep : step w v segment with
    | error e =>
      rw [hstep] at h
      cases h
    | ok b =>
      rw [hstep] at h
      exact ih (isBacked_step hw hstep) h

/-- Whatever path is followed, it ends at what exists. -/
theorem isBacked_resolve (hw : w.Grounded) {path : String} {v : Value}
    (h : f.resolve w path = .ok v) : w.isBacked v = true := by
  unfold resolve at h
  split at h
  · -- a path of one segment is a name
    exact isBacked_global hw h
  · next first rest _ =>
    cases hfirst : f.global w first with
    | error e =>
      rw [hfirst] at h
      cases h
    | ok b =>
      rw [hfirst] at h
      exact isBacked_foldlM_step hw rest (isBacked_global hw hfirst) h

end Frame

namespace Frame

variable {vs : List Value}

/-- Looking up what has to exist, if it is there. -/
theorem runs_lookup {g : World σ → Except CallError Value}
    (hg : ∀ w, w.Grounded → ∀ v, g w = .ok v → w.isBacked v = true) :
    (get >>= fun w => liftExcept (g w) : Act σ Value).Runs writes vs fun v => [v] := by
  refine .find (fun w => (g w).toOption.toList) (fun w hw _ => ?_) fun w =>
    .lift fun v hv u hu => ?_
  · cases hx : g w with
    | ok v => simpa [Except.toOption] using hg w hw v hx
    | error e => simp [Except.toOption]
  · simp only [hv, Except.toOption, Option.toList_some] at hu
    exact (World.backs_append.mp hu).1

/-- Reading a global changes nothing, and what is read exists. -/
theorem runs_global (f : Frame) (name : String) :
    (get >>= fun w => liftExcept (f.global w name) : Act σ Value).Runs writes vs fun v => [v] :=
  runs_lookup fun _ hw _ => isBacked_global hw

theorem runs_resolve (f : Frame) (path : String) :
    (get >>= fun w => liftExcept (f.resolve w path) : Act σ Value).Runs writes vs fun v => [v] :=
  runs_lookup fun _ hw _ => isBacked_resolve hw

/-- The original of a wrapper is read off its cell. -/
theorem runs_wrapped (f : Frame) : (f.wrapped : Act σ CallableId).Runs writes vs fun _ => [] := by
  refine .look fun w => ?_
  split
  · exact .pure fun _ _ => World.backs_nil
  · exact .throw _

end Frame

/-! ### Evaluation -/

/-- The fields that bodies may write: all of them. -/
def everyField : ObjectId → String → Bool := fun _ _ => true

namespace World

variable {vs : List Value}

/-- Writing a field yields what it held. -/
theorem runs_setField {o : ObjectId} {new : Value} (name : String) (ho : .object o ∈ vs)
    (hnew : new ∈ vs) :
    (do
      let w ← get
      let old := (w.field? o name).getD .nil
      set (w.setField o name new)
      return old : Act σ Value).Runs everyField vs fun v => [v] := by
  refine .step fun w hw hvs => ?_
  have hkeeps : w.KeepsTypes everyField (w.setField o name new) :=
    keepsTypes_setField (isBacked_object.mp (hvs _ ho)) rfl (hvs _ hnew)
  -- the old value is what the expression returns
  have hold : w.isBacked ((w.field? o name).getD .nil) = true := isBacked_getD (hw.fields o name)
  exact ⟨hkeeps, backs_cons.mpr ⟨hkeeps.later.isBacked hold, backs_nil⟩⟩

/-- So does writing an export. -/
theorem runs_setExport {new : Value} (u : UnitId) (name : String) (hnew : new ∈ vs) :
    (do
      let w ← get
      let old := (w.export? u name).getD .nil
      set (w.setExport u name new)
      return old : Act σ Value).Runs writes vs fun v => [v] := by
  refine .step fun w hw hvs => ?_
  have hkeeps : w.KeepsTypes writes (w.setExport u name new) :=
    keepsTypes_setExport u name (hvs _ hnew)
  have hold : w.isBacked ((w.export? u name).getD .nil) = true := isBacked_getD (hw.exports u name)
  exact ⟨hkeeps, backs_cons.mpr ⟨hkeeps.later.isBacked hold, backs_nil⟩⟩

end World

mutual

/-- **Evaluation is a run** if calls are. It needs the arguments of its frame and the values that
the expression names. -/
theorem Expr.runs_eval {run : Runner σ}
    (hrun : ∀ c args, (run c args).Runs everyField args fun v => [v]) (f : Frame) :
    (e : Expr) → (e.eval run f).Runs everyField (f.args ++ e.literals) fun v => [v]
  | .literal v => by
    rw [Expr.eval, Expr.literals]
    exact .pure fun w hw => (World.backs_append.mp hw).2
  | .arg i => by
    rw [Expr.eval, List.getD_eq_getElem?_getD]
    refine .pure fun w hw => World.backs_cons.mpr ⟨?_, World.backs_nil⟩
    exact World.isBacked_getD fun v hv => hw v (List.mem_append_left _ (List.mem_of_getElem? hv))
  | .argCount => by
    rw [Expr.eval]
    exact .scalar fun _ => rfl
  | .global name => by
    rw [Expr.eval]
    exact f.runs_global name
  | .resolve path => by
    rw [Expr.eval]
    exact f.runs_resolve path
  -- the path is resolved after the arguments, which may have changed what it leads to
  | .callPath path args => by
    rw [Expr.eval, Expr.literals]
    refine (Expr.runs_evalAll hrun f args).bind (fun _ => id) fun vs => .holding ?_ _
    refine (f.runs_resolve path).bind (fun _ => id) fun v => .holding ?_ _
    exact (World.runs_invoke hrun v vs).mono (by simp_all)
  | .invoke callee args => by
    rw [Expr.eval, Expr.literals]
    refine (Expr.runs_eval hrun f callee).bind (by simp_all) fun v => .holding ?_ _
    refine (Expr.runs_evalAll hrun f args).bind (by simp_all) fun vs => .holding ?_ _
    exact (World.runs_invoke hrun v vs).mono (by simp_all)
  | .method object name args => by
    rw [Expr.eval, Expr.literals]
    refine .object (Expr.runs_eval hrun f object) (by simp_all) fun v o => .holding ?_ _
    refine (Expr.runs_evalAll hrun f args).bind (by simp_all) fun vs => .holding ?_ _
    exact (World.runs_callMethod hrun o name vs).mono (by simp_all)
  | .member type name args => by
    rw [Expr.eval, Expr.literals]
    refine .type (Expr.runs_eval hrun f type) (by simp_all) fun v t => .holding ?_ _
    refine (Expr.runs_evalAll hrun f args).bind (by simp_all) fun vs => .holding ?_ _
    exact (World.runs_callMember hrun t name vs).mono (by simp_all)
  | .field object name => by
    rw [Expr.eval, Expr.literals]
    refine .object (Expr.runs_eval hrun f object) (fun _ => id) fun v o => ?_
    refine .find (fun w => [(w.field? o name).getD .nil]) (fun w hw _ => ?_) fun w => .pure ?_
    · exact World.backs_cons.mpr ⟨World.isBacked_getD (hw.fields o name), World.backs_nil⟩
    · exact fun w hw => (World.backs_append.mp hw).1
  | .setField object name value => by
    rw [Expr.eval, Expr.literals]
    refine .object (Expr.runs_eval hrun f object) (by simp_all) fun v o => .holding ?_ _
    refine (Expr.runs_eval hrun f value).bind (by simp_all) fun new => ?_
    exact World.runs_setField name (by simp) (by simp)
  -- a body without a home has no globals
  | .setGlobal name value => by
    rw [Expr.eval, Expr.literals]
    refine (Expr.runs_eval hrun f value).bind (fun _ => id) fun new => ?_
    cases f.home with
    | none => exact .look fun w => .throw _
    | some u => exact World.runs_setExport u name (by simp)
  | .kindOf e => by
    rw [Expr.eval, Expr.literals]
    exact (Expr.runs_eval hrun f e).bind (fun _ => id) fun v => .scalar fun _ => rfl
  | .typeOf object => by
    rw [Expr.eval, Expr.literals]
    refine .object (Expr.runs_eval hrun f object) (fun _ => id) fun v o => ?_
    refine .find (fun w => [.type (w.object o).type]) (fun w hw hvs => ?_) fun w => .pure ?_
    · have ho := World.isBacked_object.mp (World.backs_cons.mp hvs).1
      exact World.backs_cons.mpr ⟨World.isBacked_type.mpr (hw.types o ho), World.backs_nil⟩
    · exact fun w hw => (World.backs_append.mp hw).1
  -- the test reads ancestors and returns a flag
  | .isA object type => by
    rw [Expr.eval, Expr.literals]
    refine .object (Expr.runs_eval hrun f object) (by simp_all) fun v o => .holding ?_ _
    refine .type (Expr.runs_eval hrun f type) (by simp_all) fun _ t => ?_
    exact .look fun w => .scalar fun _ => rfl
  | .equal a b => by
    rw [Expr.eval, Expr.literals]
    refine (Expr.runs_eval hrun f a).bind (by simp_all) fun v => .holding ?_ _
    exact (Expr.runs_eval hrun f b).bind (by simp_all) fun v' => .scalar fun _ => rfl
  | .concat es => by
    rw [Expr.eval, Expr.literals]
    refine (Expr.runs_evalAll hrun f es).bind (fun _ => id) fun vs => ?_
    exact .look fun w => .scalar fun _ => rfl
  | .add a b => by
    rw [Expr.eval, Expr.literals]
    refine .int (Expr.runs_eval hrun f a) (by simp_all) fun m => ?_
    refine .int (Expr.runs_eval hrun f b) (by simp_all) fun n => ?_
    split
    · exact .scalar fun _ => rfl
    · exact .throw _
  | .selfName => by
    rw [Expr.eval]
    exact .look fun w => .scalar fun _ => rfl
  | .raise message => by
    rw [Expr.eval]
    exact .throw _
  -- the second operand starts from what the first has left, also if it failed
  | .attempt a b => by
    rw [Expr.eval, Expr.literals]
    exact .orElse ((Expr.runs_eval hrun f a).mono (by simp_all))
      ((Expr.runs_eval hrun f b).mono (by simp_all))
  -- an error becomes a text, and a result is returned as it is
  | .errorText e => by
    rw [Expr.eval, Expr.literals]
    refine (Expr.runs_eval hrun f e).outcome.bind (fun _ => id) fun r => ?_
    cases r with
    | ok v => exact .pure fun w hw => (World.backs_append.mp hw).1
    | error e => exact .scalar fun _ => rfl
  | .seq es => by
    rw [Expr.eval, Expr.literals]
    refine (Expr.runs_evalLast hrun f es .nil).mono fun w hw => ?_
    exact World.backs_cons.mpr ⟨rfl, hw⟩
  | .cond c a b => by
    rw [Expr.eval, Expr.literals]
    refine (Expr.runs_eval hrun f c).bind (by simp_all) fun v => .holding ?_ _
    split
    · exact (Expr.runs_eval hrun f a).mono (by simp_all)
    · exact (Expr.runs_eval hrun f b).mono (by simp_all)
  | .inner args => by
    rw [Expr.eval, Expr.literals]
    refine f.runs_wrapped.bind (fun _ => id) fun c => ?_
    refine (Expr.runs_evalAll hrun f args).bind (fun _ => id) fun vs => .holding ?_ _
    exact (hrun c vs).mono (by simp_all)
  -- the arguments of the wrapper go to the original
  | .forward => by
    rw [Expr.eval]
    exact f.runs_wrapped.bind (fun _ => id) fun c => (hrun c f.args).mono (by simp_all)
  | .malformed => by
    rw [Expr.eval]
    exact .throw _

/-- Operands are evaluated in turn, and all their values exist in the end. -/
theorem Expr.runs_evalAll {run : Runner σ}
    (hrun : ∀ c args, (run c args).Runs everyField args fun v => [v]) (f : Frame) :
    (es : List Expr) →
      (Expr.evalAll run f es).Runs everyField (f.args ++ Expr.literalsOf es) fun vs => vs
  | [] => by
    rw [Expr.evalAll]
    exact .pure fun w _ => World.backs_nil
  -- the first value is held while the others are evaluated
  | e :: es => by
    rw [Expr.evalAll, Expr.literalsOf]
    refine (Expr.runs_eval hrun f e).bind (by simp_all) fun v => .holding ?_ _
    refine (Expr.runs_evalAll hrun f es).bind (by simp_all) fun vs => .pure ?_
    simp_all

/-- Of a sequence the last value is returned. -/
theorem Expr.runs_evalLast {run : Runner σ}
    (hrun : ∀ c args, (run c args).Runs everyField args fun v => [v]) (f : Frame) :
    (es : List Expr) → (last : Value) → (Expr.evalLast run f last es).Runs everyField
      (last :: (f.args ++ Expr.literalsOf es)) fun v => [v]
  | [], last => by
    rw [Expr.evalLast]
    exact .pure (by simp_all)
  | e :: es, last => by
    rw [Expr.evalLast, Expr.literalsOf]
    refine ((Expr.runs_eval hrun f e).holding _).bind (by simp_all) fun v => ?_
    exact (Expr.runs_evalLast hrun f es v).mono (by simp_all)

end

namespace World

/-- **Running a callable is a run of the world.** The induction is on the depth of calls. -/
theorem runs_runWithin (bound : Nat) (c : CallableId) (args : List Value) :
    (runWithin bound c args : Act σ Value).Runs everyField args fun v => [v] := by
  induction bound generalizing c args with
  -- calls are nested too deeply
  | zero => exact .throw _
  | succ bound ih =>
    -- what a body names exists in a grounded world
    refine .find (fun w => (w.callable c).body.literals) (fun w hw _ => hw.bodies c) fun w => ?_
    exact (((w.callable c).body.runs_eval ih _).holding _).mono (by simp_all)

/-- **Calls are runs**, and what they return exists. -/
theorem runs_run (c : CallableId) (args : List Value) :
    (World.run c args : Act σ Value).Runs everyField args fun v => [v] :=
  runs_runWithin depthLimit c args

end World

end HotReload
