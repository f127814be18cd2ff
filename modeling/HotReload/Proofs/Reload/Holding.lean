import HotReload.Proofs.Reload.Evaluation

/-!
# Who holds what

Running code holds nodes and lets go of them again. What a call does depends on this in one way
only: whether a node is alive decides if a home can be used and what a sweep of a heap leaves, and
for this the roots count, as a set. It makes no difference how often or in which order they have
come to be held, nor whether running code holds them or the host does.

An action is **impartial** (`Act.Impartial`) if it does the same with other pins that make up the
same roots, and leaves the pins as it has found them. Actions that are put together from impartial
ones are impartial, so evaluation is (`Expr.impartial_eval`, by one case for each constructor) and
so are calls (`World.impartial_run`). To hold a root during an impartial action is then as good as
not to hold it (`Act.Impartial.holding_root`).
-/

namespace HotReload

variable {σ : Type} [Host σ]

namespace World

/-! ### Other pins -/

/-- The world with other pins. -/
abbrev repinned (w : World σ) (pins : NumberedSet Node) : World σ := { w with pins := pins }

/-- **Equally held.** With these pins the world has the roots that it has with its own. -/
def EquallyHeld (w : World σ) (pins : NumberedSet Node) : Prop :=
  ∀ n, n ∈ (w.repinned pins).roots ↔ n ∈ w.roots

variable {w w' : World σ} {pins : NumberedSet Node}

/-- A world has the roots that it has. -/
theorem EquallyHeld.refl (w : World σ) : w.EquallyHeld w.pins := fun _ => Iff.rfl

/-- Only the pins and the host have roots. -/
theorem EquallyHeld.of_host (h : w.EquallyHeld pins) (hpins : w'.pins = w.pins)
    (hhost : w'.host = w.host) : w'.EquallyHeld pins := by
  intro n
  have hroots := h n
  rw [mem_roots, mem_roots] at hroots ⊢
  rw [hpins, hhost]
  exact hroots

/-- Equally held nodes are so with more nodes pinned. -/
theorem EquallyHeld.pin (h : w.EquallyHeld pins) (nodes : List Node) :
    (w.pin nodes).EquallyHeld ((w.repinned pins).pin nodes).pins := by
  intro n
  have hroots := h n
  rw [mem_roots, mem_roots] at hroots ⊢
  rw [contains_pins_pin, contains_pins_pin, or_assoc, or_assoc]
  exact or_congr_right hroots

/-- To pin roots makes no difference to what is held. -/
theorem equallyHeld_pin {nodes : List Node} (hnodes : ∀ n ∈ nodes, n ∈ w.roots) :
    w.EquallyHeld (w.pin nodes).pins := by
  intro n
  rw [mem_roots, mem_roots, contains_pins_pin, or_assoc]
  refine ⟨fun h => ?_, .inr⟩
  rcases h with h | h
  · exact mem_roots.mp (hnodes n h)
  · exact h

/-! ### Liveness -/

/-- What is alive is what the roots lead to, so it is the same. -/
theorem EquallyHeld.reaches_iff (h : w.EquallyHeld pins) (n : Node) :
    (w.repinned pins).Reaches n ↔ w.Reaches n :=
  -- pins are no edges: only where the search starts could differ
  reaches_iff_of_edges h rfl (fun _ _ => Iff.rfl) n

/-- A home can be used with the other pins if it can with the own ones. -/
theorem EquallyHeld.aliveUnit? (h : w.EquallyHeld pins) (u : Option UnitId) :
    (w.repinned pins).aliveUnit? u = w.aliveUnit? u := by
  have halive : ∀ u, (w.repinned pins).isAlive (.unit u) = w.isAlive (.unit u) := by
    intro u
    rw [Bool.eq_iff_iff, isAlive_iff, isAlive_iff]
    exact h.reaches_iff (.unit u)
  simp only [World.aliveUnit?, halive]

/-- A sweep leaves the same entries. -/
theorem EquallyHeld.sweepHeap (h : w.EquallyHeld pins) (heap : HeapId) :
    (w.repinned pins).sweepHeap heap = (w.sweepHeap heap).repinned pins := by
  have hliving : ∀ o, (w.repinned pins).living.contains (.object o) =
      w.living.contains (.object o) := fun o => living_contains_eq_of_reaches (h.reaches_iff _)
  -- a sweep asks of each entry whether it is alive, and nothing else
  simp only [World.sweepHeap, hliving]
  rfl

/-- Registering an object sweeps the heap in both worlds or in neither. -/
theorem EquallyHeld.register (h : w.EquallyHeld pins) (heap : HeapId) (o : ObjectId) :
    (w.repinned pins).register heap o = (w.register heap o).repinned pins := by
  have hswept := h.sweepHeap heap
  have hdue : ((w.repinned pins).heap heap).isDue = (w.heap heap).isDue := rfl
  simp only [World.register, hdue]
  -- whether a sweep is due is a matter of the heap
  cases (w.heap heap).isDue with
  | false => rfl
  | true =>
    simp only [if_true, hswept]
    rfl

/-- An object is registered at the same home, if the home is alive. -/
theorem EquallyHeld.registerAtHome (h : w.EquallyHeld pins) (t : TypeId) (o : ObjectId) :
    (w.repinned pins).registerAtHome t o = (w.registerAtHome t o).repinned pins := by
  have halive : (w.repinned pins).aliveUnit? (some ((w.repinned pins).type t).home) =
      w.aliveUnit? (some (w.type t).home) := h.aliveUnit? _
  unfold World.registerAtHome
  rw [halive]
  -- without a home there is nothing to register
  cases w.aliveUnit? (some (w.type t).home) with
  | none => rfl
  | some u => exact h.register (w.unit u).heap o

omit [Host σ] in
/-- The walk over ancestors asks for no pins. -/
theorem isInstance_repinned (w : World σ) (pins : NumberedSet Node) (o : ObjectId) (t : TypeId) :
    (w.repinned pins).isInstance o t = w.isInstance o t := by
  have hderives : ∀ bound, (w.repinned pins).derives t bound = w.derives t bound := by
    intro bound
    -- the walk is cut off at a bound, so the induction is on the bound
    induction bound with
    | zero => rfl
    | succ bound ih =>
      funext s
      show (s == t || (w.ancestors s).any ((w.repinned pins).derives t bound)) = _
      rw [ih]
      rfl
  exact congrFun (hderives _) _

end World

/-! ### Impartial actions -/

namespace Act

variable {α β : Type}

omit [Host σ] in
/-- To look changes nothing. -/
theorem run_run_get_bind (next : World σ → Act σ α) (w : World σ) :
    (get >>= next).run.run w = (next w).run.run w := rfl

omit [Host σ] in
/-- What comes after an action goes on in the world that the action leaves. -/
theorem run_run_bind (act : Act σ α) (next : α → Act σ β) (w : World σ) :
    (act >>= next).run.run w =
      match act.run.run w with
      | (.ok a, v) => (next a).run.run v
      | (.error e, v) => (.error e, v) := by
  rw [ExceptT.run_bind, StateT.run_bind]
  cases act.run.run w with
  | mk result v => cases result <;> rfl

omit [Host σ] in
/-- So does a second attempt. -/
theorem run_run_orElse (a b : Act σ α) (w : World σ) :
    (a.orElse b).run.run w =
      match a.run.run w with
      | (.ok x, v) => (.ok x, v)
      | (.error _, v) => b.run.run v := by
  rw [Act.orElse, ExceptT.run_mk, StateT.run_bind]
  cases a.run.run w with
  | mk result v => cases result <;> rfl

end Act

/-- An action is **impartial** if it does the same whichever pins make up the roots, and touches
neither the pins nor the host. -/
structure Act.Impartial {α : Type} (act : Act σ α) : Prop where
  repinned : ∀ (w : World σ) (pins : NumberedSet Node), w.EquallyHeld pins →
    act.run.run (w.repinned pins) = ((act.run.run w).1, (act.run.run w).2.repinned pins)
  host : ∀ w : World σ, (act.run.run w).2.host = w.host

namespace Act.Impartial

variable {α β : Type}

/-- The pins are one of the choices that make up the roots. -/
theorem pins {act : Act σ α} (h : act.Impartial) (w : World σ) :
    (act.run.run w).2.pins = w.pins :=
  congrArg (·.2.pins) (h.repinned w w.pins (.refl w))

/-- To return something touches nothing. -/
theorem pure (a : α) : (Pure.pure a : Act σ α).Impartial := ⟨fun _ _ _ => rfl, fun _ => rfl⟩

/-- Nor does giving up. -/
theorem throw (e : CallError) : (MonadExcept.throw e : Act σ α).Impartial :=
  ⟨fun _ _ _ => rfl, fun _ => rfl⟩

/-- A result that has been computed is returned or thrown. -/
theorem lift (x : Except CallError α) : (liftExcept x : Act σ α).Impartial := by
  cases x with
  | ok a => exact .pure a
  | error e => exact .throw e

/-- **One after the other.** -/
theorem bind {act : Act σ α} {next : α → Act σ β} (h : act.Impartial)
    (hnext : ∀ a, (next a).Impartial) : (act >>= next).Impartial := by
  constructor
  case repinned =>
    intro w pins hpins
    -- the first action has left pins and host alone, so the second one finds the same roots
    have hheld := hpins.of_host (h.pins w) (h.host w)
    rw [run_run_bind, run_run_bind, h.repinned w pins hpins]
    cases heq : act.run.run w with
    | mk result v =>
      rw [heq] at hheld
      cases result with
      | error e => rfl
      | ok a => exact (hnext a).repinned v pins hheld
  case host =>
    intro w
    have hhost := h.host w
    rw [run_run_bind]
    cases heq : act.run.run w with
    | mk result v =>
      rw [heq] at hhost
      cases result with
      | error e => exact hhost
      | ok a => exact ((hnext a).host v).trans hhost

/-- To drop the result makes no difference. -/
theorem discard {act : Act σ α} (h : act.Impartial) : (Functor.discard act).Impartial :=
  h.bind fun _ => .pure _

/-- What is held meanwhile is let go of again. -/
theorem holding {act : Act σ α} (h : act.Impartial) (nodes : List Node) :
    (act.holding nodes).Impartial where
  repinned w pins hpins := by
    -- the same nodes are pinned on top of both choices of pins, and unpinned afterwards
    have hrun := h.repinned (w.pin nodes) _ (hpins.pin nodes)
    show ((act.run.run ((w.repinned pins).pin nodes)).1,
      (act.run.run ((w.repinned pins).pin nodes)).2.repinned pins) = _
    have hpin : (w.repinned pins).pin nodes =
        (w.pin nodes).repinned ((w.repinned pins).pin nodes).pins := rfl
    rw [hpin, hrun]
    rfl
  host w := h.host (w.pin nodes)

/-- **To hold what is held anyway** makes no difference. -/
theorem holding_root {act : Act σ α} (h : act.Impartial) {w : World σ} {nodes : List Node}
    (hnodes : ∀ n ∈ nodes, n ∈ w.roots) : (act.holding nodes).run.run w = act.run.run w := by
  -- with the nodes pinned the roots are what they are, so this is a case of being impartial
  have hrun : act.run.run (w.pin nodes) =
      ((act.run.run w).1, (act.run.run w).2.repinned (w.pin nodes).pins) :=
    h.repinned w _ (World.equallyHeld_pin hnodes)
  show ((act.run.run (w.pin nodes)).1, (act.run.run (w.pin nodes)).2.repinned w.pins) = _
  rw [hrun, ← h.pins w]
  rfl

/-- Whatever is looked at, it must not be the pins. -/
theorem look {next : World σ → Act σ α} (h : ∀ w, (next w).Impartial)
    (hnext : ∀ w pins, w.EquallyHeld pins → next (w.repinned pins) = next w) :
    (get >>= next).Impartial where
  repinned w pins hpins := by
    rw [run_run_get_bind, run_run_get_bind, hnext w pins hpins]
    exact (h w).repinned w pins hpins
  host w := (h w).host w

/-- **A write**, with a result that is read from the world as it was. -/
theorem write {next : World σ → World σ} {result : World σ → α}
    (hnext : ∀ w pins, next (w.repinned pins) = (next w).repinned pins)
    (hhost : ∀ w, (next w).host = w.host)
    (hresult : ∀ w pins, result (w.repinned pins) = result w) :
    (get >>= fun w => set (next w) >>= fun _ => Pure.pure (result w) : Act σ α).Impartial where
  repinned w pins _ := by
    show (Except.ok (result (w.repinned pins)), next (w.repinned pins)) = _
    rw [hnext, hresult]
    rfl
  host := hhost

/-- A second attempt starts from what the first one leaves. -/
theorem orElse {a b : Act σ α} (ha : a.Impartial) (hb : b.Impartial) : (a.orElse b).Impartial := by
  constructor
  case repinned =>
    intro w pins hpins
    -- also an action that fails leaves pins and host alone
    have hheld := hpins.of_host (ha.pins w) (ha.host w)
    rw [run_run_orElse, run_run_orElse, ha.repinned w pins hpins]
    cases heq : a.run.run w with
    | mk result v =>
      rw [heq] at hheld
      cases result with
      | ok x => rfl
      | error e => exact hb.repinned v pins hheld
  case host =>
    intro w
    have hhost := ha.host w
    rw [run_run_orElse]
    cases heq : a.run.run w with
    | mk result v =>
      rw [heq] at hhost
      cases result with
      | ok x => exact hhost
      | error e => exact (hb.host v).trans hhost

/-- An error is taken for a result. -/
theorem outcome {act : Act σ α} (h : act.Impartial) : act.outcome.Impartial where
  repinned w pins hpins := by
    show (Except.ok (act.run.run (w.repinned pins)).1, (act.run.run (w.repinned pins)).2) = _
    rw [h.repinned w pins hpins]
    rfl
  host w := h.host w

end Act.Impartial

/-! ### Members and construction -/

namespace World

variable {run : Runner σ}

/-- A call through a type looks the member up, and then runs it. -/
theorem impartial_callResolved (hrun : ∀ c args, (run c args).Impartial) (o : Option ObjectId)
    (t : TypeId) (name : String) (args : List Value) :
    (callResolved run o t name args).Impartial := by
  refine .look (fun w => ?_) fun _ _ _ => rfl
  split
  · -- the member is missing
    exact .throw _
  · exact (hrun _ _).holding _

/-- So does a call on an object, which looks for the type first. -/
theorem impartial_callMethod (hrun : ∀ c args, (run c args).Impartial) (o : ObjectId)
    (name : String) (args : List Value) : (callMethod run o name args).Impartial :=
  .look (fun _ => (impartial_callResolved hrun (some o) _ name args).holding _) fun _ _ _ => rfl

/-- And a call without an object. -/
theorem impartial_callMember (hrun : ∀ c args, (run c args).Impartial) (t : TypeId)
    (name : String) (args : List Value) : (callMember run t name args).Impartial :=
  impartial_callResolved hrun none t name args

/-- Objects are registered without the host. -/
theorem host_registerAtHome (w : World σ) (t : TypeId) (o : ObjectId) :
    (w.registerAtHome t o).host = w.host := by
  unfold registerAtHome
  split
  · unfold register
    split <;> rfl
  · rfl

/-- To set an object up is to register it and to run its initialiser, if it has one. -/
theorem impartial_setUp (hrun : ∀ c args, (run c args).Impartial) (t : TypeId) (o : ObjectId)
    (args : List Value) : (setUp run t o args).Impartial := by
  have hregister : (modify fun w : World σ => w.registerAtHome t o : Act σ PUnit).Impartial :=
    ⟨fun w pins hpins => congrArg (Prod.mk (Except.ok PUnit.unit)) (hpins.registerAtHome t o),
      fun w => w.host_registerAtHome t o⟩
  -- whether there is an initialiser is read off the types
  refine hregister.bind fun _ => .look (fun w => ?_) fun _ _ _ => rfl
  split
  · exact (impartial_callMethod hrun o "init" args).discard.bind fun _ => .pure o
  · exact .pure o

/-- An object is made without regard to pins, and the rest is setting it up. -/
theorem impartial_construct (hrun : ∀ c args, (run c args).Impartial) (t : TypeId)
    (args : List Value) : (construct run t args).Impartial := by
  have hsetUp : ∀ w : World σ,
      ((setUp run t (w.newObject t).1 args).holding [.object (w.newObject t).1]).Impartial :=
    fun w => (impartial_setUp hrun t _ args).holding _
  constructor
  case repinned =>
    intro w pins hpins
    -- a new object is no root by itself
    have hheld : (w.newObject t).2.EquallyHeld pins := hpins.of_host rfl rfl
    rw [run_run_construct, run_run_construct]
    exact (hsetUp w).repinned (w.newObject t).2 pins hheld
  case host =>
    intro w
    rw [run_run_construct]
    exact (hsetUp w).host (w.newObject t).2

/-- What is invoked is a callable or a type; anything else cannot be called. -/
theorem impartial_invoke (hrun : ∀ c args, (run c args).Impartial) (v : Value)
    (args : List Value) : (invoke run v args).Impartial := by
  unfold invoke
  split
  · exact hrun _ args
  · exact ((impartial_construct hrun _ args).holding _).bind fun o => .pure _
  · exact .throw _

end World

/-! ### Evaluation -/

namespace Frame

/-- The callable that a wrapper stands for is read off its cell. -/
theorem impartial_wrapped (f : Frame) : (f.wrapped : Act σ CallableId).Impartial := by
  refine .look (fun w => ?_) fun _ _ _ => rfl
  split
  · exact .pure _
  · exact .throw _

/-- What is looked up is in the cells. -/
theorem impartial_lookup {g : World σ → Except CallError Value}
    (hg : ∀ w pins, g (w.repinned pins) = g w) :
    (get >>= fun w => liftExcept (g w) : Act σ Value).Impartial :=
  .look (fun w => .lift (g w)) fun w pins _ => by rw [hg]

end Frame

mutual

/-- **Evaluation is impartial** if calls are. -/
theorem Expr.impartial_eval {run : Runner σ} (hrun : ∀ c args, (run c args).Impartial)
    (f : Frame) : (e : Expr) → (e.eval run f).Impartial
  | .literal v => by
    rw [Expr.eval]
    exact .pure v
  | .arg i => by
    rw [Expr.eval]
    exact .pure _
  | .argCount => by
    rw [Expr.eval]
    exact .pure _
  | .global name => by
    rw [Expr.eval]
    -- looking up a name asks for cells only
    exact Frame.impartial_lookup fun _ _ => rfl
  | .resolve path => by
    rw [Expr.eval]
    exact Frame.impartial_lookup fun _ _ => rfl
  | .callPath path args => by
    rw [Expr.eval]
    refine (Expr.impartial_evalAll hrun f args).bind fun vs => .holding ?_ _
    -- the callee is looked up when the arguments are there, and held while it runs
    refine .look (fun w => (Act.Impartial.lift _).bind fun v => .holding ?_ _) fun _ _ _ => rfl
    exact World.impartial_invoke hrun v vs
  | .invoke callee args => by
    rw [Expr.eval]
    refine (Expr.impartial_eval hrun f callee).bind fun v => .holding ?_ _
    refine (Expr.impartial_evalAll hrun f args).bind fun vs => .holding ?_ _
    exact World.impartial_invoke hrun v vs
  | .method object name args => by
    rw [Expr.eval]
    refine (Expr.impartial_eval hrun f object).bind fun v => (Act.Impartial.lift _).bind fun o =>
      .holding ?_ _
    refine (Expr.impartial_evalAll hrun f args).bind fun vs => .holding ?_ _
    -- the object stays held from before the arguments are evaluated
    exact World.impartial_callMethod hrun o name vs
  | .member type name args => by
    rw [Expr.eval]
    refine (Expr.impartial_eval hrun f type).bind fun v => (Act.Impartial.lift _).bind fun t =>
      .holding ?_ _
    refine (Expr.impartial_evalAll hrun f args).bind fun vs => .holding ?_ _
    exact World.impartial_callMember hrun t name vs
  | .field object name => by
    rw [Expr.eval]
    refine (Expr.impartial_eval hrun f object).bind fun v => (Act.Impartial.lift _).bind fun o => ?_
    exact .look (fun w => .pure _) fun _ _ _ => rfl
  | .setField object name value => by
    rw [Expr.eval]
    refine (Expr.impartial_eval hrun f object).bind fun v => (Act.Impartial.lift _).bind fun o =>
      .holding ?_ _
    refine (Expr.impartial_eval hrun f value).bind fun new => ?_
    -- a write of a field goes to the objects
    exact .write (fun _ _ => rfl) (fun _ => rfl) fun _ _ => rfl
  | .setGlobal name value => by
    rw [Expr.eval]
    refine (Expr.impartial_eval hrun f value).bind fun new => ?_
    cases f.home with
    | none => exact .look (fun w => .throw _) fun _ _ _ => rfl
    | some u => exact .write (fun _ _ => rfl) (fun _ => rfl) fun _ _ => rfl
  | .kindOf e => by
    rw [Expr.eval]
    exact (Expr.impartial_eval hrun f e).bind fun v => .pure _
  | .typeOf object => by
    rw [Expr.eval]
    refine (Expr.impartial_eval hrun f object).bind fun v => (Act.Impartial.lift _).bind fun o => ?_
    exact .look (fun w => .pure _) fun _ _ _ => rfl
  | .isA object type => by
    rw [Expr.eval]
    refine (Expr.impartial_eval hrun f object).bind fun v => (Act.Impartial.lift _).bind fun o =>
      .holding ?_ _
    refine (Expr.impartial_eval hrun f type).bind fun v => (Act.Impartial.lift _).bind fun t => ?_
    -- the test walks over ancestors, alive or not
    exact .look (fun w => .pure _) fun w pins _ => by rw [World.isInstance_repinned]
  | .equal a b => by
    rw [Expr.eval]
    refine (Expr.impartial_eval hrun f a).bind fun v => .holding ?_ _
    exact (Expr.impartial_eval hrun f b).bind fun v' => .pure _
  | .concat es => by
    rw [Expr.eval]
    refine (Expr.impartial_evalAll hrun f es).bind fun vs => ?_
    exact .look (fun w => .pure _) fun _ _ _ => rfl
  | .add a b => by
    rw [Expr.eval]
    refine (Expr.impartial_eval hrun f a).bind fun v => (Act.Impartial.lift _).bind fun m => ?_
    refine (Expr.impartial_eval hrun f b).bind fun v => (Act.Impartial.lift _).bind fun n => ?_
    split
    · exact .pure _
    · exact .throw _
  | .selfName => by
    rw [Expr.eval]
    exact .look (fun w => .pure _) fun _ _ _ => rfl
  | .raise message => by
    rw [Expr.eval]
    exact .throw _
  | .attempt a b => by
    rw [Expr.eval]
    -- what the first operand has written before it failed stays
    exact (Expr.impartial_eval hrun f a).orElse (Expr.impartial_eval hrun f b)
  | .errorText e => by
    rw [Expr.eval]
    refine (Expr.impartial_eval hrun f e).outcome.bind fun r => ?_
    cases r with
    | ok v => exact .pure v
    | error e => exact .pure _
  | .seq es => by
    rw [Expr.eval]
    exact Expr.impartial_evalLast hrun f es .nil
  | .cond c a b => by
    rw [Expr.eval]
    refine (Expr.impartial_eval hrun f c).bind fun v => .holding ?_ _
    split
    · -- only one of the branches is evaluated
      exact Expr.impartial_eval hrun f a
    · exact Expr.impartial_eval hrun f b
  | .inner args => by
    rw [Expr.eval]
    refine f.impartial_wrapped.bind fun c => ?_
    exact (Expr.impartial_evalAll hrun f args).bind fun vs => (hrun c vs).holding _
  | .forward => by
    rw [Expr.eval]
    exact f.impartial_wrapped.bind fun c => hrun c f.args
  | .malformed => by
    rw [Expr.eval]
    exact .throw _

/-- Operands are evaluated from left to right, and each value is held while the others are. -/
theorem Expr.impartial_evalAll {run : Runner σ} (hrun : ∀ c args, (run c args).Impartial)
    (f : Frame) : (es : List Expr) → (Expr.evalAll run f es).Impartial
  | [] => by
    rw [Expr.evalAll]
    exact .pure []
  | e :: es => by
    rw [Expr.evalAll]
    refine (Expr.impartial_eval hrun f e).bind fun v => .holding ?_ _
    exact (Expr.impartial_evalAll hrun f es).bind fun vs => .pure _

/-- Of a sequence only the last value is kept. -/
theorem Expr.impartial_evalLast {run : Runner σ} (hrun : ∀ c args, (run c args).Impartial)
    (f : Frame) : (es : List Expr) → (last : Value) → (Expr.evalLast run f last es).Impartial
  | [], last => by
    rw [Expr.evalLast]
    exact .pure last
  | e :: es, last => by
    rw [Expr.evalLast]
    refine ((Expr.impartial_eval hrun f e).holding _).bind fun v => ?_
    exact Expr.impartial_evalLast hrun f es v

end

namespace World

/-- The induction is on how deep calls may still nest: the body of a callable calls with one level
less. -/
theorem impartial_runWithin (bound : Nat) (c : CallableId) (args : List Value) :
    (runWithin bound c args : Act σ Value).Impartial := by
  induction bound generalizing c args with
  | zero => exact .throw _
  | succ bound ih =>
    -- the home of the frame is the one thing that liveness decides
    refine .look (fun w => ((w.callable c).body.impartial_eval ih _).holding _) ?_
    intro w pins hpins
    have halive : (w.repinned pins).aliveUnit? ((w.repinned pins).callable c).home =
        w.aliveUnit? (w.callable c).home := hpins.aliveUnit? _
    simp only [halive]
    rfl

/-- **Calls are impartial.** -/
theorem impartial_run (c : CallableId) (args : List Value) :
    (World.run c args : Act σ Value).Impartial :=
  impartial_runWithin depthLimit c args

end World

end HotReload
