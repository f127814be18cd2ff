import HotReload.Proofs.Reload.AncestorLists
import HotReload.Proofs.Reload.Wrapping

/-!
# What a wrapper is called for

A wrap finds a callable at a *site*: at one that its unit owns and exports, or at a member of a type
that its unit owns and exports (`WrapSite`). A name is not a site, so a callable with two names is
one site, and a type that is exported twice does not double its members.

The *log* of a wrap has the sites in the order in which the wrapper was called for them, with its
answers (`WrapLog`). Nothing that a wrap does shows in a site that is still to come, as long as the
wrapper is *harmless* (`Wrapper.Harmless`). So each site of the world in which the wrap began is in
the log once, with the callable and the name that it had there, and tables and members can be read
off the log (`World.Layered`, `World.layered_wrapAll`).
-/

namespace HotReload

variable {σ : Type}

/-- **Harmless.** The wrapper makes callables, and touches host state at most besides. What it
returns may be any callable. -/
structure Wrapper.Harmless (wrapper : Wrapper σ) : Prop where
  world : ∀ c name (w : World σ), ∃ callables host,
    (wrapper c name w).2 = { w with callables := callables, host := host }
  later : ∀ c name (w : World σ), w.Later (wrapper c name w).2

/-- **Where a wrap finds a callable.** -/
inductive WrapSite where
  /-- A callable that a unit owns and exports, under whatever names. -/
  | exported (c : CallableId)
  /-- A member of a type, with its callable. -/
  | member (t : TypeId) (name : String) (c : CallableId)
  deriving DecidableEq, Repr

/-- The callable that is found there. -/
def WrapSite.callable : WrapSite → CallableId
  | exported c => c
  | member _ _ c => c

/-- The **log** of a wrap: the sites for which the wrapper was called, with its answers. -/
abbrev WrapLog := List (WrapSite × CallableId)

namespace WrapLog

/-- The sites for which the wrapper was called. -/
def sites (log : WrapLog) : List WrapSite := log.map (·.1)

/-- What the wrapper has made of the callable at a site, if it was called for the site. -/
def answer (log : WrapLog) (s : WrapSite) : CallableId := (log.lookup s).getD s.callable

/-- One more answer is one more site. -/
theorem sites_concat (log : WrapLog) (s : WrapSite) (c : CallableId) :
    sites (log ++ [(s, c)]) = log.sites ++ [s] := List.map_append

/-- What is in no log is not found in it. -/
theorem lookup_of_notMem {log : WrapLog} {s : WrapSite} (hs : s ∉ log.sites) :
    log.lookup s = none := by
  rw [List.lookup_eq_none_iff]
  intro e he
  rw [bne_iff_ne]
  exact fun heq => hs (List.mem_map.mpr ⟨e, he, heq.symm⟩)

/-- Who was not asked about stays what it is. -/
theorem answer_of_notMem {log : WrapLog} {s : WrapSite} (hs : s ∉ log.sites) :
    log.answer s = s.callable := by
  rw [answer, lookup_of_notMem hs, Option.getD_none]

/-- The next call adds its answer, and changes no other one. -/
theorem answer_concat {log : WrapLog} {s : WrapSite} (hs : s ∉ log.sites) (c : CallableId)
    (s' : WrapSite) :
    answer (log ++ [(s, c)]) s' = if s' = s then c else log.answer s' := by
  rw [answer, List.lookup_append, List.lookup_cons]
  by_cases heq : s' = s
  · rw [heq, lookup_of_notMem hs, if_pos rfl, beq_self_eq_true]
    rfl
  · have hne : (s' == s) = false := beq_false_of_ne heq
    rw [hne, List.lookup_nil, Option.or_none, if_neg heq, answer]

end WrapLog

namespace World

/-- The name that the wrapper is given with the callable at a site. -/
def siteName (w : World σ) : WrapSite → QualifiedName
  | .exported c => w.callableName c
  | .member t name _ => w.memberName t name

/-- The sites of a definition: a callable itself, or the selected members of a type. -/
def sitesOf (w : World σ) (options : WrapOptions) : Definition → List WrapSite
  | .callable c => [.exported c]
  | .type t => ((w.type t).members.entries.filter (options.includes ·.1)).map fun e =>
      .member t e.1 e.2.callable

/-- **The calls of a wrapper.** Each answer in the log has been given to the callable and the name
of its site in `w`. What has been done to the host state since `w`, as far as anything can be read
off it that each call takes note of, are the calls in the log, one after the other. -/
structure Consulted (wrapper : Wrapper σ) (w : World σ) (host : σ) (log : WrapLog) : Prop where
  answered : ∀ e ∈ log, ∃ v, (wrapper e.1.callable (w.siteName e.1).text v).1 = e.2
  noted : ∀ {τ : Type} (read : σ → τ) (note : τ → CallableId → String → CallableId → τ),
    (∀ c name v, read (wrapper c name v).2.host =
      note (read v.host) c name (wrapper c name v).1) →
    read host =
      log.foldl (fun a e => note a e.1.callable (w.siteName e.1).text e.2) (read w.host)

/-- One more question to the wrapper, told by its answer and by what the host has noted. -/
theorem Consulted.call {wrapper : Wrapper σ} {w v : World σ} {log : WrapLog}
    (h : w.Consulted wrapper v.host log) (s : WrapSite) :
    w.Consulted wrapper (wrapper s.callable (w.siteName s).text v).2.host
      (log ++ [(s, (wrapper s.callable (w.siteName s).text v).1)]) where
  answered e he := by
    -- the answers of before, and the one of this call
    rcases List.mem_append.mp he with he | he
    · exact h.answered e he
    · obtain rfl := List.mem_singleton.mp he
      exact ⟨v, rfl⟩
  noted read note hnote := by
    rw [List.foldl_append, ← h.noted read note hnote]
    exact hnote _ _ v

/-- The member with the answer that the log has for it. -/
def rebound (log : WrapLog) (t : TypeId) (name : String) (m : Member) : Member :=
  { m with callable := log.answer (.member t name m.callable) }

/-- **Logged.** What has been done to types on the way from `w` to `v` can be read off the log, and
so can the calls of the wrapper. -/
structure Logged (wrapper : Wrapper σ) (w v : World σ) (log : WrapLog) : Prop where
  later : w.Later v
  sameTypes : w.SameTypes v
  types : v.types.size = w.types.size
  memberNames : ∀ t, (v.type t).members.names = (w.type t).members.names
  members : ∀ t name, (v.type t).members.get? name =
    ((w.type t).members.get? name).map (rebound log t name)
  nodup : log.sites.Nodup
  consulted : w.Consulted wrapper v.host log

namespace Logged

variable {wrapper : Wrapper σ} {w v v' : World σ} {log : WrapLog}

/-- Before the first question nothing has changed. -/
theorem start (wrapper : Wrapper σ) (w : World σ) : Logged wrapper w w [] where
  later := .refl w
  sameTypes := .refl w
  types := rfl
  memberNames _ := rfl
  members t name := by
    have hsame : rebound [] t name = id := funext fun _ => rfl
    rw [hsame, Option.map_id, id]
  nodup := List.nodup_nil
  consulted := ⟨nofun, fun _ _ _ => rfl⟩

/-- Only types and the host state matter. -/
theorem of_types (h : Logged wrapper w v log) (hlater : v.Later v') (htypes : v'.types = v.types)
    (hhost : v'.host = v.host) : Logged wrapper w v' log := by
  have htype : ∀ t, v'.type t = v.type t := fun t => by rw [type, htypes, type]
  exact
    { later := h.later.trans hlater
      sameTypes := fun t => by rw [htype]; exact h.sameTypes t
      types := htypes ▸ h.types
      memberNames := fun t => by rw [htype]; exact h.memberNames t
      members := fun t name => by rw [htype]; exact h.members t name
      nodup := h.nodup
      consulted := hhost ▸ h.consulted }

/-- A site that is new is not repeated. -/
theorem nodup_concat (h : Logged wrapper w v log) {s : WrapSite} (hs : s ∉ log.sites)
    (c : CallableId) : (WrapLog.sites (log ++ [(s, c)])).Nodup := by
  rw [WrapLog.sites_concat, List.nodup_append]
  refine ⟨h.nodup, List.nodup_singleton s, fun a ha b hb heq => hs ?_⟩
  rw [← List.mem_singleton.mp hb, ← heq]
  exact ha

/-- A call for a callable that is exported. -/
theorem exported (hwrapper : wrapper.Harmless) (h : Logged wrapper w v log) {c : CallableId}
    (hc : .exported c ∉ log.sites) :
    Logged wrapper w (wrapper c (w.callableName c).text v).2
      (log ++ [(.exported c, (wrapper c (w.callableName c).text v).1)]) := by
  have hlater := hwrapper.later c (w.callableName c).text v
  obtain ⟨callables, host, heq⟩ := hwrapper.world c (w.callableName c).text v
  -- the wrapper adds callables, so every type reads as before
  have htype : ∀ t, (wrapper c (w.callableName c).text v).2.type t = v.type t := by
    rw [heq]
    exact fun _ => rfl
  refine
    { later := h.later.trans hlater
      sameTypes := fun t => by rw [htype]; exact h.sameTypes t
      types := by rw [heq]; exact h.types
      memberNames := fun t => by rw [htype]; exact h.memberNames t
      members := fun t name => ?_
      nodup := h.nodup_concat hc _
      consulted := h.consulted.call (.exported c) }
  -- no member has this site, so members read the same in both logs
  rw [htype, h.members]
  refine Option.map_congr fun m _ => ?_
  rw [rebound, rebound, WrapLog.answer_concat hc, if_neg nofun]

/-- A call for a member, which is given the answer. -/
theorem member (hwrapper : wrapper.Harmless) (h : Logged wrapper w v log) {t : TypeId}
    {name : String} {m : Member} (ht : t.index < w.types.size)
    (hm : (w.type t).members.get? name = some m)
    (hs : .member t name m.callable ∉ log.sites) :
    let called := wrapper m.callable (w.memberName t name).text v
    Logged wrapper w (called.2.setMember t name { m with callable := called.1 })
      (log ++ [(.member t name m.callable, called.1)]) := by
  intro called
  have hlater := hwrapper.later m.callable (w.memberName t name).text v
  have hconsulted := h.consulted.call (.member t name m.callable)
  obtain ⟨callables, host, heq⟩ := hwrapper.world m.callable (w.memberName t name).text v
  have htype : ∀ s, called.2.type s = v.type s := by
    intro s
    show (wrapper m.callable (w.memberName t name).text v).2.type s = _
    rw [heq]
    rfl
  have hsize : called.2.types.size = w.types.size := by
    show (wrapper m.callable (w.memberName t name).text v).2.types.size = _
    rw [heq]
    exact h.types
  -- the type is written once, and only in this member
  have hset : ∀ s, (called.2.setMember t name { m with callable := called.1 }).type s =
      if s = t then { v.type t with
        members := (v.type t).members.insert name { m with callable := called.1 } }
      else v.type s := by
    intro s
    rw [setMember, type_putType, htype, htype]
  have hnames : name ∈ (v.type t).members.names := by
    rw [h.memberNames]
    exact Table.mem_names_of_get? hm
  have hform := called.2.sameForm_putType t
    { called.2.type t with
      members := (called.2.type t).members.insert name { m with callable := called.1 } } rfl rfl rfl
  have hput : called.2.Later (called.2.setMember t name { m with callable := called.1 }) :=
    hform.later (Nat.le_refl _) (Nat.le_refl _) (called.2.types.size_le_size_set _ _)
      (Nat.le_refl _)
  refine
    { later := (h.later.trans hlater).trans hput
      sameTypes := h.sameTypes.trans fun s => ?_
      types := ?_
      memberNames := fun s => ?_
      members := fun s other => ?_
      nodup := h.nodup_concat hs _
      consulted := hconsulted }
  · rw [hset]
    split
    · next hst =>
      rw [hst]
      exact ⟨_, rfl⟩
    · exact ⟨_, rfl⟩
  · -- the type is there, so no new one is made
    exact (called.2.types.size_set_of_lt (hsize.symm ▸ ht) _).trans hsize
  · rw [hset, ← h.memberNames]
    split
    · next hst =>
      rw [Table.names_insert, if_pos hnames, hst]
    · rfl
  · rw [hset]
    by_cases hsite : s = t ∧ other = name
    · obtain ⟨rfl, rfl⟩ := hsite
      rw [if_pos rfl, Table.get?_insert_self, hm, Option.map_some, rebound,
        WrapLog.answer_concat hs, if_pos rfl]
    · -- another member has kept the callable that it had
      have hread : (if s = t then { v.type t with
          members := (v.type t).members.insert name { m with callable := called.1 } }
          else v.type s).members.get? other = (v.type s).members.get? other := by
        split
        · next hst =>
          rw [Table.get?_insert, if_neg fun hother => hsite ⟨hst, hother⟩, hst]
        · rfl
      rw [hread, h.members]
      refine Option.map_congr fun m' _ => ?_
      rw [rebound, rebound, WrapLog.answer_concat hs, if_neg]
      intro hsame
      obtain ⟨rfl, rfl, -⟩ := WrapSite.member.inj hsame
      exact hsite ⟨rfl, rfl⟩

end Logged

/-! ### One definition after the other -/

section Definitions

variable {wrapper : Wrapper σ} {options : WrapOptions} {w v : World σ} {log : WrapLog}

/-- **Members** keep their names, their places and their bindings. -/
theorem Logged.entries_eq (h : Logged wrapper w v log) (t : TypeId) :
    (v.type t).members.entries =
      (w.type t).members.entries.map fun e => (e.1, rebound log t e.1 e.2) :=
  Table.entries_eq_map (h.memberNames t) fun name m hm => by rw [h.members, hm, Option.map_some]

/-- The selected members of a type that no call has come to are those that it had. -/
theorem Logged.selected_eq (h : Logged wrapper w v log) {t : TypeId}
    (hfresh : ∀ s ∈ w.sitesOf options (.type t), s ∉ log.sites) :
    (v.type t).members.entries.filter (options.includes ·.1) =
      (w.type t).members.entries.filter (options.includes ·.1) := by
  rw [h.entries_eq, List.filter_map]
  refine (List.map_congr_left fun e he => ?_).trans (List.map_id _)
  rw [rebound, WrapLog.answer_of_notMem (hfresh _ (List.mem_map.mpr ⟨e, he, rfl⟩))]
  rfl

variable (wrapper options) in
/-- Wrapping a member does not go through another type. -/
theorem types_wrapMembers (t : TypeId) (members : List (String × Member)) (p : WrapProgress)
    (w : World σ) :
    (members.foldl (fun (p, w) e => wrapMember (jobOf wrapper options) t e.1 e.2 p w)
      (p, w)).1.types = p.types := by
  induction members generalizing p w with
  | nil => rfl
  | cons e members ih =>
    rw [List.foldl_cons]
    exact ih _ _

variable (options) in
/-- **The members of a type**, one after the other. -/
theorem logged_wrapMembers (hwrapper : wrapper.Harmless) {t : TypeId} (ht : t.index < w.types.size)
    {ms : List (String × Member)} (hms : ∀ e ∈ ms, (w.type t).members.get? e.1 = some e.2)
    (hnames : (ms.map (·.1)).Nodup) (h : Logged wrapper w v log)
    (hfresh : ∀ e ∈ ms, .member t e.1 e.2.callable ∉ log.sites) (p : WrapProgress) :
    ∃ log', Logged wrapper w (ms.foldl
        (fun (p, w) e => wrapMember (jobOf wrapper options) t e.1 e.2 p w) (p, v)).2 log' ∧
      log'.sites = log.sites ++ ms.map (fun e => .member t e.1 e.2.callable) ∧
      (∀ c, log'.answer (.exported c) = log.answer (.exported c)) ∧
      (ms.foldl (fun (p, w) e => wrapMember (jobOf wrapper options) t e.1 e.2 p w)
        (p, v)).2.exports = v.exports := by
  induction ms generalizing v log p with
  | nil => exact ⟨log, h, (List.append_nil _).symm, fun _ => rfl, rfl⟩
  | cons e ms ih =>
    rw [List.forall_mem_cons] at hms hfresh
    rw [List.map_cons, List.nodup_cons] at hnames
    -- names are told in the world before, since types keep theirs
    have hname : v.memberName t e.1 = w.memberName t e.1 := by
      rw [memberName, h.sameTypes.typeName, memberName]
    let called := wrapper e.2.callable (w.memberName t e.1).text v
    have hmember : wrapMember (jobOf wrapper options) t e.1 e.2 p v =
        ({ p with events := p.events ++ [.wrapped (w.memberName t e.1).text] },
          called.2.setMember t e.1 { e.2 with callable := called.1 }) := by
      unfold wrapMember
      rw [hname]
      rfl
    have hrest : ∀ e' ∈ ms, .member t e'.1 e'.2.callable ∉
        WrapLog.sites (log ++ [(.member t e.1 e.2.callable, called.1)]) := by
      intro e' he'
      rw [WrapLog.sites_concat, List.mem_append, List.mem_singleton, not_or]
      -- the member that has just been wrapped has another name
      refine ⟨hfresh.2 e' he', fun heq => hnames.1 ?_⟩
      rw [← (WrapSite.member.inj heq).2.1]
      exact List.mem_map_of_mem he'
    have hexports : called.2.exports = v.exports := by
      obtain ⟨callables, host, heq⟩ :=
        hwrapper.world e.2.callable (w.memberName t e.1).text v
      show (wrapper e.2.callable (w.memberName t e.1).text v).2.exports = v.exports
      rw [heq]
      rfl
    -- the other members go on from the log with this answer
    obtain ⟨log', hlogged, hsites, hanswer, hkept⟩ :=
      ih hms.2 hnames.2 (h.member hwrapper ht hms.1 hfresh.1) hrest
        { p with events := p.events ++ [.wrapped (w.memberName t e.1).text] }
    rw [List.foldl_cons]
    show ∃ log', Logged wrapper w
      (ms.foldl _ (wrapMember (jobOf wrapper options) t e.1 e.2 p v)).2 log' ∧ _ ∧ _ ∧
        (ms.foldl _ (wrapMember (jobOf wrapper options) t e.1 e.2 p v)).2.exports = v.exports
    rw [hmember]
    refine ⟨log', hlogged, ?_, fun c => ?_, hkept.trans hexports⟩
    · rw [hsites, WrapLog.sites_concat, List.append_assoc]
      rfl
    · rw [hanswer, WrapLog.answer_concat hfresh.1, if_neg nofun]

/-- **What a wrap knows** when it has gone through the definitions `done` of a unit: what is in the
log beyond the sites `before`, and what it has to write to the table of the unit in the end. -/
structure Entered (w : World σ) (options : WrapOptions) (log : WrapLog) (before : List WrapSite)
    (done : List (String × Definition)) (p : WrapProgress) : Prop where
  sites : ∀ s, s ∈ log.sites ↔ s ∈ before ∨ ∃ e ∈ done, s ∈ w.sitesOf options e.2
  replaced : ∀ c c', p.replaced.lookup c = some c' ↔
    (∃ x, (x, .callable c) ∈ done) ∧ c' = log.answer (.exported c)
  types : ∀ t, t ∈ p.types ↔ ∃ x, (x, .type t) ∈ done
  updates : ∀ x a, p.updates.get? x = some a ↔
    ∃ c, (x, .callable c) ∈ done ∧ a = .callable (log.answer (.exported c))

namespace Entered

variable {before : List WrapSite} {done : List (String × Definition)} {p : WrapProgress}

/-- The site of a callable that the unit has not come to is not in the log. -/
theorem exported_notMem (h : Entered w options log before done p) {c : CallableId}
    (hbefore : .exported c ∉ before) (hnone : p.replaced.lookup c = none) :
    .exported c ∉ log.sites := by
  rw [h.sites]
  rintro (hmem | ⟨⟨x, d | t⟩, he, hsite⟩)
  · exact hbefore hmem
  · obtain rfl := WrapSite.exported.inj (List.mem_singleton.mp hsite)
    -- a callable that had been asked about would have been found among the replaced ones
    have hfound := (h.replaced c _).mpr ⟨⟨x, he⟩, rfl⟩
    rw [hnone] at hfound
    cases hfound
  · obtain ⟨m, -, hm⟩ := List.mem_map.mp hsite
    cases hm

/-- No member of a type that the unit has not come to is in the log. -/
theorem member_notMem (h : Entered w options log before done p) {t : TypeId} {name : String}
    {c : CallableId} (hbefore : .member t name c ∉ before) (ht : t ∉ p.types) :
    .member t name c ∉ log.sites := by
  rw [h.sites]
  rintro (hmem | ⟨⟨x, d | t'⟩, he, hsite⟩)
  · exact hbefore hmem
  · cases List.mem_singleton.mp hsite
  · obtain ⟨m, -, hm⟩ := List.mem_map.mp hsite
    obtain ⟨rfl, -, -⟩ := WrapSite.member.inj hm
    exact ht ((h.types _).mpr ⟨x, he⟩)

/-- A callable is entered under a name that is new. -/
theorem append_callable (h : Entered w options log before done p) {x : String} {c : CallableId}
    (hx : x ∉ done.map (·.1)) {log' : WrapLog} {p' : WrapProgress}
    (hsites : ∀ s, s ∈ log'.sites ↔ s ∈ log.sites ∨ s = .exported c)
    (hanswer : ∀ y d, (y, .callable d) ∈ done →
      log'.answer (.exported d) = log.answer (.exported d))
    (hreplaced : ∀ d d', p'.replaced.lookup d = some d' ↔
      (d = c ∧ d' = log'.answer (.exported c)) ∨ p.replaced.lookup d = some d')
    (htypes : p'.types = p.types)
    (hupdates : p'.updates = p.updates.insert x (.callable (log'.answer (.exported c)))) :
    Entered w options log' before (done ++ [(x, .callable c)]) p' := by
  have hmem : ∀ {y d}, (y, .callable d) ∈ done ++ [(x, .callable c)] ↔
      (y, .callable d) ∈ done ∨ y = x ∧ d = c := by
    intro y d
    rw [List.mem_append, List.mem_singleton, Prod.mk.injEq, Definition.callable.injEq]
  -- one case for each thing that the progress keeps: sites, callables, types and the table
  refine ⟨fun s => ?_, fun d d' => ?_, fun t => ?_, fun y a => ?_⟩
  · rw [hsites, h.sites, or_assoc]
    refine or_congr_right ?_
    simp [List.mem_append, or_and_right, exists_or, sitesOf]
  · rw [hreplaced, h.replaced]
    constructor
    · rintro (⟨rfl, rfl⟩ | ⟨⟨y, hy⟩, rfl⟩)
      · exact ⟨⟨x, hmem.mpr (.inr ⟨rfl, rfl⟩)⟩, rfl⟩
      · exact ⟨⟨y, hmem.mpr (.inl hy)⟩, (hanswer y d hy).symm⟩
    · rintro ⟨⟨y, hy⟩, rfl⟩
      rcases hmem.mp hy with hy | ⟨-, rfl⟩
      · exact .inr ⟨⟨y, hy⟩, hanswer y d hy⟩
      · exact .inl ⟨rfl, rfl⟩
  · rw [htypes, h.types]
    simp
  · rw [hupdates, Table.get?_insert]
    split
    · next hy =>
      subst hy
      constructor
      · intro ha
        exact ⟨c, hmem.mpr (.inr ⟨rfl, rfl⟩), (Option.some.inj ha).symm⟩
      · rintro ⟨d, hd, rfl⟩
        rcases hmem.mp hd with hd | ⟨-, rfl⟩
        · exact absurd (List.mem_map_of_mem hd) hx
        · rfl
    · next hy =>
      -- the slots under other names have been entered before
      rw [h.updates]
      refine exists_congr fun d => ?_
      rw [hmem, or_iff_left fun hc => hy hc.1]
      exact and_congr_right fun hd => by rw [hanswer y d hd]

/-- A type is gone through without a change to the table. -/
theorem append_type (h : Entered w options log before done p) {x : String} {t : TypeId}
    {log' : WrapLog} {p' : WrapProgress}
    (hsites : ∀ s, s ∈ log'.sites ↔ s ∈ log.sites ∨ s ∈ w.sitesOf options (.type t))
    (hanswer : ∀ c, log'.answer (.exported c) = log.answer (.exported c))
    (hreplaced : p'.replaced = p.replaced)
    (htypes : ∀ s, s ∈ p'.types ↔ s ∈ p.types ∨ s = t) (hupdates : p'.updates = p.updates) :
    Entered w options log' before (done ++ [(x, .type t)]) p' := by
  have hmem : ∀ y c, (y, .callable c) ∈ done ++ [(x, .type t)] ↔ (y, .callable c) ∈ done := by
    intro y c
    rw [List.mem_append, List.mem_singleton]
    exact or_iff_left fun hc => nomatch (Prod.mk.inj hc).2
  -- a type enters sites and itself; callables and table are left as they are
  refine ⟨fun s => ?_, fun c c' => ?_, fun s => ?_, fun y a => ?_⟩
  · rw [hsites, h.sites, or_assoc]
    refine or_congr_right ?_
    simp [List.mem_append, or_and_right, exists_or]
  · simp only [hreplaced, h.replaced, hmem, hanswer]
  · rw [htypes, h.types]
    simp [exists_or]
  · simp only [hupdates, h.updates, hmem, hanswer]

end Entered

/-- **A callable is wrapped.** If it has been met under another name, its answer is used again. -/
theorem entered_wrapCallable (hwrapper : wrapper.Harmless) {before : List WrapSite}
    {done : List (String × Definition)} {p : WrapProgress} (h : Entered w options log before done p)
    (hlog : Logged wrapper w v log) {x : String} {c : CallableId}
    (hc : w.hasDefinition (.callable c) = true) (hx : x ∉ done.map (·.1))
    (hbefore : .exported c ∉ before) :
    ∃ log', Logged wrapper w (wrapCallable (jobOf wrapper options) x c p v).2 log' ∧
      Entered w options log' before (done ++ [(x, .callable c)])
        (wrapCallable (jobOf wrapper options) x c p v).1 ∧
      (∀ c, .exported c ∈ log.sites → log'.answer (.exported c) = log.answer (.exported c)) ∧
      (wrapCallable (jobOf wrapper options) x c p v).2.exports = v.exports := by
  unfold wrapCallable
  cases hfound : p.replaced.lookup c with
  -- under another name this callable has been wrapped already, and nobody is asked again
  | some c' =>
    obtain ⟨⟨y, hy⟩, rfl⟩ := (h.replaced c c').mp hfound
    refine ⟨log, hlog, h.append_callable hx (fun s => ?_) (fun _ _ _ => rfl) (fun d d' => ?_) rfl
      rfl, fun _ _ => rfl, rfl⟩
    · refine (or_iff_left_of_imp fun hs => ?_).symm
      exact (h.sites s).mpr (.inr ⟨_, hy, List.mem_singleton.mpr hs⟩)
    · refine (or_iff_right_of_imp fun hd => ?_).symm
      rw [hd.1, hd.2]
      exact hfound
  | none =>
    -- it is met for the first time, so the wrapper is asked
    have hnew := h.exported_notMem hbefore hfound
    have hname : v.callableName c = w.callableName c := hlog.later.nameOf (.callable c) hc
    have hstep := hlog.exported hwrapper hnew
    simp only [hname]
    refine ⟨_, hstep, h.append_callable hx (fun s => ?_) (fun y d hd => ?_) (fun d d' => ?_) rfl
      ?_, fun d hd => ?_, ?_⟩
    · rw [WrapLog.sites_concat, List.mem_append, List.mem_singleton]
    · -- the others keep their answers, since their sites are others
      have hne : WrapSite.exported d ≠ .exported c := by
        intro heq
        rw [← heq] at hnew
        exact hnew ((h.sites _).mpr (.inr ⟨_, hd, List.mem_singleton_self _⟩))
      rw [WrapLog.answer_concat hnew, if_neg hne]
    · rw [WrapLog.answer_concat hnew, if_pos rfl, List.lookup_append, List.lookup_cons]
      by_cases hd : d = c
      · subst hd
        rw [hfound, beq_self_eq_true]
        simp [jobOf, eq_comm]
      · rw [beq_false_of_ne hd, List.lookup_nil, Option.or_none]
        simp [hd]
    · rw [WrapLog.answer_concat hnew, if_pos rfl]
      rfl
    · have hne : WrapSite.exported d ≠ .exported c := fun heq => hnew (heq ▸ hd)
      rw [WrapLog.answer_concat hnew, if_neg hne]
    · obtain ⟨callables, host, heq⟩ := hwrapper.world c (w.callableName c).text v
      show (wrapper c (w.callableName c).text v).2.exports = v.exports
      rw [heq]
      rfl

/-- **A type is wrapped** member by member, at the first of its names. -/
theorem entered_wrapType (hwrapper : wrapper.Harmless) {before : List WrapSite}
    {done : List (String × Definition)} {p : WrapProgress} (h : Entered w options log before done p)
    (hlog : Logged wrapper w v log) {x : String} {t : TypeId}
    (ht : w.hasDefinition (.type t) = true)
    (hbefore : ∀ s ∈ w.sitesOf options (.type t), s ∉ before) :
    ∃ log', Logged wrapper w (wrapType (jobOf wrapper options) t p v).2 log' ∧
      Entered w options log' before (done ++ [(x, .type t)])
        (wrapType (jobOf wrapper options) t p v).1 ∧
      (∀ c, .exported c ∈ log.sites → log'.answer (.exported c) = log.answer (.exported c)) ∧
      (wrapType (jobOf wrapper options) t p v).2.exports = v.exports := by
  unfold wrapType
  split
  · next hmet =>
    rw [List.contains_iff_mem] at hmet
    -- the type is exported twice, and its members are wrapped once
    obtain ⟨y, hy⟩ := (h.types t).mp hmet
    refine ⟨log, hlog, h.append_type (fun s => ?_) (fun _ => rfl) rfl (fun s => ?_) rfl,
      fun _ _ => rfl, rfl⟩
    · refine (or_iff_left_of_imp fun hs => ?_).symm
      exact (h.sites s).mpr (.inr ⟨_, hy, hs⟩)
    · refine (or_iff_left_of_imp fun hs => ?_).symm
      exact hs ▸ hmet
  · next hmet =>
    rw [List.contains_iff_mem] at hmet
    have hfresh : ∀ s ∈ w.sitesOf options (.type t), s ∉ log.sites := by
      intro s hs
      obtain ⟨m, -, rfl⟩ := List.mem_map.mp hs
      exact h.member_notMem (hbefore _ hs) hmet
    have hms : ∀ e ∈ (w.type t).members.entries.filter (options.includes ·.1),
        (w.type t).members.get? e.1 = some e.2 :=
      fun e he => (Table.get?_eq_some_iff _ _ _).mpr (List.mem_of_mem_filter he)
    have hnames : (((w.type t).members.entries.filter (options.includes ·.1)).map (·.1)).Nodup :=
      (w.type t).members.nodup.sublist (List.filter_sublist.map _)
    obtain ⟨log', hlogged, hsites, hanswer, hexports⟩ := logged_wrapMembers options hwrapper
      (of_decide_eq_true ht) hms hnames hlog
      (fun m hm => hfresh _ (List.mem_map.mpr ⟨m, hm, rfl⟩)) { p with types := p.types ++ [t] }
    have hprogress := progress_wrapMembers wrapper options t
      ((w.type t).members.entries.filter (options.includes ·.1))
      { p with types := p.types ++ [t] } v
    have htypes := types_wrapMembers wrapper options t
      ((w.type t).members.entries.filter (options.includes ·.1))
      { p with types := p.types ++ [t] } v
    -- so far no member of this type has been touched
    have hselected : (v.type t).members.entries.filter
        ((jobOf wrapper options).options.includes ·.1) =
          (w.type t).members.entries.filter (options.includes ·.1) := hlog.selected_eq hfresh
    rw [hselected]
    refine ⟨log', hlogged, h.append_type (fun s => ?_) hanswer hprogress.1 (fun s => ?_)
      hprogress.2, fun c _ => hanswer c, hexports⟩
    · rw [hsites, List.mem_append]
      rfl
    · rw [htypes, List.mem_append, List.mem_singleton]

/-- **One definition** is wrapped. Of what the log says about callables nothing is taken back. -/
theorem entered_wrapDefinition (hwrapper : wrapper.Harmless) {before : List WrapSite}
    {done : List (String × Definition)} {p : WrapProgress} (h : Entered w options log before done p)
    (hlog : Logged wrapper w v log) {e : String × Definition} (he : w.hasDefinition e.2 = true)
    (hx : e.1 ∉ done.map (·.1)) (hbefore : ∀ s ∈ w.sitesOf options e.2, s ∉ before) :
    ∃ log', Logged wrapper w (wrapDefinition (jobOf wrapper options) p v e).2 log' ∧
      Entered w options log' before (done ++ [e]) (wrapDefinition (jobOf wrapper options) p v e).1 ∧
      (∀ c, .exported c ∈ log.sites → log'.answer (.exported c) = log.answer (.exported c)) ∧
      (wrapDefinition (jobOf wrapper options) p v e).2.exports = v.exports := by
  obtain ⟨x, c | t⟩ := e
  · exact entered_wrapCallable hwrapper h hlog he hx (hbefore _ (List.mem_singleton_self _))
  · exact entered_wrapType hwrapper h hlog he hbefore

/-- **All definitions** of a unit are wrapped, one after the other. -/
theorem entered_wrapEach (hwrapper : wrapper.Harmless) {before : List WrapSite}
    {done defs : List (String × Definition)} {p : WrapProgress}
    (h : Entered w options log before done p) (hlog : Logged wrapper w v log)
    (hdefs : ∀ e ∈ defs, w.hasDefinition e.2 = true) (hnames : ((done ++ defs).map (·.1)).Nodup)
    (hbefore : ∀ e ∈ defs, ∀ s ∈ w.sitesOf options e.2, s ∉ before) :
    ∃ log', Logged wrapper w (wrapEach (jobOf wrapper options) defs p v).2 log' ∧
      Entered w options log' before (done ++ defs) (wrapEach (jobOf wrapper options) defs p v).1 ∧
      (∀ c, .exported c ∈ log.sites → log'.answer (.exported c) = log.answer (.exported c)) ∧
      (wrapEach (jobOf wrapper options) defs p v).2.exports = v.exports := by
  induction defs generalizing done p v log with
  | nil => exact ⟨log, hlog, (List.append_nil done).symm ▸ h, fun _ _ => rfl, rfl⟩
  | cons e defs ih =>
    rw [List.forall_mem_cons] at hdefs hbefore
    have hx : e.1 ∉ done.map (·.1) := by
      rw [List.map_append, List.map_cons, List.nodup_append] at hnames
      exact fun hc => hnames.2.2 e.1 hc e.1 List.mem_cons_self rfl
    -- the definition is wrapped while it and the others are pinned
    have hpin : Logged wrapper w (v.pin (keptIn (e :: defs))) log :=
      hlog.of_types (later_of_stores rfl rfl rfl (Nat.le_refl _)) rfl rfl
    obtain ⟨log₁, hlogged, hentered, hkept, hexports⟩ :=
      entered_wrapDefinition hwrapper h hpin hdefs.1 hx hbefore.1
    have hunpin : Logged wrapper w
        { (wrapDefinition (jobOf wrapper options) p (v.pin (keptIn (e :: defs))) e).2 with
          pins := v.pins } log₁ :=
      hlogged.of_types (later_of_stores rfl rfl rfl (Nat.le_refl _)) rfl rfl
    have hassoc : done ++ e :: defs = (done ++ [e]) ++ defs := by simp
    obtain ⟨log₂, hlogged', hentered', hkept', hexports'⟩ :=
      ih hentered hunpin hdefs.2 (hassoc ▸ hnames) hbefore.2
    rw [wrapEach_cons, hassoc]
    -- the answer of before is kept by the first definition, and then by the others
    refine ⟨log₂, hlogged', hentered', fun c hc => ?_, hexports'.trans hexports⟩
    have hc' : .exported c ∈ log₁.sites :=
      (hentered.sites _).mpr (((h.sites _).mp hc).imp_right fun ⟨a, ha, hs⟩ =>
        ⟨a, List.mem_append_left _ ha, hs⟩)
    rw [hkept' c hc', hkept c hc]

end Definitions

/-! ### Unit after unit -/

/-- A site belongs to one definition. -/
theorem definition_eq_of_site {w : World σ} {options : WrapOptions} {s : WrapSite}
    {d d' : Definition} (hs : s ∈ w.sitesOf options d) (hs' : s ∈ w.sitesOf options d') :
    d = d' := by
  -- a site names its callable or its type, so it tells of which definition it is one
  cases d with
  | callable c =>
    obtain rfl := List.mem_singleton.mp hs
    cases d' with
    | callable c' => exact congrArg _ (WrapSite.exported.inj (List.mem_singleton.mp hs'))
    | type t =>
      obtain ⟨m, -, hm⟩ := List.mem_map.mp hs'
      cases hm
  | type t =>
    obtain ⟨m, -, rfl⟩ := List.mem_map.mp hs
    cases d' with
    | callable c => cases List.mem_singleton.mp hs'
    | type t' =>
      obtain ⟨m', -, hm⟩ := List.mem_map.mp hs'
      exact congrArg _ (WrapSite.member.inj hm).1.symm

/-- **A table with a layer.** In `v` the unit `u` exports what the log has for a callable `c` where
it exported `c` as its own in `w`, and everything else as it did. -/
structure TableLayered (w v : World σ) (u : UnitId) (log : WrapLog) : Prop where
  names : (v.exports u).names = (w.exports u).names
  own : ∀ x c, (x, .callable c) ∈ w.ownExports u →
    v.export? u x = some (.callable (log.answer (.exported c)))
  other : ∀ x a, w.export? u x = some a →
    (∀ c, a = .callable c → (x, .callable c) ∉ w.ownExports u) → v.export? u x = some a

/-- **Layered.** The units `us` have been wrapped on the way from `w` to `v`: the log has each of
their sites, and no other one, and tables and members are as the log says. -/
structure Layered (wrapper : Wrapper σ) (options : WrapOptions) (w v : World σ) (us : List UnitId)
    (log : WrapLog) : Prop extends Logged wrapper w v log where
  sites : ∀ s, s ∈ log.sites ↔ ∃ u ∈ us, ∃ e ∈ w.ownExports u, s ∈ w.sitesOf options e.2
  tables : ∀ u ∈ us, w.TableLayered v u log
  others : ∀ u, u ∉ us → v.exports u = w.exports u

section Units

variable {wrapper : Wrapper σ} {options : WrapOptions} {w v : World σ} {log : WrapLog}
  {us : List UnitId}

/-- What a unit has to write makes a layer of its table. -/
theorem Entered.tableLayered {u : UnitId} {before : List WrapSite} {p : WrapProgress}
    (h : Entered w options log before (w.ownExports u) p) (hexports : v.exports u = w.exports u) :
    w.TableLayered (v.mergeExports u p.updates) u log := by
  have hread : ∀ x, (v.mergeExports u p.updates).export? u x =
      (p.updates.get? x).or (w.export? u x) := by
    intro x
    rw [mergeExports, export?, exports_replaceExports_self, Table.get?_merge, hexports, export?]
  refine ⟨?_, fun x c hc => ?_, fun x a hx hforeign => ?_⟩
  · rw [mergeExports, exports_replaceExports_self, hexports]
    -- only names of own callables are written
    refine Table.names_merge fun x hx => ?_
    obtain ⟨⟨x, a⟩, hentry, rfl⟩ := List.mem_map.mp hx
    obtain ⟨c, hc, -⟩ := (h.updates x a).mp ((Table.get?_eq_some_iff _ _ _).mpr hentry)
    exact Table.mem_names_of_get? (w.mem_ownExports.mp hc).1
  · rw [hread, (h.updates x _).mpr ⟨c, hc, rfl⟩, Option.some_or]
  · rw [hread, hx]
    cases hupdate : p.updates.get? x with
    | none => rfl
    | some b =>
      -- a name that is written holds an own callable
      obtain ⟨c, hc, -⟩ := (h.updates x b).mp hupdate
      have ha := (w.mem_ownExports.mp hc).1
      rw [hx, Option.some.injEq] at ha
      exact absurd hc (hforeign c ha)

/-- **One unit** is wrapped. -/
theorem Layered.wrapDefinitions (hwrapper : wrapper.Harmless) (hw : w.Sound)
    (h : Layered wrapper options w v us log) {u : UnitId}
    (hu : ∀ t ∈ us, (w.unit t).name ≠ (w.unit u).name) :
    ∃ log', Layered wrapper options w
      (v.wrapDefinitions (jobOf wrapper options) u (w.ownExports u)).1 (us ++ [u]) log' := by
  have hne : ∀ t ∈ us, t ≠ u := fun t ht heq => hu t ht (heq ▸ rfl)
  have hdefs : ∀ e ∈ w.ownExports u, w.hasDefinition e.2 = true :=
    fun e he => hw.exports u e.1 (.definition e.2) (w.mem_ownExports.mp he).1
  -- the progress of a unit is empty at its start, though the log is not
  have hstart : Entered w options log log.sites [] default :=
    { sites := fun s => (or_iff_left fun ⟨_, he, _⟩ => nomatch he).symm
      replaced := fun c c' => iff_of_false nofun fun ⟨⟨_, hc⟩, _⟩ => nomatch hc
      types := fun t => iff_of_false nofun fun ⟨_, hc⟩ => nomatch hc
      updates := fun x a => iff_of_false nofun fun ⟨_, hc, _⟩ => nomatch hc }
  -- what the unit owns no other one of the units does
  have hforeign : ∀ e ∈ w.ownExports u, ∀ s ∈ w.sitesOf options e.2, s ∉ log.sites := by
    intro e he s hs hmem
    obtain ⟨t, ht, e', he', hs'⟩ := (h.sites s).mp hmem
    have howner := (w.mem_ownExports.mp he).2
    rw [definition_eq_of_site hs hs'] at howner
    exact hu t ht ((w.mem_ownExports.mp he').2.symm.trans howner)
  obtain ⟨log', hlogged, hentered, hkept, hexports⟩ := entered_wrapEach hwrapper hstart h.toLogged
    hdefs (w.nodup_names_ownExports u) hforeign
  rw [List.nil_append] at hentered
  show ∃ log', Layered wrapper options w
    ((wrapEach (jobOf wrapper options) (w.ownExports u) default v).2.mergeExports u
      (wrapEach (jobOf wrapper options) (w.ownExports u) default v).1.updates) (us ++ [u]) log'
  generalize wrapEach (jobOf wrapper options) (w.ownExports u) default v = result
    at hlogged hentered hexports ⊢
  obtain ⟨p, v'⟩ := result
  have hother : ∀ t, t ≠ u → (v'.mergeExports u p.updates).exports t = v.exports t := by
    intro t ht
    rw [mergeExports, exports_replaceExports, if_neg ht, hexports]
  have hown : v'.exports u = w.exports u := by
    rw [hexports]
    exact h.others u fun hmem => hne u hmem rfl
  refine ⟨log',
    { hlogged.of_types (later_replaceExports _ _ _) rfl rfl with
      sites := fun s => ?_
      tables := fun t ht => ?_
      others := fun t ht => ?_ }⟩
  · rw [hentered.sites, h.sites]
    simp only [List.mem_append, List.mem_singleton, or_and_right, exists_or, exists_eq_left]
  · rcases List.mem_append.mp ht with ht | ht
    · obtain ⟨hnames, htable, hrest⟩ := h.tables t ht
      have hread : ∀ x, (v'.mergeExports u p.updates).export? t x = v.export? t x := by
        intro x
        rw [export?, hother t (hne t ht), export?]
      refine ⟨(congrArg _ (hother t (hne t ht))).trans hnames, fun x c hc => ?_,
        fun x a hx hforeign => (hread x).trans (hrest x a hx hforeign)⟩
      -- a unit of before has its sites in the log of before, and answers there are kept
      have hsite : .exported c ∈ log.sites :=
        (h.sites _).mpr ⟨t, ht, _, hc, List.mem_singleton_self _⟩
      rw [hread, htable x c hc, hkept c hsite]
    · obtain rfl := List.mem_singleton.mp ht
      exact hentered.tableLayered hown
  · rw [List.mem_append, List.mem_singleton, not_or] at ht
    exact (hother t ht.2).trans (h.others t ht.1)

end Units

end World

end HotReload
