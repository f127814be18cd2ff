import HotReload.Scenario.ReloadSteps

/-!
# Steps about sessions

A scenario can open a session by itself and go through the stages of a reload one at a time.
-/

namespace HotReload.Scenario

open Play

/-- A binding: its holder, the name of the slot, and what the slot held. -/
def bindingAnswer (w : World Stage) (b : ExternalBinding) : Answer :=
  .list [.value w (.unit b.holder), .text b.localName, .value w (.definition b.stale)]

/-- Journals an event in a session. -/
def logIn (i : SessionId) (unit : String) (e : Event) (w : World Stage) : World Stage :=
  let s := w.host.sessions.session i
  let s := { s with journal := s.journal.log unit e }
  { w with host := { w.host with sessions := w.host.sessions.put i s } }

/-- The workshop of a batch that is journaled in a session. -/
def sessionWorkshop (compile : Recompiler Stage) (r : RegistryId) (mode : InstallMode)
    (i : SessionId) : Workshop (World Stage) where
  compile u w := compile u r w
  install u table w := w.install mode u table
  note unit e w := logIn i unit e w

/-- Propagates units in a session and yields the counts. -/
def propagateIn (i : SessionId) (us : List UnitId) : Play Stats := do
  let s := (← stage).sessions.session i
  let (s, stats, w) := s.propagate us (← get)
  set w
  onSessions (·.put i s)
  return stats

namespace SessionStep

/-- Performs a step about sessions. -/
def perform (compile : Recompiler Stage) : SessionStep → Play Answer
  | start name us config listed => do
    let r := (← read).registry
    let us ← loadedUnits us
    let enumerator ← enumeratorOf r listed
    let s ← ofWorld .introspect fun w => Session.start w us r enumerator config
    onSessions (·.add name s)
    return .session (← get) s
  | info name => do
    let s ← sessionOf name
    return .session (← get) s
  | keys name unit => do
    let s ← sessionOf name
    return .list ((s.references.keysOwnedBy unit).map .qualifiedName)
  | holders name unit export' => do
    let s ← sessionOf name
    let w ← get
    return .list ((s.references.holders (.top unit export')).map (bindingAnswer w))
  | objects name t => do
    let s ← sessionOf name
    let t ← type t
    return .values (← get) ((s.objectsOf t).map .object)
  | old name unit => do
    let s ← sessionOf name
    let w ← get
    return .record
      [("exports", ((s.snapshot.exports? unit).map (.table w)).getD (.text "absent")),
       ("types", .values w ((s.snapshot.ownTypes w unit).map .type))]
  | stale name subject => do
    let s ← sessionOf name
    let d ← definition subject
    return .list [.bool (s.snapshot.isStale d), .bool (s.snapshot.isStale d)]
  | events name unit => do
    let s ← sessionOf name
    match unit with
    | none => return .entries s.journal.entries
    | some unit => return .entries (s.journal.entriesFor unit)
  | record name level unit e => do
    let i ← sessionNamed name
    let s := (← stage).sessions.session i
    let (seq, journal) := s.journal.record level unit e
    onSessions (·.put i { s with journal := journal })
    return .count seq
  | propagate name us => do
    let i ← sessionNamed name
    return .statsAndZero (← propagateIn i (← loadedUnits us))
  | drive name us config => do
    let i ← sessionNamed name
    inSession i do
      let us ← loadedUnits us
      let w ← get
      let shop := sessionWorkshop compile (← read).registry config.installMode i
      let (b, w) := Batch.run shop config.retryBudget (us.map fun u => (u, (w.unit u).name)) w
      set w
      return .record
        [("succeeded", .texts (b.succeeded.map (·.name))),
         ("failures", .list (b.failures.map .failure)),
         ("attempts", .count b.attempts.word.toNat)]
  | wrapUnit name u wrapper members => do
    let i ← sessionNamed name
    inSession i do
      let u ← unit u
      let wrapper ← readyWrapper wrapper
      let defs ← ofExcept .introspect ((← get).introspectOwn u)
      let unitName := ((← get).unit u).name
      let job : WrapJob Stage := ⟨wrapper.wrapper compile, optionsOf members, logIn i unitName⟩
      let (noted, names) ← collectingNames do
        let (w, noted) := (← get).wrapDefinitions job u defs
        set w
        return noted
      return .record [("count", .count noted.length), ("calls", .texts names)]
  | finish name us propagated failures => do
    let us ← loadedUnits us
    let propagated ← loadedUnits propagated
    let i ← sessionNamed name
    -- from here on the session is closed, whatever becomes of the step
    onSessions (·.close name)
    inSession i do
      let stats ← propagateIn i propagated
      let failures ← orBad failures
      -- a step around this one that works in the session cannot do without it
      ensure (!(← stage).sessions.isShared i)
      let w ← get
      let s := w.host.sessions.session i
      return .report (Reloader.report s (Reloader.namesOf w us) (failures.map Failure.inWord) stats)

end SessionStep

end HotReload.Scenario
