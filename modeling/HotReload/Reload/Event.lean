/-!
# Events

What a reload notes down about itself. Each kind of event has a level, and `Event.text` words it for
a reader.
-/

namespace HotReload

/-- How serious an event is. -/
inductive Level where
  | debug
  | info
  | warn
  | error
  deriving DecidableEq, Repr, Inhabited

/-- An **event** of a reload or a wrap. -/
inductive Event where
  /-- The recompiler is about to be called. -/
  | recompileStarted (attempt : Nat)
  /-- The new table has been installed. -/
  | recompiled (exports : Nat)
  /-- An attempt failed and the unit waits for another one. -/
  | recompileRetry (attempt : Nat) (detail : String)
  /-- The attempts are used up. -/
  | recompileFailed (attempts : Nat) (detail : String)
  /-- A unit could not be scanned for references. -/
  | unitSkipped (reason : String)
  /-- An export slot was given the new definition. -/
  | bindingRepointed (holder localName target : String)
  /-- A definition has no successor, and its holders keep it. -/
  | symbolRemoved (name : String) (holders : Nat)
  /-- A type has no successor. -/
  | typeRemoved (name : String)
  /-- An ancestor list was given the new type. -/
  | ancestorRepointed (subtype ancestor : String)
  /-- An object took on the new type. -/
  | objectRetargeted (type : String)
  /-- An object did not take on the new type. -/
  | retypeRejected (type reason : String)
  /-- A callable or a member was wrapped. -/
  | wrapped (name : String)
  deriving DecidableEq, Repr, Inhabited

namespace Event

/-- The level at which the engine notes the event. -/
def level : Event → Level
  | recompileStarted _ => .info
  | recompiled _ => .info
  | recompileRetry _ _ => .warn
  | recompileFailed _ _ => .error
  | unitSkipped _ => .warn
  | bindingRepointed _ _ _ => .debug
  | symbolRemoved _ _ => .warn
  | typeRemoved _ => .warn
  | ancestorRepointed _ _ => .debug
  | objectRetargeted _ => .debug
  | retypeRejected _ _ => .debug
  | wrapped _ => .debug

/-- True if the event reports a definition without successor. -/
def isSymbolRemoved : Event → Bool
  | symbolRemoved _ _ => true
  | _ => false

/-- The wording of an event. -/
def text : Event → String
  | recompileStarted attempt => "recompile attempt " ++ toString attempt
  | recompiled exports => "recompiled (" ++ toString exports ++ " exports)"
  | recompileRetry attempt detail =>
    "attempt " ++ toString attempt ++ " failed, will retry: " ++ detail
  | recompileFailed attempts detail =>
    "gave up after " ++ toString attempts ++ " attempt(s): " ++ detail
  | unitSkipped reason => "skipped during reference scan: " ++ reason
  | bindingRepointed holder localName target => holder ++ "." ++ localName ++ " -> " ++ target
  | symbolRemoved name holders =>
    name ++ " removed, " ++ toString holders ++ " holder(s) keep the old definition"
  | typeRemoved name => "type " ++ name ++ " removed"
  | ancestorRepointed subtype ancestor => subtype ++ " now derives from new " ++ ancestor
  | objectRetargeted type => "instance retargeted to new " ++ type
  | retypeRejected type reason => "instance of " ++ type ++ " not retargeted: " ++ reason
  | wrapped name => "wrapped " ++ name

end Event

end HotReload
