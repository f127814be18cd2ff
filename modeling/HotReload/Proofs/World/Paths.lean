import HotReload.Scenario.TwoUnits

/-!
# Dotted paths

A path is cut at its dots, and resolution goes from segment to segment. Cutting respects putting
paths together (`segments_append`), so resolution is compositional: a path that is continued
resolves to what the continuation makes of the value of the path (`Frame.resolve_append`). The other
laws of paths are instances of this. A continuation by a single segment is one step, and a
continuation from a unit is followed as a frame at home in that unit follows it.
-/

namespace HotReload

variable {σ : Type}

/-! ### Segments -/

/-- What is not a dot belongs to the first segment. -/
theorem segments_cons_of_ne {c : Char} (hc : c ≠ '.') {cs s : List Char} {ss : List (List Char)}
    (hcs : segments cs = s :: ss) : segments (c :: cs) = (c :: s) :: ss := by
  simp [segments, hcs]

/-- There is a first segment. -/
theorem exists_segments (cs : List Char) : ∃ s ss, segments cs = s :: ss := by
  induction cs with
  | nil => exact ⟨[], [], rfl⟩
  | cons c cs ih =>
    obtain ⟨s, ss, hcs⟩ := ih
    by_cases hc : c = '.'
    · subst hc
      exact ⟨[], segments cs, rfl⟩
    · exact ⟨c :: s, ss, segments_cons_of_ne hc hcs⟩

/-- **Paths are put together with a dot**, and their segments one after the other. -/
theorem segments_append (p r : List Char) :
    segments (p ++ '.' :: r) = segments p ++ segments r := by
  induction p with
  | nil => rfl
  | cons c cs ih =>
    -- a dot closes a segment; any other character is put before the first one
    by_cases hc : c = '.'
    · subst hc
      show [] :: segments (cs ++ '.' :: r) = [] :: (segments cs ++ segments r)
      rw [ih]
    · obtain ⟨s, ss, hcs⟩ := exists_segments cs
      rw [hcs, List.cons_append] at ih
      rw [segments_cons_of_ne hc hcs, List.cons_append]
      exact segments_cons_of_ne hc ih

/-- Between two dots there is an empty segment. -/
example : segments "b..f".toList = ["b".toList, [], "f".toList] := by
  decide

/-- A path without a dot is one segment. -/
theorem segments_of_notMem {cs : List Char} (h : '.' ∉ cs) : segments cs = [cs] := by
  induction cs with
  | nil => rfl
  | cons c cs ih =>
    rw [List.mem_cons, not_or] at h
    exact segments_cons_of_ne (Ne.symm h.1) (ih h.2)

namespace Frame

variable {w : World σ} {f : Frame}

/-! ### Resolution -/

/-- Follows segments from a value on. -/
def follow (w : World σ) (path : String) (v : Value) : Except CallError Value :=
  ((segments path.toList).map String.ofList).foldlM (step w) v

theorem follow_of_notMem {s : String} (hs : '.' ∉ s.toList) (v : Value) :
    follow w s v = step w v s := by
  rw [follow, segments_of_notMem hs, List.map_singleton, String.ofList_toList, List.foldlM_cons]
  exact bind_pure _

theorem resolve_of_segments {path first : String} {rest : List String}
    (h : (segments path.toList).map String.ofList = first :: rest) :
    f.resolve w path = f.global w first >>= rest.foldlM (step w) := by
  rw [resolve, h]

/-- **Resolution is compositional.** -/
theorem resolve_append (p r : String) :
    f.resolve w (p ++ "." ++ r) = f.resolve w p >>= follow w r := by
  obtain ⟨s, ss, hp⟩ := exists_segments p.toList
  have hdot : (p ++ "." ++ r).toList = p.toList ++ '.' :: r.toList := by
    rw [String.toList_append, String.toList_append, List.append_assoc]
    rfl
  have hpath : (segments (p ++ "." ++ r).toList).map String.ofList =
      .ofList s :: (ss.map String.ofList ++ (segments r.toList).map String.ofList) := by
    rw [hdot, segments_append, hp, List.map_append]
    rfl
  have hfirst : (segments p.toList).map String.ofList = .ofList s :: ss.map String.ofList := by
    rw [hp, List.map_cons]
  -- the first segment is a global in either path, the other ones are stepped to
  rw [resolve_of_segments hpath, resolve_of_segments hfirst, bind_assoc]
  exact bind_congr fun v => List.foldlM_append

/-- A path without a dot is a global. -/
theorem resolve_of_notMem {path : String} (h : '.' ∉ path.toList) :
    f.resolve w path = f.global w path := by
  have hpath : (segments path.toList).map String.ofList = [path] := by
    rw [segments_of_notMem h, List.map_singleton, String.ofList_toList]
  rw [resolve_of_segments hpath]
  exact bind_pure _

/-- From a unit on, a path is followed as a frame at home there follows it. -/
theorem follow_unit (f : Frame) (u : UnitId) (path : String) :
    follow w path (.unit u) = { f with home := some u }.resolve w path := by
  obtain ⟨s, ss, hpath⟩ := exists_segments path.toList
  have hfirst : (segments path.toList).map String.ofList = .ofList s :: ss.map String.ofList := by
    rw [hpath, List.map_cons]
  rw [resolve_of_segments hfirst, follow, hfirst, List.foldlM_cons]
  rfl

/-- **Paths are resolved step by step.** In every world and every frame,

* a path continued by one segment fails as the path does, if that fails. Otherwise it gives, from
  the value of the path, the export of this name if that is a unit, and the callable of the member
  of this name if it is a type; where there is none, the error names the unit or type and the
  segment. No other value has anything to step to;
* a path without a dot is the global of that name;
* a path that has come to a unit goes on, however long it is, like a path of a frame at home there;
* so it finds what has been written to the unit last. -/
theorem resolve_stepwise (w : World σ) (f : Frame) (path : String) :
    (∀ s : String, '.' ∉ s.toList →
      f.resolve w (path ++ "." ++ s) =
        match f.resolve w path with
        | .error e => .error e
        | .ok (.unit u) =>
          match w.export? u s with
          | some v => .ok v
          | none => .error (.undefinedGlobal (w.unit u).name s)
        | .ok (.type t) =>
          match w.resolve? t s with
          | some m => .ok (.callable m.callable)
          | none => .error (.noSuchMember (w.typeName t).text s)
        | .ok v => .error (.typeMismatch "unit or type" v.kind)) ∧
    ('.' ∉ path.toList → f.resolve w path = f.global w path) ∧
    (∀ u rest, f.resolve w path = .ok (.unit u) →
      f.resolve w (path ++ "." ++ rest) = { f with home := some u }.resolve w rest) ∧
    ∀ u s v, '.' ∉ s.toList → f.resolve (w.setExport u s v) path = .ok (.unit u) →
      f.resolve (w.setExport u s v) (path ++ "." ++ s) = .ok v := by
  refine ⟨fun s hs => ?_, resolve_of_notMem, fun u rest hpath => ?_, fun u s v hs hpath => ?_⟩
  · rw [resolve_append]
    cases f.resolve w path with
    | error e => rfl
    | ok v =>
      refine (follow_of_notMem hs v).trans ?_
      -- a step looks at units and types, and definitions that are not types are callables
      match v with
      | .unit u => rfl
      | .definition (.type t) => rfl
      | .definition (.callable c) => rfl
      | .nil | .bool _ | .int _ | .str _ | .object _ => rfl
  · -- from a unit on, what is left is resolved as if that unit were at home
    rw [resolve_append, hpath]
    exact follow_unit f u rest
  · rw [resolve_append, hpath]
    refine (follow_of_notMem hs _).trans ?_
    -- a slot that has just been written is read
    have hread : (w.setExport u s v).export? u s = some v := by
      rw [World.export?_setExport, if_pos ⟨rfl, rfl⟩]
    rw [step, hread]

section Example

open Scenario.TwoUnits

/-- A frame of a function of `a`. -/
def importing : Frame := ⟨⟨2⟩, some opening.host.a, []⟩

/-- The method of `C` is reached from a body of `a`, by one more step from the type and by the rest
of the path from the unit, which is the global `b`. An export of `b` that has just been written is
seen. -/
theorem resolve_stepwise_importing :
    importing.resolve opening "b" = importing.global opening "b" ∧
      importing.resolve opening "b.C" = .ok (.type ⟨0⟩) ∧
      importing.resolve opening ("b.C" ++ "." ++ "m") = .ok (.callable ⟨1⟩) ∧
      importing.resolve opening ("b" ++ "." ++ "C.m") = .ok (.callable ⟨1⟩) ∧
      importing.resolve (opening.setExport opening.host.b "C" (.int 1)) ("b" ++ "." ++ "C") =
        .ok (.int 1) := by
  obtain ⟨hstep, -, -, -⟩ := resolve_stepwise opening importing "b.C"
  obtain ⟨-, hglobal, hunit, hwrite⟩ := resolve_stepwise opening importing "b"
  have htype : importing.resolve opening "b.C" = .ok (.type ⟨0⟩) := by rfl
  have hmember : opening.resolve? ⟨0⟩ "m" = some ⟨⟨1⟩, .onObject⟩ := by decide +kernel
  refine ⟨hglobal (by decide), htype, ?member, ?rest,
    hwrite opening.host.b "C" (.int 1) (by decide) (by rfl)⟩
  case member =>
    rw [hstep "m" (by decide), htype]
    simp only [hmember]
  case rest =>
    rw [hunit opening.host.b "C.m" (by rfl)]
    rfl

end Example

end Frame

end HotReload
