import HotReload.Proofs.World.Reachability
import Mathlib.Data.Set.Card
import Mathlib.Logic.Relation

/-!
# Depth-first preorder

The **preorder** of a graph lists a node before its successors, the successors from left to right,
and each node at its first visit (`DepthFirst.Preorder`). If only finitely many nodes have
successors there is exactly one such order from every node, and it lists what can be reached, cycles
or not (`DepthFirst.exists_preorder`, `DepthFirst.Preorder.mem_iff`).

Three ways to look for an answer are compared with it. `DepthFirst.first?` keeps a list of pending
nodes. The recursion that hands a record of visited nodes from one sibling to the next
(`DepthFirst.Finds`) and the recursion without a record (`DepthFirst.PlainlyFinds`) are given as
relations, so that to have a result is to end. The first two always find the first answer in
preorder. The third does so where no cycle can be reached: there a node that is met again has been
finished, and all it leads to has been asked in vain.
-/

namespace HotReload

namespace DepthFirst

variable {α β : Type}

/-! ### The three searches -/

section Relations

/-- **Preorder.** Going through the pending nodes from left to right, where `seen` has been visited
before, visits the nodes of `order` for the first time, one after the other. -/
inductive Preorder (next : α → List α) : Set α → List α → List α → Prop
  | nil {seen : Set α} : Preorder next seen [] []
  | skip {seen : Set α} {a : α} {rest order : List α} (hseen : a ∈ seen)
      (hrest : Preorder next seen rest order) : Preorder next seen (a :: rest) order
  | visit {seen : Set α} {a : α} {rest below after : List α} (hseen : a ∉ seen)
      (hbelow : Preorder next (insert a seen) (next a) below)
      (hrest : Preorder next (insert a seen ∪ {b | b ∈ below}) rest after) :
      Preorder next seen (a :: rest) (a :: (below ++ after))

/-- **The recursion with a record.** Asking the pending nodes one after the other, and the
successors of each after itself, ends with a result. A node on the record is passed over, every
other one is entered; the record at the end is the last argument. -/
inductive Finds (next : α → List α) (answer : α → Option β) :
    Set α → List α → Option β → Set α → Prop
  | nil {seen : Set α} : Finds next answer seen [] none seen
  | skip {seen seen' : Set α} {a : α} {rest : List α} {r : Option β} (hseen : a ∈ seen)
      (hrest : Finds next answer seen rest r seen') : Finds next answer seen (a :: rest) r seen'
  | own {seen : Set α} {a : α} {rest : List α} {b : β} (hseen : a ∉ seen) (ha : answer a = some b) :
      Finds next answer seen (a :: rest) (some b) (insert a seen)
  | deeper {seen seen' : Set α} {a : α} {rest : List α} {b : β} (hseen : a ∉ seen)
      (ha : answer a = none) (hbelow : Finds next answer (insert a seen) (next a) (some b) seen') :
      Finds next answer seen (a :: rest) (some b) seen'
  | pass {seen seen₁ seen₂ : Set α} {a : α} {rest : List α} {r : Option β} (hseen : a ∉ seen)
      (ha : answer a = none) (hbelow : Finds next answer (insert a seen) (next a) none seen₁)
      (hrest : Finds next answer seen₁ rest r seen₂) : Finds next answer seen (a :: rest) r seen₂

/-- **The recursion without a record** ends with a result. -/
inductive PlainlyFinds (next : α → List α) (answer : α → Option β) : List α → Option β → Prop
  | nil : PlainlyFinds next answer [] none
  | own {a : α} {rest : List α} {b : β} (ha : answer a = some b) :
      PlainlyFinds next answer (a :: rest) (some b)
  | deeper {a : α} {rest : List α} {b : β} (ha : answer a = none)
      (hbelow : PlainlyFinds next answer (next a) (some b)) :
      PlainlyFinds next answer (a :: rest) (some b)
  | pass {a : α} {rest : List α} {r : Option β} (ha : answer a = none)
      (hbelow : PlainlyFinds next answer (next a) none)
      (hrest : PlainlyFinds next answer rest r) : PlainlyFinds next answer (a :: rest) r

end Relations

/-! ### The preorder -/

section Order

variable {next : α → List α} {seen : Set α} {pending order : List α}

/-- One node lists another one as a successor. -/
def Step (next : α → List α) (a b : α) : Prop := b ∈ next a

/-- There is at most one preorder. -/
theorem Preorder.unique {order' : List α} (h : Preorder next seen pending order)
    (h' : Preorder next seen pending order') : order = order' := by
  -- whether the first one pending is seen decides the constructor
  induction h generalizing order' with
  | nil => cases h'; rfl
  | skip hseen _ ih =>
    cases h' with
    | skip _ hrest => exact ih hrest
    | visit hnot => exact absurd hseen hnot
  | visit hnot _ _ ihbelow ihrest =>
    cases h' with
    | skip hseen => exact absurd hseen hnot
    | visit _ hbelow hrest =>
      obtain rfl := ihbelow hbelow
      rw [ihrest hrest]

/-- What has been seen is not listed again. -/
theorem Preorder.not_mem_of_seen (h : Preorder next seen pending order) {a : α} (ha : a ∈ seen) :
    a ∉ order := by
  induction h with
  | nil => exact List.not_mem_nil
  | skip _ _ ih => exact ih ha
  | visit hnot _ _ ihbelow ihrest =>
    intro hmem
    rcases List.mem_cons.mp hmem with rfl | hmem
    · exact hnot ha
    · -- what is seen stays seen below and after
      rcases List.mem_append.mp hmem with hmem | hmem
      · exact ihbelow (.inr ha) hmem
      · exact ihrest (.inl (.inr ha)) hmem

/-- No node is listed twice. -/
theorem Preorder.nodup (h : Preorder next seen pending order) : order.Nodup := by
  induction h with
  | nil => exact List.nodup_nil
  | skip _ _ ih => exact ih
  | visit _ hbelow hrest ihbelow ihrest =>
    refine List.nodup_cons.mpr ⟨fun hmem => ?_, ihbelow.append ihrest fun b hb hb' => ?_⟩
    · rcases List.mem_append.mp hmem with hmem | hmem
      · exact hbelow.not_mem_of_seen (.inl rfl) hmem
      · exact hrest.not_mem_of_seen (.inl (.inl rfl)) hmem
    · exact hrest.not_mem_of_seen (.inr hb) hb'

/-- What is listed can be reached from a pending node. -/
theorem Preorder.reached_of_mem (h : Preorder next seen pending order) {b : α} (hb : b ∈ order) :
    ∃ a ∈ pending, Relation.ReflTransGen (Step next) a b := by
  induction h with
  | nil => cases hb
  | skip _ _ ih =>
    obtain ⟨a, ha, hpath⟩ := ih hb
    exact ⟨a, List.mem_cons_of_mem _ ha, hpath⟩
  | @visit _ c _ _ _ _ _ _ ihbelow ihrest =>
    rcases List.mem_cons.mp hb with rfl | hb
    · exact ⟨b, List.mem_cons_self, .refl⟩
    · rcases List.mem_append.mp hb with hb | hb
      · -- a path from a successor is extended by the step to it
        obtain ⟨a, ha, hpath⟩ := ihbelow hb
        exact ⟨c, List.mem_cons_self, .head ha hpath⟩
      · obtain ⟨a, ha, hpath⟩ := ihrest hb
        exact ⟨a, List.mem_cons_of_mem _ ha, hpath⟩

/-- A pending node has been seen or is listed. -/
theorem Preorder.seen_or_mem (h : Preorder next seen pending order) {a : α} (ha : a ∈ pending) :
    a ∈ seen ∨ a ∈ order := by
  induction h with
  | nil => cases ha
  | skip hseen _ ih =>
    rcases List.mem_cons.mp ha with rfl | ha
    · exact .inl hseen
    · exact ih ha
  | visit _ _ _ _ ihrest =>
    rw [List.mem_cons, List.mem_append]
    rcases List.mem_cons.mp ha with rfl | ha
    · exact .inr (.inl rfl)
    · -- seen by the rest means seen before, the node itself, or below it
      rcases ihrest ha with ((rfl | hseen) | hbelow) | hafter
      · exact .inr (.inl rfl)
      · exact .inl hseen
      · exact .inr (.inr (.inl hbelow))
      · exact .inr (.inr (.inr hafter))

/-- A successor of a listed node has been seen or is listed. -/
theorem Preorder.closed (h : Preorder next seen pending order) {a b : α} (ha : a ∈ order)
    (hb : b ∈ next a) : b ∈ seen ∨ b ∈ order := by
  induction h with
  | nil => cases ha
  | skip _ _ ih => exact ih ha
  | @visit seen c rest below after _ hbelow _ ihbelow ihrest =>
    -- what the part below leaves as seen has been seen or is in the order
    have hmove : ∀ x, x ∈ insert c seen ∨ x ∈ below → x ∈ seen ∨ x ∈ c :: (below ++ after) := by
      rintro x ((rfl | hx) | hx)
      · exact .inr List.mem_cons_self
      · exact .inl hx
      · exact .inr (List.mem_cons_of_mem _ (List.mem_append_left _ hx))
    rcases List.mem_cons.mp ha with rfl | ha
    · exact hmove b (hbelow.seen_or_mem hb)
    · rcases List.mem_append.mp ha with ha | ha
      · exact hmove b (ihbelow ha)
      · rcases ihrest ha with hseen | hafter
        · exact hmove b hseen
        · exact .inr (List.mem_cons_of_mem _ (List.mem_append_right _ hafter))

/-- **The preorder lists what can be reached.** -/
theorem Preorder.mem_iff {a : α} (h : Preorder next ∅ [a] order) (b : α) :
    b ∈ order ↔ Relation.ReflTransGen (Step next) a b := by
  refine ⟨fun hb => ?_, fun hpath => ?_⟩
  · obtain ⟨c, hc, hpath⟩ := h.reached_of_mem hb
    rwa [List.mem_singleton.mp hc] at hpath
  · induction hpath with
    | refl => exact (h.seen_or_mem List.mem_cons_self).resolve_left (Set.notMem_empty a)
    | tail _ hstep ih => exact (h.closed ih hstep).resolve_left (Set.notMem_empty _)

/-- Two lists of pending nodes are gone through one after the other. -/
theorem Preorder.append {more order' : List α} (h : Preorder next seen pending order)
    (h' : Preorder next (seen ∪ {b | b ∈ order}) more order') :
    Preorder next seen (pending ++ more) (order ++ order') := by
  induction h with
  | nil => simpa using h'
  | skip hseen _ ih => exact .skip hseen (ih h')
  | @visit seen a rest below after hnot hbelow _ _ ihrest =>
    -- the order of the rest is followed by the second one, with the same nodes seen
    have hrest := ihrest (by
      convert h' using 1
      ext b
      simp only [Set.mem_union, Set.mem_insert_iff, Set.mem_ofPred_eq, List.mem_cons,
        List.mem_append]
      tauto)
    rw [List.cons_append, List.cons_append, List.append_assoc]
    exact .visit hnot hbelow hrest

/-- **There is a preorder** if only finitely many nodes have successors. -/
theorem exists_preorder {nodes : Set α} (hfinite : nodes.Finite)
    (hnodes : ∀ a, a ∉ nodes → next a = []) (seen : Set α) (pending : List α) :
    ∃ order, Preorder next seen pending order := by
  -- the outer induction is on the nodes with successors that are still to be visited
  induction hn : (nodes \ seen).ncard using Nat.strong_induction_on generalizing seen pending with
  | _ n ih =>
  have hle : (nodes \ seen).ncard ≤ n := hn.le
  clear hn
  induction pending generalizing seen with
  | nil => exact ⟨[], .nil⟩
  | cons a rest ihrest =>
    by_cases hseen : a ∈ seen
    · obtain ⟨order, hrest⟩ := ihrest seen hle
      exact ⟨order, .skip hseen hrest⟩
    · have hbelow : ∃ below, Preorder next (insert a seen) (next a) below := by
        by_cases ha : a ∈ nodes
        · have hless : (nodes \ insert a seen).ncard < (nodes \ seen).ncard := by
            refine Set.ncard_lt_ncard ?_ hfinite.sdiff
            refine ⟨Set.sdiff_subset_sdiff_right (Set.subset_insert a seen), fun hsub => ?_⟩
            exact (hsub ⟨ha, hseen⟩).2 (Set.mem_insert a seen)
          exact ih _ (lt_of_lt_of_le hless hle) _ _ rfl
        · rw [hnodes a ha]
          exact ⟨[], .nil⟩
      obtain ⟨below, hbelow⟩ := hbelow
      have hmore : (nodes \ (insert a seen ∪ {b | b ∈ below})).ncard ≤ n := by
        refine (Set.ncard_le_ncard (Set.sdiff_subset_sdiff_right ?_) hfinite.sdiff).trans hle
        exact (Set.subset_insert a seen).trans Set.subset_union_left
      obtain ⟨after, hrest⟩ := ihrest _ hmore
      exact ⟨a :: (below ++ after), .visit hseen hbelow hrest⟩

end Order

/-! ### The first answer -/

section Answers

variable {next : α → List α} {answer : α → Option β} {seen : Set α} {pending order : List α}

/-- **The recursion with a record ends** at the first answer in preorder. A search in vain leaves
the whole preorder on the record. -/
theorem Preorder.finds (h : Preorder next seen pending order) (answer : α → Option β) :
    ∃ seen', Finds next answer seen pending (order.findSome? answer) seen' ∧
      (order.findSome? answer = none → seen' = seen ∪ {b | b ∈ order}) := by
  induction h with
  | nil => exact ⟨_, .nil, fun _ => by simp⟩
  | skip hseen _ ih =>
    obtain ⟨seen', hfinds, hrecord⟩ := ih
    exact ⟨seen', .skip hseen hfinds, hrecord⟩
  | @visit seen a rest below after hnot _ _ ihbelow ihrest =>
    rw [List.findSome?_cons, List.findSome?_append]
    match ha : answer a with
    | some b => exact ⟨_, .own hnot ha, nofun⟩
    | none =>
      obtain ⟨seen₁, hbelow, hrecord₁⟩ := ihbelow
      match hr : below.findSome? answer with
      | some b =>
        rw [hr] at hbelow
        exact ⟨seen₁, .deeper hnot ha hbelow, nofun⟩
      | none =>
        obtain ⟨seen₂, hrest, hrecord₂⟩ := ihrest
        rw [hr] at hbelow
        rw [← hrecord₁ hr] at hrest hrecord₂
        refine ⟨seen₂, .pass hnot ha hbelow hrest, fun hnone => ?_⟩
        rw [hrecord₂ hnone, hrecord₁ hr]
        ext b
        simp only [Set.mem_union, Set.mem_insert_iff, Set.mem_ofPred_eq, List.mem_cons,
          List.mem_append]
        tauto

/-- The recursion with a record has one result. -/
theorem Finds.unique {r r' : Option β} {seen₁ seen₂ : Set α}
    (h : Finds next answer seen pending r seen₁) (h' : Finds next answer seen pending r' seen₂) :
    r = r' ∧ seen₁ = seen₂ := by
  induction h generalizing r' seen₂ with
  | nil => cases h'; exact ⟨rfl, rfl⟩
  | skip hseen _ ih =>
    cases h' with
    | skip _ hrest => exact ih hrest
    | own hnot | deeper hnot | pass hnot => exact absurd hseen hnot
  | own hnot ha =>
    cases h' with
    | skip hseen => exact absurd hseen hnot
    | own _ ha' => exact ⟨ha.symm.trans ha', rfl⟩
    | deeper _ ha' | pass _ ha' => cases ha.symm.trans ha'
  | deeper hnot ha _ ih =>
    cases h' with
    | skip hseen => exact absurd hseen hnot
    | own _ ha' => cases ha.symm.trans ha'
    | deeper _ _ hbelow => exact ih hbelow
    | pass _ _ hbelow => cases (ih hbelow).1
  | pass hnot ha _ _ ihbelow ihrest =>
    cases h' with
    | skip hseen => exact absurd hseen hnot
    | own _ ha' => cases ha.symm.trans ha'
    | deeper _ _ hbelow => cases (ihbelow hbelow).1
    | pass _ _ hbelow hrest =>
      obtain ⟨-, rfl⟩ := ihbelow hbelow
      exact ihrest hrest

/-- **The search with a list of pending nodes** finds the first answer in preorder, given as many
visits as there are known nodes. The two records may differ in nodes that are not known. -/
theorem Preorder.first?_eq [Numbered α] {known : α → Bool} {nodes : List α}
    (h : Preorder next seen pending order) (hnodes : ∀ a, known a = true → a ∈ nodes)
    (hknown : ∀ a, known a = false → next a = [] ∧ answer a = none) (bound : Nat)
    {visited : NumberedSet α} (hbound : unseen visited nodes ≤ bound)
    (hvisited : ∀ a, known a = true → (visited.contains a = true ↔ a ∈ seen)) :
    first? next known answer bound visited pending = order.findSome? answer := by
  induction bound generalizing visited seen pending order with
  | zero =>
    -- no known node is left to be visited
    refine (List.findSome?_eq_none_iff.mpr fun a ha => ?_).symm
    by_contra hanswer
    have hknows : known a = true := by
      by_contra hnot
      exact hanswer (hknown a (Bool.eq_false_iff.mpr hnot)).2
    have hzero := List.countP_eq_zero.mp (Nat.le_zero.mp hbound) a (hnodes a hknows)
    exact h.not_mem_of_seen ((hvisited a hknows).mp (by simpa using hzero)) ha
  | succ bound ih =>
    induction pending generalizing seen order with
    | nil => cases h; rfl
    | cons a rest ihrest =>
      by_cases hpassed : (!known a || visited.contains a) = true
      · -- a node that is passed over makes no difference
        have hskip : DepthFirst.skip known visited (a :: rest) =
            DepthFirst.skip known visited rest := List.dropWhile_cons_of_pos hpassed
        have hfirst : first? next known answer (bound + 1) visited (a :: rest) =
            first? next known answer (bound + 1) visited rest := by rw [first?, first?, hskip]
        rw [hfirst]
        cases h with
        | skip _ hrest => exact ihrest hrest hvisited
        | @visit _ _ _ below after hnot hbelow hrest =>
          have hunknown : known a = false := by
            by_contra hknows
            rw [Bool.not_eq_false] at hknows
            exact hnot ((hvisited a hknows).mp (by simpa [hknows] using hpassed))
          obtain ⟨hnone, hanswer⟩ := hknown a hunknown
          rw [hnone] at hbelow
          cases hbelow
          rw [List.findSome?_cons, hanswer, List.nil_append]
          refine ihrest hrest fun b hb => (hvisited b hb).trans ?_
          have hne : b ≠ a := by
            rintro rfl
            rw [hb] at hunknown
            cases hunknown
          simp [hne]
      · obtain ⟨hknows, hunvisited⟩ : known a = true ∧ visited.contains a = false := by
          simpa using hpassed
        have hnot : a ∉ seen := fun hseen => by
          rw [(hvisited a hknows).mpr hseen] at hunvisited
          cases hunvisited
        cases h with
        | skip hseen => exact absurd hseen hnot
        | @visit _ _ _ below after _ hbelow hrest =>
          have hskip : DepthFirst.skip known visited (a :: rest) = a :: rest :=
            List.dropWhile_cons_of_neg hpassed
          rw [first?, hskip, List.findSome?_cons]
          cases hanswer : answer a with
          | some b => simp only [hanswer]
          | none =>
            simp only [hanswer]
            have hfewer := unseen_insert_lt (hnodes a hknows) hunvisited
            refine ih (hbelow.append hrest) (Nat.le_of_lt_succ (lt_of_lt_of_le hfewer hbound))
              fun b hb => ?_
            rw [visited.contains_insert, hvisited b hb]
            rfl

/-! ### The recursion without a record -/

/-- An answer of the plain recursion is the answer of a node that can be reached. -/
theorem PlainlyFinds.reached {b : β} (h : PlainlyFinds next answer pending (some b)) :
    ∃ a ∈ pending, ∃ c, Relation.ReflTransGen (Step next) a c ∧ answer c = some b := by
  generalize hr : some b = r at h
  induction h with
  | nil => cases hr
  | @own a _ _ ha =>
    obtain rfl := Option.some.inj hr
    exact ⟨a, List.mem_cons_self, a, .refl, ha⟩
  | @deeper a _ _ _ _ ih =>
    obtain ⟨a', ha', c, hpath, hc⟩ := ih hr
    exact ⟨a, List.mem_cons_self, c, .head ha' hpath, hc⟩
  | pass _ _ _ _ ih =>
    obtain ⟨a', ha', hc⟩ := ih hr
    exact ⟨a', List.mem_cons_of_mem _ ha', hc⟩

/-- A node is **barren** if nothing that can be reached from it has an answer. -/
def Barren (next : α → List α) (answer : α → Option β) (a : α) : Prop :=
  ∀ b, Relation.ReflTransGen (Step next) a b → answer b = none

/-- A search in vain leaves only barren nodes, if those it passes over are barren. -/
theorem Preorder.barren (h : Preorder next seen pending order)
    (hvain : order.findSome? answer = none) {a : α} (ha : a ∈ pending)
    (hseen : ∀ b ∈ seen, Relation.ReflTransGen (Step next) a b → Barren next answer b) :
    Barren next answer a := by
  have hfound : ∀ b, b ∈ order → answer b = none := List.findSome?_eq_none_iff.mp hvain
  have hall : ∀ b, Relation.ReflTransGen (Step next) a b → b ∈ order ∨ Barren next answer b := by
    intro b hpath
    -- along a path one stays in the order until one meets what was seen before
    induction hpath with
    | refl => exact (h.seen_or_mem ha).symm.imp_right fun hs => hseen a hs .refl
    | @tail b c hpath hstep ih =>
      rcases ih with hb | hb
      · exact (h.closed hb hstep).symm.imp_right fun hs => hseen c hs (hpath.tail hstep)
      · exact .inr fun d hd => hb d (.head hstep hd)
  exact fun b hpath => (hall b hpath).elim (hfound b) fun hb => hb b .refl

/-- Where no cycle can be reached and what has been seen is barren, the plain recursion finds the
first answer in preorder. -/
theorem Preorder.eq_of_plainlyFinds (h : Preorder next seen pending order)
    (hacyclic : ∀ a ∈ pending, ∀ b, Relation.ReflTransGen (Step next) a b →
      ¬ Relation.TransGen (Step next) b b)
    (hbarren : ∀ a ∈ pending, ∀ b ∈ seen, Relation.ReflTransGen (Step next) a b →
      Barren next answer b) {r : Option β} (hr : PlainlyFinds next answer pending r) :
    r = order.findSome? answer := by
  induction h generalizing r with
  | nil => cases hr; rfl
  | @skip seen a rest order hseen _ ih =>
    rw [List.forall_mem_cons] at hacyclic hbarren
    -- the plain search goes below it once more, in vain
    have ha : Barren next answer a := hbarren.1 a hseen .refl
    cases hr with
    | own hb => cases hb.symm.trans (ha a .refl)
    | deeper _ hbelow =>
      obtain ⟨c, hc, d, hpath, hd⟩ := hbelow.reached
      cases hd.symm.trans (ha d (.head hc hpath))
    | pass _ _ hrest => exact ih hacyclic.2 hbarren.2 hrest
  | @visit seen a rest below after hnot hbelow hrest ihbelow ihrest =>
    rw [List.forall_mem_cons] at hacyclic hbarren
    -- a successor leads to nothing on the way to it, for that would be a cycle
    have hinner : ∀ r, PlainlyFinds next answer (next a) r → r = below.findSome? answer := by
      refine fun r => ihbelow (fun b hb c hpath => hacyclic.1 c (.head hb hpath)) ?_
      rintro b hb c (rfl | hc) hpath
      · exact absurd (Relation.TransGen.head' hb hpath) (hacyclic.1 c .refl)
      · exact hbarren.1 c hc (.head hb hpath)
    rw [List.findSome?_cons, List.findSome?_append]
    cases hr with
    | own ha => rw [ha]
    | deeper ha hdeep => rw [ha, ← hinner _ hdeep]; rfl
    | pass ha hdeep hafter =>
      -- nothing was found here, so for the rest everything seen here is barren
      have hvain : (a :: below).findSome? answer = none := by
        rw [List.findSome?_cons, ha, ← hinner _ hdeep]
      have hentered : Preorder next seen [a] (a :: (below ++ [])) := .visit hnot hbelow .nil
      rw [List.append_nil] at hentered
      have hbarrena := hentered.barren hvain List.mem_cons_self hbarren.1
      rw [ha, ← hinner _ hdeep]
      refine ihrest hacyclic.2 (fun b hb c hc hpath => ?_) hafter
      have hcases : c ∈ seen ∨ c ∈ a :: below := by
        rcases hc with (rfl | hc) | hc
        · exact .inr List.mem_cons_self
        · exact .inl hc
        · exact .inr (List.mem_cons_of_mem _ hc)
      rcases hcases with hc | hc
      · exact hbarren.2 b hb c hc hpath
      · obtain ⟨a', ha', hreached⟩ := hentered.reached_of_mem hc
        rw [List.mem_singleton.mp ha'] at hreached
        exact fun d hd => hbarrena d (hreached.trans hd)

/-- The plain recursion ends on a list of nodes if it ends on the successors of each. -/
theorem exists_plainlyFinds_of_forall
    (h : ∀ a ∈ pending, ∃ r, PlainlyFinds next answer (next a) r) :
    ∃ r, PlainlyFinds next answer pending r := by
  induction pending with
  | nil => exact ⟨none, .nil⟩
  | cons a rest ih =>
    rw [List.forall_mem_cons] at h
    obtain ⟨r, hrest⟩ := ih h.2
    obtain ⟨deep, hdeep⟩ := h.1
    match ha : answer a, deep, hdeep with
    | some b, _, _ => exact ⟨some b, .own ha⟩
    | none, some b, hdeep => exact ⟨some b, .deeper ha hdeep⟩
    | none, none, hdeep => exact ⟨r, .pass ha hdeep hrest⟩

/-- **The plain recursion ends** where finitely many nodes and no cycle can be reached. -/
theorem exists_plainlyFinds {a : α} (hfinite : {b | Relation.ReflTransGen (Step next) a b}.Finite)
    (hacyclic : ∀ b, Relation.ReflTransGen (Step next) a b →
      ¬ Relation.TransGen (Step next) b b) : ∃ r, PlainlyFinds next answer (next a) r := by
  induction hn : {b | Relation.ReflTransGen (Step next) a b}.ncard using Nat.strong_induction_on
    generalizing a with
  | _ n ih =>
  refine exists_plainlyFinds_of_forall fun b hb => ?_
  have hsub : {c | Relation.ReflTransGen (Step next) b c} ⊆
      {c | Relation.ReflTransGen (Step next) a c} := fun c hc => .head hb hc
  -- on an acyclic graph a node cannot be reached from its successors
  have hback : ¬ Relation.ReflTransGen (Step next) b a := fun hba =>
    hacyclic a .refl (Relation.TransGen.head' hb hba)
  have hless : {c | Relation.ReflTransGen (Step next) b c}.ncard < n :=
    hn ▸ Set.ncard_lt_ncard ⟨hsub, fun hsup => hback (hsup .refl)⟩ hfinite
  exact ih _ hless (hfinite.subset hsub) (fun c hc => hacyclic c (.head hb hc)) rfl

end Answers

end DepthFirst

end HotReload
