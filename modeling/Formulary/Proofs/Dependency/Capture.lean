import Formulary.CheckedFormula
import Formulary.Proofs.Tree.Unfolding
import Mathlib.Data.List.Forall2
/-!
# Captures, one after another

A capture of a list fails as its first member that fails (`failure?_each`), and
records what its members record, in order, if none fails (`recorded_each`).

A call is captured argument by argument, whatever it is a call of: the libraries are
looked into for what the overloads expect, and a capture does not heed that
(`visit_succ_of_range`).

In a workspace a capture answers with its failure (`runDependency_eq`); with a
collector of its own, it otherwise answers the set of what it recorded
(`captureFormula_eq`).
-/

namespace Formulary

namespace Capture

variable {α : Type} {capture : α → Capture} {as : List α}

/-- The first failure counts. -/
@[simp] theorem failure?_andThen (c : Capture) (next : Unit → Capture) :
    (c.andThen next).failure? = c.failure?.or (next ()).failure? := by
  unfold andThen
  split
  · rename_i e he
    simp [he]
  · rename_i hnone
    simp [hnone]

/-- Both record if the first goes through. -/
theorem recorded_andThen {c : Capture} (h : c.failure? = none) (next : Unit → Capture) :
    (c.andThen next).recorded = c.recorded ++ (next ()).recorded := by
  unfold andThen
  rw [h]

/-- **A list fails as its first member that fails.** -/
theorem failure?_each (capture : α → Capture) (as : List α) :
    (each capture as).failure? = as.findSome? fun a => (capture a).failure? := by
  induction as with
  | nil => rfl
  | cons a rest ih =>
    rw [each_cons, failure?_andThen, ih, List.findSome?_cons]
    cases (capture a).failure? <;> rfl

theorem failure?_each_eq_none_iff :
    (each capture as).failure? = none ↔ ∀ a ∈ as, (capture a).failure? = none := by
  rw [failure?_each, List.findSome?_eq_none_iff]

/-- **A list that goes through records what each member records.** -/
theorem recorded_each (h : ∀ a ∈ as, (capture a).failure? = none) :
    (each capture as).recorded.toList = as.flatMap fun a => (capture a).recorded.toList := by
  induction as with
  | nil => rfl
  | cons a rest ih =>
    have ha : (capture a).failure? = none := h a List.mem_cons_self
    rw [each_cons, recorded_andThen ha, Findings.toList_append, List.flatMap_cons,
      ih fun b hb => h b (List.mem_cons_of_mem _ hb)]

theorem each_map {β : Type} (capture : β → Capture) (f : α → β) (as : List α) :
    each capture (as.map f) = each (fun a => capture (f a)) as := by
  unfold each
  rw [List.foldl_map]

/-- One list is captured, and then another. -/
theorem each_append (capture : α → Capture) (as bs : List α) :
    each capture (as ++ bs) = (each capture as).andThen fun _ => each capture bs := by
  induction as with
  | nil => rw [List.nil_append, each_nil, empty_andThen]
  | cons a rest ih => rw [List.cons_append, each_cons, each_cons, andThen_assoc, ih]

/-- A list of lists is captured list by list. -/
theorem each_flatMap {β : Type} (capture : β → Capture) (f : α → List β) (as : List α) :
    each capture (as.flatMap f) = each (fun a => each capture (f a)) as := by
  induction as with
  | nil => rfl
  | cons a rest ih => rw [List.flatMap_cons, each_append, each_cons, ih]

/-- Nothing comes after a capture that stopped. -/
theorem andThen_of_failure? {c : Capture} {e : DependencyError} (h : c.failure? = some e)
    (next : Unit → Capture) : c.andThen next = c := by
  unfold andThen
  rw [h]

/-- **A list that fails has a first member that fails.** What the members before it record was
recorded, and what it records itself. -/
theorem exists_of_failure?_each {e : DependencyError} (h : (each capture as).failure? = some e) :
    ∃ before a later, as = before ++ a :: later ∧ (capture a).failure? = some e ∧
      (∀ b ∈ before, (capture b).failure? = none) ∧
      (each capture as).recorded.toList =
        (before.flatMap fun b => (capture b).recorded.toList) ++ (capture a).recorded.toList := by
  rw [failure?_each] at h
  obtain ⟨before, a, later, rfl, ha, hbefore⟩ := List.findSome?_eq_some_iff.1 h
  refine ⟨before, a, later, rfl, ha, hbefore, ?_⟩
  rw [each_append, recorded_andThen (failure?_each_eq_none_iff.2 hbefore), each_cons,
    andThen_of_failure? ha, Findings.toList_append, recorded_each hbefore]

/-- Lists are captured alike if they are, member by member. -/
theorem each_eq_of_forall₂ {β : Type} {capture' : β → Capture} {bs : List β}
    (h : List.Forall₂ (fun a b => capture a = capture' b) as bs) :
    each capture as = each capture' bs := by
  induction h with
  | nil => rfl
  | cons hab _ ih => rw [each_cons, each_cons, hab, ih]

end Capture

/-! ## Parts of a formula -/

namespace Dependency

variable {m : FormulaManager} {i : ScopeInstance} {t : FormulaTree} {cx cx' : ContextMap}
variable {levels : Nat} {id : NodeId}

/-- What is expected of an argument says nothing about the collector. -/
theorem get_collector_forArgument (cx : ContextMap) (slot : Option Format) :
    (cx.forArgument slot).get Key.collector = cx.get Key.collector :=
  cx.get_set_of_ne Key.asserted slot Key.collector (by decide)

/-- Arguments are captured from the left, if what is expected of them is not heeded. -/
theorem visitArguments_eq {κ : Type} [BEq κ] {visit : ContextMap → NodeId → Capture}
    (hvisit : ∀ slot arg, visit (cx.forArgument slot) arg = visit cx arg) (c : Callee κ)
    (args? : Option (List NodeId)) :
    visitArguments visit cx c args? =
      match args? with
      | none => .fail (.config (.malformedTree c.node))
      | some args => .each (visit cx) args := by
  cases args? with
  | none => rfl
  | some args =>
    have hpairs : (fun p : NodeId × Option Format => visit (cx.forArgument p.2) p.1) =
        fun p => visit cx p.1 := funext fun p => hvisit p.2 p.1
    calc visitArguments visit cx c (some args)
        = Capture.each (fun p => visit (cx.forArgument p.2) p.1) (c.withExpected args) := rfl
      _ = Capture.each (visit cx) ((c.withExpected args).map Prod.fst) := by
          rw [hpairs, Capture.each_map]
      _ = Capture.each (visit cx) args := by rw [c.map_fst_withExpected]

/-- **Of what it is told, a capture heeds only where to collect.** -/
theorem visit_congr (h : cx.get Key.collector = cx'.get Key.collector) :
    visit m i t levels cx id = visit m i t levels cx' id := by
  induction levels generalizing cx cx' id with
  | zero =>
    unfold visit
    rfl
  | succ levels ih =>
    have hslot (cx : ContextMap) (slot : Option Format) (arg : NodeId) :
        visit m i t levels (cx.forArgument slot) arg = visit m i t levels cx arg :=
      ih (get_collector_forArgument cx slot)
    have hsame : visit m i t levels cx = visit m i t levels cx' := funext fun arg => ih h
    simp only [visit]
    cases t.node? id with
    | none => rfl
    | some node =>
      obtain ⟨kind, span⟩ := node
      cases kind with
      | literal value => rfl
      | var name => simp only [visitVariable, h]
      | call function r => simp only [visitArguments_eq (hslot _), hsame]
      | operator op r => simp only [visitArguments_eq (hslot _), hsame]

/-- **A call is captured argument by argument,** whatever it is a call of. -/
theorem visit_succ_of_range {node : Node} {r : ArgRange} (hn : t.node? id = some node)
    (hr : node.kind.range? = some r) :
    visit m i t (levels + 1) cx id =
      match t.args? r with
      | none => .fail (.config (.malformedTree id))
      | some args => .each (visit m i t levels cx) args := by
  have hslot (slot : Option Format) (arg : NodeId) :
      visit m i t levels (cx.forArgument slot) arg = visit m i t levels cx arg :=
    visit_congr (get_collector_forArgument cx slot)
  obtain ⟨kind, span⟩ := node
  simp only [visit, hn]
  cases kind with
  | literal value | var name => exact absurd hr (by simp [NodeKind.range?])
  | call function r' | operator op r' =>
    obtain rfl : r' = r := Option.some.inj hr
    exact visitArguments_eq hslot _ _

end Dependency

/-! ## Captures with a collector of their own -/

namespace Workspace

variable {w : Workspace} {id : ManagerId} {m : FormulaManager}

/-- What a new collector holds is what is put into it. -/
theorem collected_collectAll_addCollector (w : Workspace) (vs : List VariableId) :
    (w.addCollector.2.collectAll w.addCollector.1 vs).collected w.addCollector.1 =
      .ofList vs := by
  simp [collected, collectAll_eq, addCollector, Array.getElem_modify, DependencySet.ofList]

/-- **A capture for an instance** fails as its walk does. If the walk goes through, the
answer is what the collector then holds. -/
theorem runDependency_eq (hm : w.manager? id = some m) (t : FormulaTree) (i : ScopeInstance)
    (asserted : Option Format) (collector : CollectorId) :
    ∃ cx, ContextMap.get cx Key.collector = .ok collector ∧
      (w.runDependency (ContextFactory.plain.dependency id i asserted collector) t).1 =
        match (Dependency.run m i cx t).failure? with
        | some e => .error e
        | none => .ok <|
          (w.collectAll collector (Dependency.run m i cx t).recorded.toList).collected collector := by
  let cx := ContextFactory.plain.dependency id i asserted collector
  have hcollector : cx.get Key.collector = .ok collector := rfl
  have hinst : cx.get Key.inst = .ok i := rfl
  have hmanager : w.managerOf cx = .ok m := by
    have hget : cx.get Key.manager = .ok id := rfl
    simp only [managerOf, hget, hm]
  refine ⟨cx, hcollector, ?_⟩
  show (w.runDependency cx t).1 = _
  simp only [runDependency, hmanager, hinst, hcollector]
  cases (Dependency.run m i cx t).failure? <;> rfl

/-- **A capture with a collector of its own** answers with what stopped it, or with the
set of what it recorded. -/
theorem captureFormula_eq (hm : w.manager? id = some m) (t : FormulaTree) (i : ScopeInstance)
    (asserted : Option Format) :
    ∃ cx collector, ContextMap.get cx Key.collector = .ok collector ∧
      (w.captureFormula .plain id t i asserted).1 =
        match (Dependency.run m i cx t).failure? with
        | some e => .error e
        | none => .ok (.ofList (Dependency.run m i cx t).recorded.toList) := by
  have hmanager : w.addCollector.2.manager? id = some m := hm
  obtain ⟨cx, hcollector, hrun⟩ := runDependency_eq hmanager t i asserted w.addCollector.1
  rw [collected_collectAll_addCollector] at hrun
  exact ⟨cx, w.addCollector.1, hcollector, hrun⟩

end Workspace

end Formulary
