import Formulary.Proofs.Dependency.Exactness
import Formulary.Proofs.Dependency.Failures
import Formulary.Proofs.Tree.Positions
import Formulary.Proofs.Workspace
/-!
# What a collector comes to hold

A capture meets the positions of the unfolding of a formula from the top and from the left,
and what it does at one of them depends on nothing but the node and on how deep it is
(`visit_eq_each`). It stops at the first position with a fault (`fault?`), and up to there it
has recorded the variables that it met.

All that a capture changes in its workspace is that the collector of its context then holds
what was recorded, along with what it held before. So captures for one collector do not
disturb each other: in the end the collector holds what any of them would have answered with
a collector of its own (`Captures.contains_iff`), in whatever order they were made.
-/

namespace Formulary

namespace FormulaManager

/-- A name at an id stands for the variable, or for one that equals it. -/
def NeedsAt (m : FormulaManager) (i : ScopeInstance) (t : FormulaTree) (id : NodeId)
    (v : VariableId) : Prop :=
  ∃ name span u, t.node? id = some ⟨.var name, span⟩ ∧ m.StandsFor i name u ∧ (u == v) = true

/-- A name in the unfolding of a formula stands for the variable, or for one that equals it. -/
def Needs (m : FormulaManager) (i : ScopeInstance) (t : FormulaTree) (v : VariableId) : Prop :=
  ∃ k id, t.Reaches k t.root id ∧ m.NeedsAt i t id v

/-- It is so at an id that is met before a position: at one above it, or to the left of it. -/
def NeedsBefore (m : FormulaManager) (i : ScopeInstance) (t : FormulaTree) (path : List Nat)
    (v : VariableId) : Prop :=
  ∃ path' id, t.Visited m.config.maxTreeDepth path' id ∧ path' < path ∧ m.NeedsAt i t id v

end FormulaManager

namespace Dependency

/-! ## Position by position -/

/-- What keeps a name from being recorded. -/
def nameFault? (m : FormulaManager) (i : ScopeInstance) (name : Name) (span : Span) :
    Option DependencyError :=
  match m.resolveName i name with
  | .error (.undeclared name scope) => some (.unresolvedVariable name scope span)
  | .error (.config e) => some (.config e)
  | .ok _ => none

/-- What stops a capture at an id that is met so many steps down. The first reason that
applies is the fault. -/
def fault? (m : FormulaManager) (i : ScopeInstance) (t : FormulaTree) (depth : Nat)
    (id : NodeId) : Option DependencyError :=
  match t.node? id with
  | none => some (.config (.malformedTree id))
  | some node =>
    if m.config.maxTreeDepth ≤ depth then
      some (.nestingTooDeep m.config.maxTreeDepth node.span)
    else
      match node.kind with
      | .literal _ => none
      | .var name => nameFault? m i name node.span
      | .call _ r | .operator _ r =>
        match t.args? r with
        | none => some (.config (.malformedTree id))
        | some _ => none

/-- A capture stops at a position: there is a fault, and none before it. -/
structure StopsAt (m : FormulaManager) (i : ScopeInstance) (t : FormulaTree) (path : List Nat)
    (id : NodeId) (e : DependencyError) : Prop where
  visited : t.Visited m.config.maxTreeDepth path id
  fault : fault? m i t path.length id = some e
  /-- Nothing that is met before stops the capture. -/
  first : ∀ path' id', t.Visited m.config.maxTreeDepth path' id' → path' < path →
    fault? m i t path'.length id' = none

/-- The variable that is recorded at an id, if a name stands there and stands for one. -/
def needed? (m : FormulaManager) (i : ScopeInstance) (t : FormulaTree) (id : NodeId) :
    Option VariableId :=
  match t.node? id with
  | some ⟨.var name, _⟩ => (m.resolveName i name).toOption
  | _ => none

/-- The capture of an id by itself, without its arguments. -/
def meet (m : FormulaManager) (i : ScopeInstance) (t : FormulaTree) (depth : Nat)
    (id : NodeId) : Capture :=
  match fault? m i t depth id with
  | some e => .fail e
  | none =>
    match needed? m i t id with
    | some v => .record v
    | none => {}

variable {m : FormulaManager} {i : ScopeInstance} {t : FormulaTree} {cx : ContextMap}
variable {c : CollectorId} {id : NodeId} {depth levels : Nat} {v : VariableId}

@[simp] theorem failure?_meet : (meet m i t depth id).failure? = fault? m i t depth id := by
  unfold meet
  cases fault? m i t depth id with
  | some e => rfl
  | none => cases needed? m i t id <;> rfl

theorem recorded_meet (h : fault? m i t depth id = none) :
    (meet m i t depth id).recorded.toList = (needed? m i t id).toList := by
  simp only [meet, h]
  cases needed? m i t id <;> rfl

/-- Where a capture stops it records nothing. -/
theorem recorded_meet_of_fault? {e : DependencyError} (h : fault? m i t depth id = some e) :
    (meet m i t depth id).recorded.toList = [] := by
  simp only [meet, h]
  rfl

/-- **What is needed at an id is recorded there,** up to equality. -/
theorem needsAt_iff (h : fault? m i t depth id = none) :
    m.NeedsAt i t id v ↔ ∃ u ∈ (meet m i t depth id).recorded.toList, (u == v) = true := by
  simp only [recorded_meet h, Option.mem_toList]
  unfold FormulaManager.NeedsAt needed?
  constructor
  · rintro ⟨name, span, u, hn, hstands, huv⟩
    simp only [hn, FormulaManager.resolveName_eq_ok_iff.2 hstands]
    exact ⟨u, rfl, huv⟩
  · rintro ⟨u, hu, huv⟩
    split at hu
    · rename_i name span hn
      refine ⟨name, span, u, hn, FormulaManager.resolveName_eq_ok_iff.1 ?_, huv⟩
      cases hname : m.resolveName i name with
      | error e =>
        rw [hname] at hu
        cases hu
      | ok w =>
        rw [hname] at hu
        exact congrArg Except.ok (Option.some.inj hu)
    · cases hu

/-- A variable is met by itself. -/
theorem meet_of_var {name : Name} {span : Span} (hc : cx.get Key.collector = .ok c)
    (hn : t.node? id = some ⟨.var name, span⟩) (hdepth : depth < m.config.maxTreeDepth) :
    meet m i t depth id = visitVariable m i cx name span := by
  simp only [meet, fault?, needed?, hn, if_neg (Nat.not_le.2 hdepth), nameFault?, visitVariable, hc]
  cases m.resolveName i name with
  | ok v => rfl
  | error e => cases e <;> rfl

/-- All that may be wrong with a call is that its arguments cannot be read. -/
theorem meet_of_range {node : Node} {r : ArgRange} (hn : t.node? id = some node)
    (hr : node.kind.range? = some r) (hdepth : depth < m.config.maxTreeDepth) :
    meet m i t depth id =
      match t.args? r with
      | none => .fail (.config (.malformedTree id))
      | some _ => {} := by
  obtain ⟨kind, span⟩ := node
  cases kind with
  | literal value | var name => exact absurd hr (by simp [NodeKind.range?])
  | call function r' | operator op r' =>
    obtain rfl : r' = r := Option.some.inj hr
    simp only [meet, fault?, needed?, hn, if_neg (Nat.not_le.2 hdepth)]
    cases t.args? r' <;> rfl

/-- The positions below an id are met from the id itself on, and then argument by argument. -/
theorem each_positions_succ (f : Nat → NodeId → Capture) :
    Capture.each (fun p => f p.1.length p.2) (t.positions (levels + 1) id) =
      (f 0 id).andThen fun _ => .each
        (fun arg => .each (fun p => f (p.1.length + 1) p.2) (t.positions levels arg))
        (t.argsOf id) := by
  rw [FormulaTree.positions, Capture.each_cons, Capture.each_flatMap]
  simp only [Capture.each_map, List.length_cons, List.length_nil]
  rw [← List.zipIdx_map_fst 0 (t.argsOf id), Capture.each_map, List.zipIdx_map_fst]

/-- **A capture meets the positions below an id one after another.** So many steps lead to
the id, and all other levels of the limit are to go. -/
theorem visit_eq_each (hc : cx.get Key.collector = .ok c)
    (hdepth : depth + levels = m.config.maxTreeDepth) :
    visit m i t levels cx id =
      .each (fun p => meet m i t (depth + p.1.length) p.2) (t.positions levels id) := by
  induction levels generalizing depth id with
  | zero =>
    have hdeep : m.config.maxTreeDepth ≤ depth := by omega
    rw [FormulaTree.positions, Capture.each_cons, Capture.each_nil, Capture.andThen_empty]
    cases hn : t.node? id with
    | none => simp only [visit, meet, fault?, hn]
    | some node => simp [visit, meet, fault?, hn, hdeep]
  | succ levels ih =>
    have hshallow : depth < m.config.maxTreeDepth := by omega
    have hargs : visit m i t levels cx = fun arg =>
        .each (fun p => meet m i t (depth + (p.1.length + 1)) p.2) (t.positions levels arg) := by
      funext arg
      rw [ih (by omega : depth + 1 + levels = m.config.maxTreeDepth)]
      simp only [Nat.add_right_comm, Nat.add_assoc]
    rw [each_positions_succ fun k id => meet m i t (depth + k) id, Nat.add_zero depth, ← hargs]
    rcases hn : t.node? id with _ | node
    · rw [FormulaTree.argsOf_of_none hn, Capture.each_nil, Capture.andThen_empty]
      simp only [visit, meet, fault?, hn]
    rcases hr : node.kind.range? with _ | r
    · rw [FormulaTree.argsOf_of_node hn, hr, Option.bind_none, Option.getD_none, Capture.each_nil,
        Capture.andThen_empty]
      obtain ⟨kind, span⟩ := node
      cases kind with
      | literal value =>
        simp only [visit, meet, fault?, needed?, hn, if_neg (Nat.not_le.2 hshallow)]
      | var name =>
        rw [meet_of_var hc hn hshallow]
        simp only [visit, hn]
      | call function r | operator op r => exact absurd hr (by simp [NodeKind.range?])
    · rw [visit_succ_of_range hn hr]
      rw [meet_of_range hn hr hshallow]
      cases ha : t.args? r with
      | none =>
        rw [FormulaTree.argsOf_of_node hn, hr, Option.bind_some, ha, Option.getD_none,
          Capture.each_nil, Capture.andThen_empty]
      | some args =>
        rw [FormulaTree.argsOf_of_args? hn hr ha]
        exact (Capture.empty_andThen fun _ => .each (visit m i t levels cx) args).symm

/-! ## How far a capture goes -/

/-- A capture of a formula meets its positions. -/
theorem run_eq_each (hc : cx.get Key.collector = .ok c) :
    run m i cx t = .each (fun p => meet m i t p.1.length p.2)
      (t.positions m.config.maxTreeDepth t.root) := by
  have hvisit : visit m i t m.config.maxTreeDepth cx t.root = _ :=
    visit_eq_each hc (Nat.zero_add m.config.maxTreeDepth)
  simp only [Nat.zero_add] at hvisit
  exact hvisit

/-- **A capture goes through if no position has a fault.** -/
theorem failure?_run_eq_none_iff (hc : cx.get Key.collector = .ok c) :
    (run m i cx t).failure? = none ↔ ∀ path id, t.Visited m.config.maxTreeDepth path id →
      fault? m i t path.length id = none := by
  rw [run_eq_each hc, Capture.failure?_each_eq_none_iff]
  simp only [failure?_meet, Prod.forall, FormulaTree.mem_positions_iff]

/-- **A capture that goes through has recorded what the formula needs,** up to equality. -/
theorem needs_iff_of_run (hc : cx.get Key.collector = .ok c)
    (h : (run m i cx t).failure? = none) :
    m.Needs i t v ↔ ∃ u ∈ (run m i cx t).recorded.toList, (u == v) = true := by
  have hcapturable : Capturable m i t m.config.maxTreeDepth t.root :=
    (failure?_visit_eq_none_iff hc).1 h
  constructor
  · rintro ⟨k, id, hk, name, span, u, hn, hstands, huv⟩
    exact ⟨u, (mem_recorded_visit_iff hc hcapturable).2 ⟨name, ⟨k, id, span, hk, hn⟩, hstands⟩, huv⟩
  · rintro ⟨u, hu, huv⟩
    obtain ⟨name, ⟨k, id, span, hk, hn⟩, hstands⟩ := (mem_recorded_visit_iff hc hcapturable).1 hu
    exact ⟨k, id, hk, name, span, u, hn, hstands, huv⟩

/-- Positions without a fault record what is needed at them. -/
theorem exists_mem_recorded_iff {ps : List (List Nat × NodeId)}
    (h : ∀ p ∈ ps, fault? m i t p.1.length p.2 = none) :
    (∃ u ∈ ps.flatMap fun p => (meet m i t p.1.length p.2).recorded.toList, (u == v) = true) ↔
      ∃ p ∈ ps, m.NeedsAt i t p.2 v := by
  simp only [List.mem_flatMap]
  constructor
  · rintro ⟨u, ⟨p, hp, hu⟩, huv⟩
    exact ⟨p, hp, (needsAt_iff (h p hp)).2 ⟨u, hu, huv⟩⟩
  · rintro ⟨p, hp, hneeds⟩
    obtain ⟨u, hu, huv⟩ := (needsAt_iff (h p hp)).1 hneeds
    exact ⟨u, ⟨p, hp, hu⟩, huv⟩

/-- **A capture that stops has recorded what it met before,** and stops at the first fault. -/
theorem exists_stopsAt_of_run {e : DependencyError} (hc : cx.get Key.collector = .ok c)
    (h : (run m i cx t).failure? = some e) :
    ∃ path id, StopsAt m i t path id e ∧
      ∀ v, m.NeedsBefore i t path v ↔ ∃ u ∈ (run m i cx t).recorded.toList, (u == v) = true := by
  rw [run_eq_each hc] at h ⊢
  obtain ⟨before, ⟨path, id⟩, later, hsplit, hfault, hbefore, hrecorded⟩ :=
    Capture.exists_of_failure?_each h
  rw [failure?_meet] at hfault
  have hfree (p : List Nat × NodeId) (hp : p ∈ before) : fault? m i t p.1.length p.2 = none :=
    failure?_meet.symm.trans (hbefore p hp)
  have hvisited : t.Visited m.config.maxTreeDepth path id :=
    FormulaTree.mem_positions_iff.1 (hsplit ▸ List.mem_append_right _ List.mem_cons_self)
  refine ⟨path, id, ⟨hvisited, hfault, fun path' id' hp hlt => ?_⟩, fun v => ?_⟩
  · exact hfree _ ((FormulaTree.mem_before_iff hsplit).2 ⟨hp, hlt⟩)
  · rw [hrecorded, recorded_meet_of_fault? hfault, List.append_nil]
    simp only [exists_mem_recorded_iff hfree, Prod.exists, FormulaTree.mem_before_iff hsplit,
      and_assoc, FormulaManager.NeedsBefore]

end Dependency

/-! ## What becomes of the collector -/

namespace Workspace

variable {w : Workspace} {cx : ContextMap} {c c' : CollectorId} {m : FormulaManager}
variable {i : ScopeInstance} {t : FormulaTree} {d : DependencySet} {v : VariableId}

theorem collected_collectAll (hw : c.index < w.collectors.size) (vs : List VariableId) :
    (w.collectAll c vs).collected c = (w.collected c).insertAll vs := by
  simp [collected, collectAll_eq, hw, Array.getElem_modify]

/-- What is put into a collector is in no other. -/
theorem collected_collectAll_of_ne (hne : c' ≠ c) (vs : List VariableId) :
    (w.collectAll c vs).collected c' = w.collected c' := by
  have hindex : c.index ≠ c'.index := fun h => hne (congrArg CollectorId.mk h.symm)
  simp [collected, collectAll_eq, Array.getElem?_modify, hindex]

/-- **A capture starts or it does not.** Without a manager or an instance it fails for that,
and nothing changes. With both it puts what it records into its collector, and does nothing
else. -/
theorem runDependency_cases (hc : cx.get Key.collector = .ok c) (t : FormulaTree) :
    (∃ e, (w.managerOf cx = .error e ∨ cx.get Key.inst = .error e) ∧
      w.runDependency cx t = (.error (.config e), w)) ∨
    ∃ m i after, w.managerOf cx = .ok m ∧ cx.get Key.inst = .ok i ∧
      after = w.collectAll c (Dependency.run m i cx t).recorded.toList ∧
      w.runDependency cx t =
        (match (Dependency.run m i cx t).failure? with
          | some e => .error e
          | none => .ok (after.collected c), after) := by
  cases hm : w.managerOf cx with
  | error e => exact .inl ⟨e, .inl rfl, by simp only [runDependency, hm]⟩
  | ok m =>
    cases hi : cx.get Key.inst with
    | error e => exact .inl ⟨e, .inr rfl, by simp only [runDependency, hm, hi]⟩
    | ok i =>
      refine .inr ⟨m, i, _, rfl, rfl, rfl, ?_⟩
      rw [runDependency_eq_deliver hm hi, deliver, hc]
      cases (Dependency.run m i cx t).failure? <;> rfl

/-- Captures before it do not decide what manager a capture has. -/
theorem managerOf_runDependency (hc : cx.get Key.collector = .ok c) (t : FormulaTree)
    (cx' : ContextMap) : (w.runDependency cx t).2.managerOf cx' = w.managerOf cx' := by
  rcases w.runDependency_cases hc t with ⟨e, -, h⟩ | ⟨m, i, after, -, -, rfl, h⟩ <;> rw [h]
  rw [collectAll_eq]
  rfl

/-- There are as many collectors as before. -/
theorem size_collectors_runDependency (hc : cx.get Key.collector = .ok c) (t : FormulaTree) :
    (w.runDependency cx t).2.collectors.size = w.collectors.size := by
  rcases w.runDependency_cases hc t with ⟨e, -, h⟩ | ⟨m, i, after, -, -, rfl, h⟩ <;> rw [h]
  rw [collectAll_eq]
  exact Array.size_modify

/-- The formula can be captured in the context: there are a manager and an instance for which
no position has a fault. -/
structure Sees (w : Workspace) (cx : ContextMap) (t : FormulaTree) (m : FormulaManager)
    (i : ScopeInstance) : Prop where
  manager : w.managerOf cx = .ok m
  inst : cx.get Key.inst = .ok i
  /-- Nothing in the formula stops the capture. -/
  free : ∀ path id, t.Visited m.config.maxTreeDepth path id →
    Dependency.fault? m i t path.length id = none

/-- **Only what can be captured is.** -/
theorem exists_sees (hc : cx.get Key.collector = .ok c) (h : (w.runDependency cx t).1 = .ok d) :
    ∃ m i, w.Sees cx t m i := by
  rcases w.runDependency_cases hc t with ⟨e, -, hrun⟩ | ⟨m, i, after, hm, hi, -, hrun⟩
  · rw [hrun] at h
    cases h
  · refine ⟨m, i, hm, hi, (Dependency.failure?_run_eq_none_iff hc).1 ?_⟩
    rw [hrun] at h
    cases hfail : (Dependency.run m i cx t).failure? with
    | none => rfl
    | some e =>
      rw [hfail] at h
      cases h

/-- **What can be captured is,** and the answer is what the collector then holds: what it held
before, and what the formula needs. -/
theorem Sees.runDependency (h : w.Sees cx t m i) (hc : cx.get Key.collector = .ok c)
    (hw : c.index < w.collectors.size) :
    (w.runDependency cx t).1 = .ok ((w.runDependency cx t).2.collected c) ∧
      ∀ v, ((w.runDependency cx t).2.collected c).contains v = true ↔
        (w.collected c).contains v = true ∨ m.Needs i t v := by
  have hgoes : (Dependency.run m i cx t).failure? = none :=
    (Dependency.failure?_run_eq_none_iff hc).2 h.free
  have hrun := runDependency_eq_deliver (t := t) h.manager h.inst
  simp only [deliver, hc, hgoes] at hrun
  rw [hrun]
  refine ⟨rfl, fun v => ?_⟩
  rw [collected_collectAll hw, DependencySet.contains_insertAll_iff,
    Dependency.needs_iff_of_run hc hgoes]

/-- **A capture that fails** has no manager or no instance, and then nothing changes. Or it stops
in the formula, and the collector holds what it held, and what is needed before that. -/
theorem exists_stopsAt {e : DependencyError} (hc : cx.get Key.collector = .ok c)
    (hw : c.index < w.collectors.size) (h : (w.runDependency cx t).1 = .error e) :
    ((w.runDependency cx t).2 = w ∧ ∃ e', e = .config e' ∧
      (w.managerOf cx = .error e' ∨ cx.get Key.inst = .error e')) ∨
    ∃ m i path id, w.managerOf cx = .ok m ∧ cx.get Key.inst = .ok i ∧
      Dependency.StopsAt m i t path id e ∧
      ∀ v, ((w.runDependency cx t).2.collected c).contains v = true ↔
        (w.collected c).contains v = true ∨ m.NeedsBefore i t path v := by
  rcases w.runDependency_cases hc t with ⟨e', he', hrun⟩ | ⟨m, i, after, hm, hi, rfl, hrun⟩
  · rw [hrun] at h ⊢
    exact .inl ⟨rfl, e', (Except.error.inj h).symm, he'⟩
  · rw [hrun] at h ⊢
    have hfail : (Dependency.run m i cx t).failure? = some e := by
      cases hfail : (Dependency.run m i cx t).failure? with
      | none =>
        rw [hfail] at h
        cases h
      | some stopped =>
        rw [hfail] at h
        exact congrArg some (Except.error.inj h)
    obtain ⟨path, id, hstops, hbefore⟩ := Dependency.exists_stopsAt_of_run hc hfail
    refine .inr ⟨m, i, path, id, hm, hi, hstops, fun v => ?_⟩
    rw [collected_collectAll hw, DependencySet.contains_insertAll_iff, hbefore]

/-! ## Captures for one collector -/

/-- What a capture answers in the same context, but with a collector of its own. -/
def captureApart (w : Workspace) (cx : ContextMap) (t : FormulaTree) :
    Except DependencyError DependencySet :=
  (w.addCollector.2.runDependency (cx.set Key.collector w.addCollector.1) t).1

/-- Captures for one collector, one after another, each of which answers. -/
inductive Captures (c : CollectorId) :
    Workspace → List (ContextMap × FormulaTree) → Workspace → Prop
  | nil {w : Workspace} : Captures c w [] w
  | cons {w next after : Workspace} {cx : ContextMap} {t : FormulaTree} {d : DependencySet}
      {rest : List (ContextMap × FormulaTree)} (hc : cx.get Key.collector = .ok c)
      (h : w.runDependency cx t = (.ok d, next)) (hrest : Captures c next rest after) :
      Captures c w ((cx, t) :: rest) after

variable {w' after : Workspace} {runs : List (ContextMap × FormulaTree)}

/-- What can be captured depends on the manager and on the instance. -/
theorem sees_congr {cx' : ContextMap} (hm : w'.managerOf cx' = w.managerOf cx)
    (hi : cx'.get Key.inst = cx.get Key.inst) : w'.Sees cx' t m i ↔ w.Sees cx t m i :=
  ⟨fun h => ⟨hm.symm.trans h.manager, hi.symm.trans h.inst, h.free⟩,
    fun h => ⟨hm.trans h.manager, hi.trans h.inst, h.free⟩⟩

/-- After a capture the same can be captured as before it. -/
theorem sees_runDependency_iff {cx' : ContextMap} {t' : FormulaTree}
    (hc : cx.get Key.collector = .ok c) :
    (w.runDependency cx t).2.Sees cx' t' m i ↔ w.Sees cx' t' m i :=
  sees_congr (w.managerOf_runDependency hc t cx') rfl

/-- **With a collector of its own** a capture answers with what the formula needs. -/
theorem exists_captureApart_iff :
    (∃ d, w.captureApart cx t = .ok d ∧ d.contains v = true) ↔
      ∃ m i, w.Sees cx t m i ∧ m.Needs i t v := by
  have hc : (cx.set Key.collector w.addCollector.1).get Key.collector = .ok w.addCollector.1 :=
    cx.get_set _ _
  have hsize : w.addCollector.1.index < w.addCollector.2.collectors.size := by
    simp [addCollector]
  have hinst : (cx.set Key.collector w.addCollector.1).get Key.inst = cx.get Key.inst :=
    cx.get_set_of_ne _ _ _ (by decide)
  have hmanager : w.addCollector.2.managerOf (cx.set Key.collector w.addCollector.1) =
      w.managerOf cx := by
    unfold managerOf
    rw [cx.get_set_of_ne _ _ Key.manager (by decide)]
    rfl
  have hempty : (w.addCollector.2.collected w.addCollector.1).contains v = false := by
    simp [addCollector, collected, DependencySet.contains]
  have hsees {m : FormulaManager} {i : ScopeInstance} :
      w.addCollector.2.Sees (cx.set Key.collector w.addCollector.1) t m i ↔ w.Sees cx t m i :=
    sees_congr hmanager hinst
  have hneeds {m : FormulaManager} {i : ScopeInstance} (h : w.Sees cx t m i) :
      ∃ d, w.captureApart cx t = .ok d ∧ (d.contains v = true ↔ m.Needs i t v) := by
    obtain ⟨hanswer, hcontains⟩ := (hsees.2 h).runDependency hc hsize
    refine ⟨_, hanswer, ?_⟩
    rw [hcontains, hempty]
    simp
  constructor
  · rintro ⟨d, hd, hv⟩
    obtain ⟨m, i, hms⟩ := exists_sees hc hd
    obtain ⟨d', hd', hcontains⟩ := hneeds (hsees.1 hms)
    obtain rfl := Except.ok.inj (hd.symm.trans hd')
    exact ⟨m, i, hsees.1 hms, hcontains.1 hv⟩
  · rintro ⟨m, i, hms, hv⟩
    obtain ⟨d, hd, hcontains⟩ := hneeds hms
    exact ⟨d, hd, hcontains.2 hv⟩

/-- **Each of several captures answers** if it does so in the workspace before all of them. -/
theorem exists_captures_iff (hw : c.index < w.collectors.size) :
    (∃ after, Captures c w runs after) ↔
      ∀ r ∈ runs, r.1.get Key.collector = .ok c ∧ ∃ m i, w.Sees r.1 r.2 m i := by
  induction runs generalizing w with
  | nil => exact iff_of_true ⟨w, .nil⟩ (by simp)
  | cons r rest ih =>
    obtain ⟨cx, t⟩ := r
    rw [List.forall_mem_cons]
    have hlater (hc : cx.get Key.collector = .ok c) :
        (∃ after, Captures c (w.runDependency cx t).2 rest after) ↔
          ∀ r ∈ rest, r.1.get Key.collector = .ok c ∧ ∃ m i, w.Sees r.1 r.2 m i := by
      rw [ih (by rwa [size_collectors_runDependency hc])]
      simp only [sees_runDependency_iff hc]
    constructor
    · rintro ⟨after, h⟩
      cases h with
      | cons hc h hrest =>
        obtain rfl := congrArg Prod.snd h
        exact ⟨⟨hc, exists_sees hc (congrArg Prod.fst h)⟩, (hlater hc).1 ⟨after, hrest⟩⟩
    · rintro ⟨⟨hc, m, i, hms⟩, hrest⟩
      obtain ⟨after, hafter⟩ := (hlater hc).2 hrest
      exact ⟨after, .cons hc (Prod.ext (hms.runDependency hc hw).1 rfl) hafter⟩

/-- **In the end the collector holds what each capture would have answered by itself,** and
what it held before. -/
theorem Captures.contains_iff (h : Captures c w runs after) (hw : c.index < w.collectors.size) :
    (after.collected c).contains v = true ↔ (w.collected c).contains v = true ∨
      ∃ r ∈ runs, ∃ d, w.captureApart r.1 r.2 = .ok d ∧ d.contains v = true := by
  induction h with
  | nil => simp
  | @cons w next after cx t d rest hc h hrest ih =>
    obtain rfl : (w.runDependency cx t).2 = next := congrArg Prod.snd h
    obtain ⟨m, i, hms⟩ := exists_sees hc (congrArg Prod.fst h)
    have hfirst : m.Needs i t v ↔
        ∃ d, w.captureApart cx t = .ok d ∧ d.contains v = true := by
      rw [exists_captureApart_iff]
      constructor
      · exact fun hv => ⟨m, i, hms, hv⟩
      · rintro ⟨m', i', hms', hv⟩
        obtain rfl := Except.ok.inj (hms'.manager.symm.trans hms.manager)
        obtain rfl := Except.ok.inj (hms'.inst.symm.trans hms.inst)
        exact hv
    have hlater (r : ContextMap × FormulaTree) :
        (∃ d, (w.runDependency cx t).2.captureApart r.1 r.2 = .ok d ∧ d.contains v = true) ↔
          ∃ d, w.captureApart r.1 r.2 = .ok d ∧ d.contains v = true := by
      simp only [exists_captureApart_iff, sees_runDependency_iff hc]
    rw [ih (by rwa [size_collectors_runDependency hc]), (hms.runDependency hc hw).2, hfirst,
      List.exists_mem_cons_iff, or_assoc]
    simp only [hlater]

/-- The order of the captures makes no difference. -/
theorem Captures.perm {runs' : List (ContextMap × FormulaTree)} (h : Captures c w runs after)
    (hw : c.index < w.collectors.size) (hruns : runs.Perm runs') :
    ∃ after', Captures c w runs' after' ∧
      ∀ v, (after'.collected c).contains v = (after.collected c).contains v := by
  have hall := (exists_captures_iff hw).1 ⟨after, h⟩
  obtain ⟨after', h'⟩ := (exists_captures_iff hw).2 fun r hr => hall r (hruns.mem_iff.2 hr)
  refine ⟨after', h', fun v => Bool.eq_iff_iff.2 ?_⟩
  rw [h'.contains_iff hw, h.contains_iff hw]
  simp only [hruns.mem_iff]

/-- What a capture that answers, or that fails, leaves in its workspace and in its collector. -/
structure Accumulates (w : Workspace) (c : CollectorId) (cx : ContextMap) (t : FormulaTree)
    (answer : Except DependencyError DependencySet) (after : Workspace) : Prop where
  /-- The answer is what the collector then holds: what it held before, and the variables that
  the names in the formula stand for. -/
  answered : ∀ d, answer = .ok d → after.collected c = d ∧
    ∃ m i, w.managerOf cx = .ok m ∧ cx.get Key.inst = .ok i ∧
      ∀ v, d.contains v = true ↔ (w.collected c).contains v = true ∨ m.Needs i t v
  /-- A capture that fails stops at the first position with a fault, from the top and from the
  left, and the collector holds what it held before and what the names before that position
  stand for. -/
  failed : ∀ e, answer = .error e →
    (after = w ∧ ∃ e', e = .config e' ∧
      (w.managerOf cx = .error e' ∨ cx.get Key.inst = .error e')) ∨
    ∃ m i path id, w.managerOf cx = .ok m ∧ cx.get Key.inst = .ok i ∧
      Dependency.StopsAt m i t path id e ∧
      ∀ v, (after.collected c).contains v = true ↔
        (w.collected c).contains v = true ∨ m.NeedsBefore i t path v
  /-- Nothing else changes. -/
  engines : after.engines = w.engines
  vocabularies : after.vocabularies = w.vocabularies
  others : ∀ c', c' ≠ c → after.collected c' = w.collected c'
  /-- No variable is collected twice. -/
  distinct : (w.collected c).Distinct → (after.collected c).Distinct

theorem accumulates (hw : c.index < w.collectors.size) (hc : cx.get Key.collector = .ok c)
    (t : FormulaTree) :
    w.Accumulates c cx t (w.runDependency cx t).1 (w.runDependency cx t).2 := by
  have hsame : (w.runDependency cx t).2.engines = w.engines ∧
      (w.runDependency cx t).2.vocabularies = w.vocabularies ∧
      (∀ c', c' ≠ c → (w.runDependency cx t).2.collected c' = w.collected c') ∧
      ((w.collected c).Distinct → ((w.runDependency cx t).2.collected c).Distinct) := by
    rcases w.runDependency_cases hc t with ⟨e, -, hrun⟩ | ⟨m, i, after, -, -, rfl, hrun⟩
    · simp [hrun]
    · simp only [hrun, collected_collectAll hw]
      refine ⟨?_, ?_, fun c' hne => collected_collectAll_of_ne hne _, fun h => h.insertAll _⟩ <;>
        rw [collectAll_eq]
  obtain ⟨hengines, hvocabularies, hothers, hdistinct⟩ := hsame
  refine ⟨fun d hd => ?_, fun e he => exists_stopsAt hc hw he, hengines, hvocabularies, hothers,
    hdistinct⟩
  obtain ⟨m, i, hms⟩ := exists_sees hc hd
  obtain ⟨hanswer, hcontains⟩ := hms.runDependency hc hw
  obtain rfl := Except.ok.inj (hanswer.symm.trans hd)
  exact ⟨rfl, m, i, hms.manager, hms.inst, hcontains⟩

/-- **A collector accumulates exactly,** whether a capture answers or fails. Several captures
that answer, for one collector, leave in it the union of what each answers with a collector of
its own, and so they do in any other order. -/
theorem runDependency_accumulates {w : Workspace} {c : CollectorId}
    (hw : c.index < w.collectors.size) :
    (∀ cx t, ContextMap.get cx Key.collector = .ok c →
      w.Accumulates c cx t (w.runDependency cx t).1 (w.runDependency cx t).2) ∧
    ∀ runs after, Captures c w runs after →
      (∀ v, (after.collected c).contains v = true ↔ (w.collected c).contains v = true ∨
        ∃ r ∈ runs, ∃ d, w.captureApart r.1 r.2 = .ok d ∧ d.contains v = true) ∧
      ∀ runs', runs.Perm runs' → ∃ after', Captures c w runs' after' ∧
        ∀ v, (after'.collected c).contains v = (after.collected c).contains v :=
  ⟨fun _ t hc => accumulates hw hc t, fun _ _ h =>
    ⟨fun _ => h.contains_iff hw, fun _ hruns => h.perm hw hruns⟩⟩

/-- The capture of the broken formula stops at the name that nobody declared, and the number
before it stays in the collector. The formulas of the two variables need the same, whichever of
them is captured first. -/
theorem runDependency_accumulates_alone :
    let w := Sample.alone Sample.manager
    let broken := (w.runDependency Sample.told Sample.broken).2.collected ⟨0⟩
    0 < w.collectors.size ∧ Sample.told.get Key.collector = .ok ⟨0⟩ ∧
      (w.runDependency Sample.told Sample.broken).1 =
        .error (.unresolvedVariable "" "all" .dummy) ∧
      (∃ m i path id,
        Dependency.StopsAt m i Sample.broken path id (.unresolvedVariable "" "all" .dummy) ∧
        ∀ v, broken.contains v = true ↔ m.NeedsBefore i Sample.broken path v) ∧
      broken.members = [⟨Sample.someone, Sample.amount, .number, ""⟩] ∧
      ∃ after, Captures ⟨0⟩ w
          [(Sample.told, Sample.guarded), (Sample.told, Sample.scattered)] after ∧
        ∀ v, (after.collected ⟨0⟩).contains v = Sample.needed.contains v := by
  intro w broken
  have hw : (⟨0⟩ : CollectorId).index < w.collectors.size := by decide
  have hc : Sample.told.get Key.collector = .ok ⟨0⟩ := rfl
  have hfails : (w.runDependency Sample.told Sample.broken).1 =
      .error (.unresolvedVariable "" "all" .dummy) := rfl
  let full : Workspace := { w with collectors := #[Sample.needed] }
  have hscattered : w.runDependency Sample.told Sample.scattered = (.ok Sample.needed, full) := rfl
  have hguarded : full.runDependency Sample.told Sample.guarded = (.ok Sample.needed, full) := rfl
  refine ⟨hw, hc, hfails, ?_, rfl, ?_⟩
  · have haccumulates := (runDependency_accumulates hw).1 Sample.told Sample.broken hc
    rcases haccumulates.failed _ hfails with
      ⟨-, e, he, -⟩ | ⟨m, i, path, id, -, -, hstops, hcontains⟩
    · cases he
    · refine ⟨m, i, path, id, hstops, fun v => (hcontains v).trans ?_⟩
      exact or_iff_right (by simp [w, Sample.alone, collected, DependencySet.contains])
  · have hcaptures : Captures ⟨0⟩ w
        [(Sample.told, Sample.scattered), (Sample.told, Sample.guarded)] full :=
      .cons hc hscattered (.cons hc hguarded .nil)
    exact ((runDependency_accumulates hw).2 _ _ hcaptures).2 _ (.swap _ _ _)

end Workspace

end Formulary
