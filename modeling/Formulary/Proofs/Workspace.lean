import Formulary.Proofs.Semantics.Typing
import Formulary.Workspace
/-!
# Workspaces side by side

Two workspaces stand side by side if their collectors hold the same and their managers are
related one by one (`Workspace.Beside`). A pass takes its manager from the workspace, and
all else that it needs from its context. So side by side it fails before it starts, in
both workspaces for the same reason, or it runs in both, with related managers. What a
pass does with the one and with the other manager is then all there is to compare.
-/

namespace Formulary

namespace Workspace

/-- The collectors hold the same, and the managers are related one by one. -/
structure Beside (R : FormulaManager → FormulaManager → Prop) (w w' : Workspace) : Prop where
  /-- The same was collected so far. -/
  collectors : w'.collectors = w.collectors
  /-- What is a manager in one workspace is one in the other. -/
  managers : ∀ id, Option.Rel R (w.manager? id) (w'.manager? id)

/-- What a workspace answers when a capture in a context has come to an end. -/
def deliver (w : Workspace) (cx : ContextMap) (c : Capture) :
    Except DependencyError DependencySet × Workspace :=
  match cx.get Key.collector with
  | .error e => (.error (c.failure?.getD (.config e)), w)
  | .ok id =>
    let w := w.collectAll id c.recorded.toList
    match c.failure? with
    | some e => (.error e, w)
    | none => (.ok (w.collected id), w)

variable {R : FormulaManager → FormulaManager → Prop} {w w' : Workspace} {m : FormulaManager}
variable {i : ScopeInstance} {cx : ContextMap} {t : FormulaTree} {c : Capture}

/-- A capture that has its manager and its instance delivers what it came to. -/
theorem runDependency_eq_deliver (hm : w.managerOf cx = .ok m) (hi : cx.get Key.inst = .ok i) :
    w.runDependency cx t = w.deliver cx (Dependency.run m i cx t) := by
  simp only [runDependency, hm, hi]
  rfl

/-- What stopped a capture is what is answered. -/
theorem deliver_of_failure? {e : DependencyError} (h : c.failure? = some e) :
    (w.deliver cx c).1 = .error e := by
  unfold deliver
  split
  · rw [h]
    rfl
  · simp only [h]

/-- What is answered in the end is wrong with the capture, or there is no collector. -/
theorem deliver_eq_error {e : DependencyError} (h : (w.deliver cx c).1 = .error e) :
    c.failure? = some e ∨ ∃ e', cx.get Key.collector = .error e' ∧ e = .config e' := by
  unfold deliver at h
  cases hfail : c.failure? with
  | some stopped =>
    rw [hfail] at h
    split at h <;>
    · cases h
      exact .inl rfl
  | none =>
    rw [hfail] at h
    split at h
    · rename_i e' hget
      cases h
      exact .inr ⟨e', hget, rfl⟩
    · cases h

namespace Beside

variable (h : w.Beside R w')
include h

/-- A context refers to related managers, or fails to refer to any for the same reason. -/
theorem managerOf (cx : ContextMap) :
    (∃ e, w.managerOf cx = .error e ∧ w'.managerOf cx = .error e) ∨
      ∃ m m', R m m' ∧ w.managerOf cx = .ok m ∧ w'.managerOf cx = .ok m' := by
  unfold Workspace.managerOf
  cases cx.get Key.manager with
  | error e => exact .inl ⟨e, rfl, rfl⟩
  | ok id =>
    have hid := h.managers id
    dsimp only
    generalize w.manager? id = m? at hid
    generalize w'.manager? id = m?' at hid
    cases hid with
    | none => exact .inl ⟨_, rfl, rfl⟩
    | some hR => exact .inr ⟨_, _, hR, rfl, rfl⟩

/-- **A check fails alike before it starts, or runs with related managers.** -/
theorem runSemantics (cx : ContextMap) (t : FormulaTree) :
    w'.runSemantics cx t = w.runSemantics cx t ∨
      ∃ m m' scope, R m m' ∧ w.runSemantics cx t = Semantics.run m scope cx t ∧
        w'.runSemantics cx t = Semantics.run m' scope cx t := by
  unfold Workspace.runSemantics
  rcases h.managerOf cx with ⟨e, hm, hm'⟩ | ⟨m, m', hR, hm, hm'⟩
  · rw [hm, hm']
    exact .inl rfl
  · rw [hm, hm']
    cases cx.get Key.scope with
    | error e => exact .inl rfl
    | ok scope => exact .inr ⟨m, m', scope, hR, rfl, rfl⟩

/-- **So does an evaluation.** -/
theorem runEvaluation (cx : ContextMap) (t : FormulaTree) :
    w'.runEvaluation cx t = w.runEvaluation cx t ∨
      ∃ m m' i, R m m' ∧ w.runEvaluation cx t = Evaluation.run m i cx t ∧
        w'.runEvaluation cx t = Evaluation.run m' i cx t := by
  unfold Workspace.runEvaluation
  rcases h.managerOf cx with ⟨e, hm, hm'⟩ | ⟨m, m', hR, hm, hm'⟩
  · rw [hm, hm']
    exact .inl rfl
  · rw [hm, hm']
    cases cx.get Key.inst with
    | error e => exact .inl rfl
    | ok i => exact .inr ⟨m, m', i, hR, rfl, rfl⟩

/-- The same capture is delivered alike. -/
theorem deliver (cx : ContextMap) (c : Capture) :
    (w'.deliver cx c).1 = (w.deliver cx c).1 ∧
      (w'.deliver cx c).2.collectors = (w.deliver cx c).2.collectors := by
  unfold Workspace.deliver collected
  simp only [collectAll_eq, h.collectors]
  cases cx.get Key.collector with
  | error e => exact ⟨rfl, h.collectors⟩
  | ok id => cases c.failure? <;> exact ⟨rfl, rfl⟩

/-- **A capture answers and collects alike, or runs with related managers.** -/
theorem runDependency (cx : ContextMap) (t : FormulaTree) :
    ((w'.runDependency cx t).1 = (w.runDependency cx t).1 ∧
        (w'.runDependency cx t).2.collectors = (w.runDependency cx t).2.collectors) ∨
      ∃ m m' i, R m m' ∧
        w.runDependency cx t = w.deliver cx (Dependency.run m i cx t) ∧
        w'.runDependency cx t = w'.deliver cx (Dependency.run m' i cx t) := by
  rcases h.managerOf cx with ⟨e, hm, hm'⟩ | ⟨m, m', hR, hm, hm'⟩
  · simp only [Workspace.runDependency, hm, hm']
    exact .inl ⟨trivial, h.collectors⟩
  · cases hi : cx.get Key.inst with
    | error e =>
      simp only [Workspace.runDependency, hm, hm', hi]
      exact .inl ⟨trivial, h.collectors⟩
    | ok i =>
      exact .inr ⟨m, m', i, hR, runDependency_eq_deliver hm hi, runDependency_eq_deliver hm' hi⟩

end Beside

end Workspace

/-! ## A workspace to go by -/

namespace Sample

/-- A workspace with one manager, for which nothing is stored, and one collector. -/
def alone (m : FormulaManager) : Workspace where
  vocabularies := #[.fresh]
  engines := #[{ vocabulary := ⟨0⟩, stage := .made m }]
  collectors := #[{}]

/-- The manager of such a workspace, as it is seen there. -/
def seen (m : FormulaManager) : FormulaManager :=
  { m with names := .fresh, stored := ({} : VariableStore).get? }

/-- A context that tells each of the passes what it asks for. -/
def told : ContextMap :=
  (ContextFactory.plain.dependency ⟨0⟩ someone none ⟨0⟩).set Key.scope all

theorem beside_alone {R : FormulaManager → FormulaManager → Prop} {m m' : FormulaManager}
    (h : R (seen m) (seen m')) : (alone m).Beside R (alone m') where
  collectors := rfl
  managers
    | ⟨0⟩ => .some h
    | ⟨_ + 1⟩ => .none

end Sample

end Formulary
