import Formulary.Proofs.Dependency.Capture
import Formulary.Proofs.Evaluation.Dependence
import Formulary.Proofs.Evaluation.Preservation
import Formulary.Proofs.Semantics.Accumulation
/-!
# A check and a capture fail alike

A check goes on after an error and knows the libraries; a capture stops at its first
error and does not ask what a call is a call of. Of the errors of a check some say
that a name stands for nothing, that the formula is too deep, or that it is not in
order, and those a capture can meet too (`SemanticsError.asDependency?`). The two
walks meet the parts of a formula in one order, so a capture fails with the first
such error of a check (`firstShared?_check`), and goes through if there is none.
-/

namespace Formulary

/-- The call of no registered function with `amount` and with a conjunction of three: of
`amount`, of a name that nobody declared, and of an id that no node has. -/
def Sample.broken : FormulaTree where
  nodes := #[⟨.var amount, .dummy⟩, ⟨.var ⟨50⟩, .dummy⟩, ⟨.operator .and ⟨0, 3⟩, .dummy⟩,
    ⟨.call ⟨77⟩ ⟨3, 2⟩, .dummy⟩]
  args := #[⟨0⟩, ⟨1⟩, ⟨9⟩, ⟨0⟩, ⟨2⟩]
  root := ⟨3⟩

/-- The failure of a capture that says the same as an error of a check, if there is one. -/
def SemanticsError.asDependency? : SemanticsError → Option DependencyError
  | unresolvedVariable name scope span => some (.unresolvedVariable name scope span)
  | nestingTooDeep limit span => some (.nestingTooDeep limit span)
  | config e => some (.config e)
  | unknownFunction .. | unknownOperator .. | wrongArgCount .. | argumentFormatMismatch ..
  | noMatchingOverload .. | rootFormatMismatch .. => none

namespace Semantics

/-- The errors a check answered with that a capture could have met, in order. -/
def shared : Except (List SemanticsError) Format → List DependencyError
  | .ok _ => []
  | .error errors => errors.filterMap SemanticsError.asDependency?

/-- The first error that a capture could have met. -/
def firstShared? (errors : Findings SemanticsError) : Option DependencyError :=
  errors.toList.findSome? SemanticsError.asDependency?

variable {m : FormulaManager} {i : ScopeInstance} {scope : LegalScope} {t : FormulaTree}
variable {cx : ContextMap} {id : NodeId} {span : Span}

/-- An error of formats is none that a capture could meet, so the others decide. -/
theorem firstShared?_eq (errors : Findings SemanticsError) :
    firstShared? errors = (structural errors).findSome? SemanticsError.asDependency? := by
  unfold firstShared? structural
  induction errors.toList with
  | nil => rfl
  | cons e rest ih =>
    rw [List.findSome?_cons, List.filter_cons]
    cases hformats : e.ofFormats with
    | false =>
      rw [Bool.not_false, if_pos rfl, List.findSome?_cons, ih]
    | true =>
      have hnone : e.asDependency? = none := by
        cases e <;> first | rfl | cases hformats
      rw [hnone, ih]
      rfl

/-- What a list of errors shares with a capture starts with the first shared error. -/
theorem head?_shared_run :
    (shared (run m scope cx t)).head? =
      firstShared? (check m scope t m.config.maxTreeDepth cx t.root).errors := by
  have hshared : shared (run m scope cx t) =
      (errorsOf (run m scope cx t)).filterMap SemanticsError.asDependency? := by
    cases run m scope cx t <;> rfl
  rw [hshared, errorsOf_run, List.head?_filterMap]
  rfl

end Semantics

namespace Dependency

open Semantics

variable {m : FormulaManager} {i : ScopeInstance} {scope : LegalScope} {t : FormulaTree}
variable {cx cx' : ContextMap} {collector : CollectorId} {asserted : Option Format}

/-! ## Variables and calls -/

/-- **A name stands for nothing in both walks,** and for the same reason. -/
theorem firstShared?_checkVariable (hi : i.Mirrors)
    (hc : cx.get Key.collector = .ok collector) (name : Name) (span : Span) :
    firstShared? (checkVariable m i.scope name span).errors =
      (visitVariable m i cx name span).failure? := by
  unfold checkVariable visitVariable
  rw [FormulaManager.resolveInScope_eq_map_resolveName hi]
  cases m.resolveName i name with
  | ok v =>
    rw [hc]
    rfl
  | error e => cases e <;> rfl

section

variable {κ : Type} [BEq κ] {check : ContextMap → NodeId → Verdict} {c : Callee κ}

/-- **A call fails as the first of its arguments that fails,** known or not, and however
many arguments are expected of it. -/
theorem firstShared?_checkCall {faults : NodeId → List SemanticsError}
    (hcheck : ∀ slot arg, structural (check (cx.forArgument slot) arg).errors = faults arg)
    {unknown : SemanticsError} (hu : unknown.ofFormats = false)
    (hshared : unknown.asDependency? = none) (args? : Option (List NodeId)) :
    firstShared? (checkCall check cx c unknown args?).errors =
      match args? with
      | none => some (.config (.malformedTree c.node))
      | some args => args.findSome? fun arg =>
          (faults arg).findSome? SemanticsError.asDependency? := by
  rw [firstShared?_eq, structural_checkCall hcheck hu, List.findSome?_append]
  cases args? with
  | none => rfl
  | some args =>
    -- what is wrong with the callee no capture can meet
    have hcallee : (callFault? c unknown (some args)).toList.findSome?
        SemanticsError.asDependency? = none := by
      simp only [callFault?]
      split
      · exact (List.findSome?_singleton).trans hshared
      · split <;> rfl
    rw [hcallee, Option.none_or, Option.getD_some, findSome?_flatMap]

end

/-! ## Formulas -/

/-- **A capture fails with the first error of a check that it can meet.** -/
theorem firstShared?_check (hi : i.Mirrors) {levels : Nat} {id : NodeId}
    (ha : cx.get Key.asserted = .ok asserted) (hc : cx'.get Key.collector = .ok collector) :
    firstShared? (check m i.scope t levels cx id).errors =
      (visit m i t levels cx' id).failure? := by
  induction levels generalizing cx id asserted with
  | zero =>
    unfold check visit
    cases t.node? id <;> rfl
  | succ levels ih =>
    rcases hn : t.node? id with _ | node
    · simp only [check, visit, hn]
      rfl
    -- the arguments of a call are checked in contexts of their own, and captured in one
    have hcheck (slot : Option Format) (arg : NodeId) :
        structural (check m i.scope t levels (cx.forArgument slot) arg).errors =
          (t.positions levels arg).filterMap fun p =>
            fault? m i.scope t levels (0 + p.1.length + 1) p.2 :=
      structural_check (Nat.zero_add levels) (get_forArgument cx slot)
    have hfirst (arg : NodeId) : ((t.positions levels arg).filterMap fun p =>
        fault? m i.scope t levels (0 + p.1.length + 1) p.2).findSome?
          SemanticsError.asDependency? = (visit m i t levels cx' arg).failure? := by
      rw [← hcheck none arg, ← firstShared?_eq, ih (get_forArgument cx none)]
    have hcall {r : ArgRange} (hr : node.kind.range? = some r) :
        (visit m i t (levels + 1) cx' id).failure? =
          match t.args? r with
          | none => some (.config (.malformedTree id))
          | some args => args.findSome? fun arg => (visit m i t levels cx' arg).failure? := by
      rw [visit_succ_of_range hn hr]
      cases t.args? r with
      | none => rfl
      | some args => exact Capture.failure?_each _ args
    obtain ⟨kind, span⟩ := node
    simp only [check, hn]
    rw [firstShared?_eq, structural_checkAsserted ha, ← firstShared?_eq]
    simp only [← hfirst] at hcall
    cases kind with
    | literal value =>
      simp only [visit, hn]
      rfl
    | var name =>
      simp only [visit, hn]
      exact firstShared?_checkVariable hi hc name span
    | call function r => exact (firstShared?_checkCall hcheck rfl rfl _).trans (hcall rfl).symm
    | operator op r => exact (firstShared?_checkCall hcheck rfl rfl _).trans (hcall rfl).symm

/-- **A capture fails exactly where a check meets an error that a capture can meet,** and
with the first of them, for every formula, well formed or not. The instance is one of the
scope of the check; what is asked of the formula, and what the collector held before,
makes no difference. So a formula that is accepted can be captured for every instance of
the scope. -/
theorem runDependency_fails_as_checked {w : Workspace} {fm : ManagerId}
    (hw : w.manager? fm = some m) {handed : List ScopeInstance} (hm : m.Reached handed)
    (hs : scope ∈ m.scopes.scopes) (hi : i ∈ handed) (his : (i.scope == scope) = true)
    (t : FormulaTree) (asserted asserted' : Option Format) (collector : CollectorId) :
    let checked := w.runSemantics (ContextFactory.plain.semantics fm scope asserted) t
    let captured :=
      (w.runDependency (ContextFactory.plain.dependency fm i asserted' collector) t).1
    ((∃ d, captured = .ok d) ↔ shared checked = []) ∧
      (∀ e, captured = .error e ↔ (shared checked).head? = some e) ∧
      ∀ format, checked = .ok format → ∃ d, captured = .ok d := by
  intro checked captured
  obtain ⟨cx', hc, hrun⟩ := Workspace.runDependency_eq hw t i asserted' collector
  have hcaptured : captured = _ := hrun
  have hmanager : w.managerOf (ContextFactory.plain.semantics fm scope asserted) = .ok m := by
    have hget : (ContextFactory.plain.semantics fm scope asserted).get Key.manager = .ok fm := rfl
    simp only [Workspace.managerOf, hget, hw]
  have hscope : (ContextFactory.plain.semantics fm scope asserted).get Key.scope =
      .ok scope := rfl
  have hchecked : checked =
      Semantics.run m scope (ContextFactory.plain.semantics fm scope asserted) t := by
    simp only [checked, Workspace.runSemantics, hmanager, hscope]
  have hhead : (shared checked).head? = (run m i cx' t).failure? := by
    rw [hchecked, head?_shared_run, ← hm.scope_eq hi hs his]
    exact firstShared?_check (hm.mirrors hi) rfl hc
  have hok : (∃ d, captured = .ok d) ↔ shared checked = [] := by
    rw [← List.head?_eq_none_iff, hhead, hcaptured]
    cases (run m i cx' t).failure? <;> simp
  refine ⟨hok, fun e => ?_, fun format hformat => hok.2 ?_⟩
  · rw [hhead, hcaptured]
    cases (run m i cx' t).failure? <;> simp
  · rw [hformat]
    rfl

/-- The check of the broken formula also complains of the callee and of the number of its
conjuncts. A capture knows nothing of that; it fails with the name that nobody declared,
and does not come to the id without a node. -/
theorem runDependency_fails_broken :
    let checked :=
      Sample.workspace.runSemantics (ContextFactory.plain.semantics ⟨0⟩ Sample.all none)
        Sample.broken
    let captured := (Sample.workspace.runDependency
      (ContextFactory.plain.dependency ⟨0⟩ Sample.someone none ⟨0⟩) Sample.broken).1
    shared checked =
        [.unresolvedVariable "" "all" .dummy, .config (.malformedTree ⟨9⟩)] ∧
      captured = .error (.unresolvedVariable "" "all" .dummy) := by
  intro checked captured
  have hw : Sample.workspace.manager? ⟨0⟩ =
      some { Sample.manager with stored := ({} : VariableStore).get? } := rfl
  have hm : FormulaManager.Reached { Sample.manager with stored := ({} : VariableStore).get? }
      [Sample.someone] :=
    ⟨Sample.reached.scopes, Sample.reached.formats, Sample.reached.instances⟩
  have hshared : shared checked =
      [.unresolvedVariable "" "all" .dummy, .config (.malformedTree ⟨9⟩)] := rfl
  refine ⟨hshared, ?_⟩
  exact ((runDependency_fails_as_checked hw hm List.mem_cons_self List.mem_cons_self BEq.rfl
    Sample.broken none none ⟨0⟩).2.1 _).2 (congrArg List.head? hshared)

end Dependency

end Formulary
