import Formulary.Proofs.Dependency.Capture
import Formulary.Proofs.Evaluation.Progress
import Formulary.Proofs.Library.Enlargement
import Formulary.Proofs.Workspace
/-!
# More overloads break nothing

A host adds overloads to the libraries of a manager (`FormulaManager.Enlarged`). Overloads
of one key may then agree on less, and so less is expected of arguments. By the rules for
formats that is no matter, and a part keeps the format that it has (`HasFormat.enlarged`):
a formula that was accepted is accepted. An evaluation tells arguments what is expected of
them and does not hold them to it, and a call comes to the overload to which it came; so
what was worked out is worked out (`eval_enlarged`). A capture does not heed the libraries at
all (`visit_enlarged`).
-/

namespace Formulary

namespace FormulaManager

/-- The manager with other libraries. -/
def withLibraries (m : FormulaManager) (functions : Library Name) (operators : Library Operator) :
    FormulaManager := { m with functions, operators }

/-- A manager, and the same after overloads were added to its libraries. -/
def Enlarged (m m' : FormulaManager) : Prop :=
  ∃ functions operators, m' = m.withLibraries functions operators ∧
    (m.functions.Made ∧ m.functions.Enlarges functions) ∧
    (m.operators.Made ∧ m.operators.Enlarges operators)

end FormulaManager

variable {m : FormulaManager} {functions : Library Name} {operators : Library Operator}
variable {i : ScopeInstance} {scope : LegalScope} {t : FormulaTree} {cx cx' : ContextMap}
variable {id : NodeId} {levels : Nat} {format : Format} {value : Value}

/-! ## Checks -/

/-- **A part keeps its format.** -/
theorem HasFormat.enlarged (hf : m.functions.Enlarges functions)
    (ho : m.operators.Enlarges operators) (hu : t.Unfolds levels id)
    (h : HasFormat m scope t id format) :
    HasFormat (m.withLibraries functions operators) scope t id format := by
  induction levels generalizing id format with
  | zero => exact absurd hu FormulaTree.not_unfolds_zero
  | succ levels ih =>
    have hargs {node : Node} {r : ArgRange} {args : List NodeId} {formats : List Format}
        (hn : t.node? id = some node) (hr : node.kind.range? = some r) (ha : t.args? r = some args)
        (h : List.Forall₂ (HasFormat m scope t) args formats) :
        List.Forall₂ (HasFormat (m.withLibraries functions operators) scope t) args formats :=
      ((List.forall₂_and_left _ _).2 ⟨fun arg harg => hu.down hn hr ha harg, h⟩).imp
        fun arg f harg => ih harg.1 harg.2
    cases h with
    | number hn => exact .number hn
    | text hn => exact .text hn
    | truth hn => exact .truth hn
    | var hn hd => exact .var hn hd
    | call hn ha h hg => exact .call hn ha (hargs hn rfl ha h) (hf.gives hg)
    | operator hn ha h hg => exact .operator hn ha (hargs hn rfl ha h) (ho.gives hg)

namespace Semantics

/-- **What was accepted is accepted, with the same format.** -/
theorem run_enlarged (hmf : m.functions.Made) (hmo : m.operators.Made)
    (hf : m.functions.Enlarges functions) (ho : m.operators.Enlarges operators)
    (h : run m scope cx t = .ok format) :
    run (m.withLibraries functions operators) scope cx t = .ok format := by
  have hformat := format?_of_run h
  cases ha : cx.get Key.asserted with
  | error e => exact absurd hformat (format?_check_of_get_error ha)
  | ok asserted =>
    obtain ⟨hunfold, htyped, hasked⟩ := (format?_check_iff hmf hmo ha).1 hformat
    have henlarged : (check (m.withLibraries functions operators) scope t m.config.maxTreeDepth cx
        t.root).format? = some format :=
      (format?_check_iff (hf.made hmf) (ho.made hmo) ha).2
        ⟨hunfold, htyped.enlarged hf ho hunfold, hasked⟩
    have hconfig : (m.withLibraries functions operators).config = m.config := rfl
    simp only [run, hconfig, henlarged, errors_check henlarged, Findings.toList_empty]

end Semantics

/-! ## Captures -/

/-- **A capture does not heed the libraries.** -/
theorem Dependency.visit_enlarged :
    visit (m.withLibraries functions operators) i t levels cx id = visit m i t levels cx id := by
  induction levels generalizing cx id with
  | zero =>
    unfold visit
    rfl
  | succ levels ih =>
    have hsame : visit (m.withLibraries functions operators) i t levels cx =
        visit m i t levels cx := funext fun arg => ih
    cases hn : t.node? id with
    | none => simp only [visit, hn]
    | some node =>
      cases hr : node.kind.range? with
      | some r => rw [visit_succ_of_range hn hr, visit_succ_of_range hn hr, hsame]
      | none =>
        obtain ⟨kind, span⟩ := node
        simp only [visit, hn]
        cases kind with
        | literal value | var name => rfl
        | call function r | operator op r => cases hr

/-! ## Evaluations -/

namespace Evaluation

section

variable {κ : Type} [BEq κ] {c c' : Callee κ} {args : List NodeId}
variable {eval eval' : ContextMap → NodeId → Except EvalError Value}
variable (heval : ∀ arg value, HasValue eval cx arg value →
  ∀ slot, eval' (cx'.forArgument slot) arg = .ok value)
include heval

/-- Arguments that are worked out are so whatever is expected of them. -/
theorem mapM_evalArgument_enlarged {pairs pairs' : List (NodeId × Option Format)}
    (hsame : pairs.map Prod.fst = pairs'.map Prod.fst) {values : List Value}
    (h : pairs.mapM (evalArgument eval cx) = .ok values) :
    pairs'.mapM (evalArgument eval' cx') = .ok values := by
  have hvalues := forall₂_of_mapM_evalArgument h
  rw [hsame, List.forall₂_map_left_iff] at hvalues
  exact mapM_eq_ok_iff.2 (hvalues.imp fun p value hv => heval p.1 value hv p.2)

omit [BEq κ] in
theorem evalChoice_enlarged {condition ifTrue ifFalse condition' ifTrue' ifFalse' :
    NodeId × Option Format} (hcondition : condition.1 = condition'.1)
    (hifTrue : ifTrue.1 = ifTrue'.1) (hifFalse : ifFalse.1 = ifFalse'.1) {values : List Value}
    (h : evalChoice eval cx c condition ifTrue ifFalse = .ok values) :
    evalChoice eval' cx' c' condition' ifTrue' ifFalse' = .ok values := by
  obtain ⟨taken, branch, rfl, hc, hb⟩ := evalChoice_eq_ok h
  rw [hcondition] at hc
  rw [hifTrue, hifFalse] at hb
  have hvalue : evalArgument eval' cx' condition' = .ok (.truth taken) := heval _ _ hc _
  have hbranch := heval _ _ hb (if taken then ifTrue' else ifFalse').2
  simp only [evalChoice, hvalue, Value.asTruth?, evalArgument_ite, hbranch]

/-- **Operands that were worked out are those of the same callee in an enlarged library.** -/
theorem evalOperands_enlarged {operands : Operands}
    (hstrategy : c'.library.strategy c'.key = c.library.strategy c.key)
    (h : evalOperands eval cx c args = .ok operands) :
    evalOperands eval' cx' c' args = .ok operands := by
  have hsame : (c.withExpected args).map Prod.fst = (c'.withExpected args).map Prod.fst :=
    (c.map_fst_withExpected args).trans (c'.map_fst_withExpected args).symm
  unfold evalOperands at h ⊢
  rw [hstrategy]
  generalize c.withExpected args = pairs at h hsame
  generalize c'.withExpected args = pairs' at hsame ⊢
  have hids : List.Forall₂ Eq (pairs.map Prod.fst) (pairs'.map Prod.fst) := by
    rw [List.forall₂_eq_eq_eq, hsame]
  have hpairs : List.Forall₂ (fun p p' => p.1 = p'.1) pairs pairs' :=
    List.forall₂_map_left_iff.1 (List.forall₂_map_right_iff.1 hids)
  have hall (h : (pairs.mapM (evalArgument eval cx)).map Operands.all = .ok operands) :
      (pairs'.mapM (evalArgument eval' cx')).map Operands.all = .ok operands := by
    obtain ⟨values, hvalues, rfl⟩ := map_eq_ok_iff.1 h
    rw [mapM_evalArgument_enlarged heval hsame hvalues]
    rfl
  -- the lists have one length, so the strategy comes to the same case
  generalize c.library.strategy c.key = strategy at h
  cases strategy with
  | eager => exact hall h
  | select =>
    rcases hpairs with _ | ⟨h₁, _ | ⟨h₂, _ | ⟨h₃, _ | _⟩⟩⟩
    case cons.cons.cons.nil =>
      obtain ⟨values, hvalues, rfl⟩ := map_eq_ok_iff.1 h
      exact congrArg (Except.map Operands.all) (evalChoice_enlarged heval h₁ h₂ h₃ hvalues)
    all_goals exact hall h
  | shortCircuit stop =>
    cases hpairs with
    | nil => exact hall h
    | @cons first first' rest rest' h₁ _ =>
      dsimp only at h ⊢
      cases hfirst : evalArgument eval cx first with
      | error e =>
        rw [hfirst] at h
        cases h
      | ok value =>
        have hvalue : evalArgument eval' cx' first' = .ok value :=
          heval _ _ (h₁ ▸ ⟨first.2, hfirst⟩) _
        simp only [hfirst] at h
        simp only [hvalue]
        split at h
        · rename_i hstop
          rw [if_pos hstop]
          exact h
        · rename_i hgoes
          obtain ⟨values, hvalues, rfl⟩ := map_eq_ok_iff.1 h
          rw [if_neg hgoes, mapM_evalArgument_enlarged heval (List.cons.inj hsame).2 hvalues]
          rfl

/-- **A call that has a value has it in an enlarged library.** -/
theorem evalCall_enlarged {l : Library κ} [LawfulBEq κ] (hl : c.library.Enlarges l)
    (htol : cx'.get Key.tolerance = cx.get Key.tolerance) {args? : Option (List NodeId)}
    (h : evalCall eval cx c args? = .ok value) :
    evalCall eval' cx' { c with library := l } args? = .ok value := by
  cases args? with
  | none => cases h
  | some args =>
    rcases evalCall_eq_ok_iff.1 h with ⟨hknown, hsettled⟩ | ⟨o, context, values, hrun, hnative⟩
    · exact evalCall_eq_ok_iff.2 (.inl ⟨hl.contains hknown,
        evalOperands_enlarged heval (hl.strategy_eq c.key) hsettled⟩)
    · refine evalCall_eq_ok_iff.2 (.inr ⟨o, context, values, ⟨?_, ?_, ?_⟩, hnative⟩)
      · exact evalOperands_enlarged heval (hl.strategy_eq c.key) hrun.operands
      · rw [htol]
        exact hrun.context
      · exact hl.select_eq_ok hrun.chosen

end

/-- **What was worked out is worked out, with the same value.** -/
theorem eval_enlarged (hf : m.functions.Enlarges functions)
    (ho : m.operators.Enlarges operators) (htol : cx'.get Key.tolerance = cx.get Key.tolerance)
    (h : eval m i t levels cx id = .ok value) :
    eval (m.withLibraries functions operators) i t levels cx' id = .ok value := by
  induction levels generalizing cx cx' id value with
  | zero =>
    unfold eval at h
    split at h <;> cases h
  | succ levels ih =>
    have hargs (arg : NodeId) (value : Value) (hv : HasValue (eval m i t levels) cx arg value)
        (slot : Option Format) : eval (m.withLibraries functions operators) i t levels
          (cx'.forArgument slot) arg = .ok value := by
      obtain ⟨slot', hv⟩ := hv
      refine ih ?_ hv
      rw [get_tolerance_forArgument, get_tolerance_forArgument, htol]
    cases hn : t.node? id with
    | none =>
      simp only [eval, hn] at h
      cases h
    | some node =>
      obtain ⟨kind, span⟩ := node
      simp only [eval, hn] at h ⊢
      cases kind with
      | literal value => exact h
      | var name => exact h
      | call function r => exact evalCall_enlarged hargs hf htol h
      | operator op r => exact evalCall_enlarged hargs ho htol h

end Evaluation

/-! ## Passes -/

namespace Sample

/-- The standard operators, where texts can be compared as well. -/
def moreOperators : Library Operator :=
  manager.operators.register .lt ⟨[.text, .text], .truth⟩ Standard.inequality

/-- Numbers were all that could be compared. -/
theorem enlarges_moreOperators : manager.operators.Enlarges moreOperators :=
  .register .refl (by decide)

theorem beside_withLibraries {m : FormulaManager} {functions : Library Name}
    {operators : Library Operator} (hf : m.functions.Made ∧ m.functions.Enlarges functions)
    (ho : m.operators.Made ∧ m.operators.Enlarges operators) :
    (alone m).Beside FormulaManager.Enlarged (alone (m.withLibraries functions operators)) :=
  beside_alone ⟨functions, operators, rfl, hf, ho⟩

theorem beside_moreOperators : (alone manager).Beside FormulaManager.Enlarged
    (alone (manager.withLibraries manager.functions moreOperators)) :=
  beside_withLibraries ⟨(Standard.builtOf_installFunctions .fresh).made, .refl⟩
    ⟨Standard.builtOf_installOperators.made, enlarges_moreOperators⟩

end Sample

namespace Workspace

/-- **More overloads break nothing.** What was accepted is accepted with the same format, and
what had a value has that value, although what did not may come to something now. A capture
comes to the same in any case. -/
theorem outcome_of_enlarged {w w' : Workspace} (h : w.Beside FormulaManager.Enlarged w')
    (cx : ContextMap) (t : FormulaTree) :
    (∀ format, w.runSemantics cx t = .ok format → w'.runSemantics cx t = .ok format) ∧
      (∀ value, w.runEvaluation cx t = .ok value → w'.runEvaluation cx t = .ok value) ∧
      (w'.runDependency cx t).1 = (w.runDependency cx t).1 ∧
        (w'.runDependency cx t).2.collectors = (w.runDependency cx t).2.collectors := by
  refine ⟨fun format hok => ?_, fun value hok => ?_, ?_⟩
  · rcases h.runSemantics cx t with hsame | ⟨m, _, scope, ⟨functions, operators, rfl, hf, ho⟩,
      hrun, hrun'⟩
    · exact hsame.trans hok
    · rw [hrun] at hok
      rw [hrun']
      exact Semantics.run_enlarged hf.1 ho.1 hf.2 ho.2 hok
  · rcases h.runEvaluation cx t with hsame | ⟨m, _, i, ⟨functions, operators, rfl, hf, ho⟩,
      hrun, hrun'⟩
    · exact hsame.trans hok
    · rw [hrun] at hok
      rw [hrun']
      exact Evaluation.eval_enlarged hf.2 ho.2 rfl hok
  · rcases h.runDependency cx t with hsame | ⟨m, _, i, ⟨functions, operators, rfl, -, -⟩,
      hrun, hrun'⟩
    · exact hsame
    · have hvisit : Dependency.run (m.withLibraries functions operators) i cx t =
          Dependency.run m i cx t := Dependency.visit_enlarged
      rw [hrun, hrun', hvisit]
      exact h.deliver cx _

/-- When texts can be compared too, nothing is expected of what is compared in the sample.
It is accepted and worked out as before. -/
theorem outcome_of_enlarged_guarded :
    (Sample.alone Sample.manager).Beside FormulaManager.Enlarged
        (Sample.alone (Sample.manager.withLibraries Sample.manager.functions
          Sample.moreOperators)) ∧
      Sample.manager.operators.expectedFormats .lt 2 = some [some .number, some .number] ∧
      Sample.moreOperators.expectedFormats .lt 2 = some [none, none] ∧
      (Sample.alone (Sample.manager.withLibraries Sample.manager.functions
        Sample.moreOperators)).runSemantics Sample.told Sample.guarded = .ok .truth ∧
      (Sample.alone (Sample.manager.withLibraries Sample.manager.functions
        Sample.moreOperators)).runEvaluation Sample.told Sample.guarded = .ok (.truth false) := by
  have hsemantics : (Sample.alone Sample.manager).runSemantics Sample.told Sample.guarded =
      .ok .truth := rfl
  have heval : (Sample.alone Sample.manager).runEvaluation Sample.told Sample.guarded =
      .ok (.truth false) := rfl
  obtain ⟨hcheck, hvalue, -⟩ :=
    outcome_of_enlarged Sample.beside_moreOperators Sample.told Sample.guarded
  exact ⟨Sample.beside_moreOperators, rfl, rfl, hcheck _ hsemantics, hvalue _ heval⟩

end Workspace

end Formulary
