import Formulary.Proofs.Dependency.Capture
import Formulary.Proofs.Evaluation.Operands
import Formulary.Proofs.Semantics.Accumulation
import Formulary.Proofs.Semantics.Visits
import Formulary.Proofs.Workspace
/-!
# Limits only reject

An engine limits how many levels of a formula it walks and how many scopes of a chain it
searches. A walk that comes to a limit ends there with an error that says so. A walk that
comes to none never asks what the limits are, so with higher ones it takes the same steps
(`check_eq_or_hitsLimit`, `visit_eq_or_hitsLimit`, `eval_eq_or_hitsLimit`).

Each of these is proved down the levels, and at a call argument by argument. What is
carried is that a part comes to the same, or to an error of a limit. Such an error of an
argument is one of its call: a check collects all errors, and the other two walks stop at
their first.
-/

namespace Formulary

/-! ## Errors of limits -/

/-- Whether the error is that a limit was met. -/
def ConfigError.ofLimits : ConfigError → Bool
  | scopeChainTooDeep .. => true
  | _ => false

@[inherit_doc ConfigError.ofLimits]
def SemanticsError.ofLimits : SemanticsError → Bool
  | nestingTooDeep .. => true
  | config e => e.ofLimits
  | _ => false

@[inherit_doc ConfigError.ofLimits]
def DependencyError.ofLimits : DependencyError → Bool
  | nestingTooDeep .. => true
  | config e => e.ofLimits
  | _ => false

@[inherit_doc ConfigError.ofLimits]
def EvalError.ofLimits : EvalError → Bool
  | nestingTooDeep .. => true
  | config e => e.ofLimits
  | _ => false

/-- An error of the verdict is that a limit was met. -/
def Verdict.HitsLimit (v : Verdict) : Prop := ∃ e ∈ v.errors.toList, e.ofLimits = true

/-- The capture was stopped by a limit. -/
def Capture.HitsLimit (c : Capture) : Prop := ∃ e, c.failure? = some e ∧ e.ofLimits = true

/-- The evaluation was stopped by a limit. -/
def Evaluation.HitsLimit {α : Type} (x : Except EvalError α) : Prop :=
  ∃ e, x = .error e ∧ e.ofLimits = true

namespace FormulaManager

/-- The manager with other limits. -/
def withConfig (m : FormulaManager) (config : FormulaConfig) : FormulaManager := { m with config }

/-- A manager and the same with limits that are no lower. -/
def Loosened (m m' : FormulaManager) : Prop :=
  ∃ config, m' = m.withConfig config ∧ m.config.maxScopeDepth ≤ config.maxScopeDepth ∧
    m.config.maxTreeDepth ≤ config.maxTreeDepth

end FormulaManager

variable {m : FormulaManager} {config : FormulaConfig} {i : ScopeInstance} {scope : LegalScope}
variable {t : FormulaTree} {cx : ContextMap} {id : NodeId} {name : Name} {span : Span}
variable {levels levels' : Nat}

/-! ## Names -/

/-- A search that does not come to its limit ends where it ends with a higher one. -/
theorem nearest_of_le {α : Type} (format? : α → Option Format) (places : List α)
    {limit limit' : Nat} (h : limit ≤ limit') (hdeep : nearest format? limit places ≠ .tooDeep) :
    nearest format? limit' places = nearest format? limit places := by
  induction places generalizing limit limit' with
  | nil => cases limit <;> cases limit' <;> rfl
  | cons place rest ih =>
    cases limit with
    | zero => exact absurd rfl hdeep
    | succ limit =>
      obtain ⟨limit', rfl⟩ : ∃ k, limit' = k + 1 := Nat.exists_eq_add_one.2 (by omega)
      simp only [nearest] at hdeep ⊢
      cases hplace : format? place with
      | some format => rfl
      | none =>
        rw [hplace] at hdeep
        exact ih (Nat.le_of_succ_le_succ h) hdeep

section

variable (hscope : m.config.maxScopeDepth ≤ config.maxScopeDepth)
include hscope

/-- **A name that is resolved, or is not declared, is so with higher limits.** -/
theorem resolveName_eq_or_tooDeep :
    (m.withConfig config).resolveName i name = m.resolveName i name ∨
      ∃ e, m.resolveName i name = .error (.config e) ∧ e.ofLimits = true := by
  have hmono := nearest_of_le (fun j => m.declarations.declaredFormat? j.scope name) i.ancestors
    hscope
  dsimp only [FormulaManager.resolveName, VariableLibrary.resolve, FormulaManager.withConfig]
  cases hlook : nearest (fun j => m.declarations.declaredFormat? j.scope name)
      m.config.maxScopeDepth i.ancestors with
  | tooDeep => exact .inr ⟨_, rfl, rfl⟩
  | found place format | missing =>
    rw [hlook] at hmono
    rw [hmono (by simp)]
    exact .inl rfl

@[inherit_doc resolveName_eq_or_tooDeep]
theorem resolveInScope_eq_or_tooDeep :
    (m.withConfig config).resolveInScope scope name = m.resolveInScope scope name ∨
      ∃ e, m.resolveInScope scope name = .error (.config e) ∧ e.ofLimits = true := by
  have hmono := nearest_of_le (fun s => m.declarations.declaredFormat? s name) scope.ancestors
    hscope
  dsimp only [FormulaManager.resolveInScope, VariableLibrary.resolveInScope,
    FormulaManager.withConfig]
  cases hlook : nearest (fun s => m.declarations.declaredFormat? s name)
      m.config.maxScopeDepth scope.ancestors with
  | tooDeep => exact .inr ⟨_, rfl, rfl⟩
  | found place format | missing =>
    rw [hlook] at hmono
    rw [hmono (by simp)]
    exact .inl rfl

end

/-! ## Checks -/

namespace Semantics

/-- What is asked of a part takes no error away. -/
theorem hitsLimit_checkAsserted {v : Verdict} (h : v.HitsLimit) :
    (checkAsserted t cx id span v).HitsLimit := by
  obtain ⟨e, he, hlimit⟩ := h
  refine ⟨e, ?_, hlimit⟩
  unfold checkAsserted
  split
  · exact he
  · split
    · simp [he]
    · exact he
    · split
      · exact he
      · split <;> simp [he]

section

variable {κ : Type} [BEq κ] {c : Callee κ} {unknown : SemanticsError}

/-- The verdict on a call has the errors of the verdicts on its arguments. -/
theorem hitsLimit_judgeCall {args : List NodeId} {verdicts : List Verdict} {v : Verdict}
    (hv : v ∈ verdicts) (h : v.HitsLimit) : (judgeCall c unknown (some args) verdicts).HitsLimit := by
  obtain ⟨e, he, hlimit⟩ := h
  have hall : e ∈ (Verdict.allErrors verdicts).toList := by
    rw [Verdict.allErrors, Findings.toList_flatten, List.flatMap_map]
    exact List.mem_flatMap.2 ⟨v, hv, he⟩
  refine ⟨e, ?_, hlimit⟩
  unfold judgeCall
  dsimp only
  split
  · split
    · simp [hall]
    · split
      · exact hall
      · split <;> simp [hall]
  · simp [hall]

/-- **A call that is checked comes to the same if its arguments do.** -/
theorem checkCall_eq_or_hitsLimit {f f' : ContextMap → NodeId → Verdict}
    (h : ∀ cx arg, f' cx arg = f cx arg ∨ (f cx arg).HitsLimit) (args? : Option (List NodeId)) :
    checkCall f' cx c unknown args? = checkCall f cx c unknown args? ∨
      (checkCall f cx c unknown args?).HitsLimit := by
  rw [checkCall_eq_judgeCall, checkCall_eq_judgeCall]
  cases args? with
  | none => exact .inl rfl
  | some args =>
    dsimp only [Option.map_some, Option.getD_some]
    rcases map_eq_or_exists (fun p => h (cx.forArgument p.2) p.1) (c.withExpected args) with
      hsame | ⟨v, hv, hlimit⟩
    · rw [hsame]
      exact .inl rfl
    · exact .inr (hitsLimit_judgeCall hv hlimit)

end

/-- A variable that is checked comes to the same, or its chain is too deep. -/
theorem checkVariable_eq_or_hitsLimit
    (hscope : m.config.maxScopeDepth ≤ config.maxScopeDepth) (name : Name) (span : Span) :
    checkVariable (m.withConfig config) scope name span = checkVariable m scope name span ∨
      (checkVariable m scope name span).HitsLimit := by
  unfold checkVariable
  rcases resolveInScope_eq_or_tooDeep hscope with h | ⟨e, he, hlimit⟩
  · rw [h]
    exact .inl rfl
  · rw [he]
    exact .inr ⟨.config e, List.mem_singleton_self _, hlimit⟩

/-- **A check that meets no limit is the same with higher limits.** -/
theorem check_eq_or_hitsLimit (hscope : m.config.maxScopeDepth ≤ config.maxScopeDepth)
    (hlevels : levels ≤ levels') :
    check (m.withConfig config) scope t levels' cx id = check m scope t levels cx id ∨
      (check m scope t levels cx id).HitsLimit := by
  induction levels generalizing levels' cx id with
  | zero =>
    unfold check
    cases t.node? id with
    | none => exact .inl rfl
    | some node => exact .inr ⟨_, List.mem_singleton_self _, rfl⟩
  | succ levels ih =>
    obtain ⟨levels', rfl⟩ := Nat.exists_eq_add_one.2 (Nat.lt_of_lt_of_le levels.succ_pos hlevels)
    have hargs (cx : ContextMap) (arg : NodeId) :
        check (m.withConfig config) scope t levels' cx arg = check m scope t levels cx arg ∨
          (check m scope t levels cx arg).HitsLimit := ih (Nat.le_of_succ_le_succ hlevels)
    have hasserted {span : Span} {v v' : Verdict} (h : v' = v ∨ v.HitsLimit) :
        checkAsserted t cx id span v' = checkAsserted t cx id span v ∨
          (checkAsserted t cx id span v).HitsLimit :=
      h.imp (congrArg _) hitsLimit_checkAsserted
    simp only [check]
    cases t.node? id with
    | none => exact .inl rfl
    | some node =>
      obtain ⟨kind, span⟩ := node
      cases kind with
      | literal value => exact .inl rfl
      | var name => exact hasserted (checkVariable_eq_or_hitsLimit hscope name span)
      | call function r => exact hasserted (checkCall_eq_or_hitsLimit hargs (t.args? r))
      | operator op r => exact hasserted (checkCall_eq_or_hitsLimit hargs (t.args? r))

end Semantics

/-! ## Captures -/

/-- What was stopped by a limit is not taken up again. -/
theorem Capture.HitsLimit.andThen {c : Capture} (h : c.HitsLimit) (next : Unit → Capture) :
    (c.andThen next).HitsLimit := by
  obtain ⟨e, he, hlimit⟩ := h
  refine ⟨e, ?_, hlimit⟩
  rw [Capture.failure?_andThen, he, Option.some_or]

/-- **A list that is captured comes to the same if its members do.** -/
theorem Capture.each_eq_or_hitsLimit {α : Type} {capture capture' : α → Capture}
    (h : ∀ a, capture' a = capture a ∨ (capture a).HitsLimit) (as : List α) :
    Capture.each capture' as = .each capture as ∨ (Capture.each capture as).HitsLimit := by
  induction as with
  | nil => exact .inl rfl
  | cons a as ih =>
    rw [Capture.each_cons, Capture.each_cons]
    rcases h a with ha | ha
    · rw [ha]
      rcases ih with has | ⟨e, he, hlimit⟩
      · rw [has]
        exact .inl rfl
      · cases hfirst : (capture a).failure? with
        | some e =>
          -- the first member stopped the capture, so the others are not asked
          refine .inl ?_
          simp only [Capture.andThen, hfirst]
        | none =>
          refine .inr ⟨e, ?_, hlimit⟩
          rw [Capture.failure?_andThen, hfirst, Option.none_or, he]
    · exact .inr (ha.andThen _)

namespace Dependency

theorem visitVariable_eq_or_hitsLimit
    (hscope : m.config.maxScopeDepth ≤ config.maxScopeDepth) (name : Name) (span : Span) :
    visitVariable (m.withConfig config) i cx name span = visitVariable m i cx name span ∨
      (visitVariable m i cx name span).HitsLimit := by
  unfold visitVariable
  rcases resolveName_eq_or_tooDeep hscope with h | ⟨e, he, hlimit⟩
  · rw [h]
    exact .inl rfl
  · rw [he]
    exact .inr ⟨.config e, rfl, hlimit⟩

/-- **A capture that meets no limit is the same with higher limits.** -/
theorem visit_eq_or_hitsLimit (hscope : m.config.maxScopeDepth ≤ config.maxScopeDepth)
    (hlevels : levels ≤ levels') :
    visit (m.withConfig config) i t levels' cx id = visit m i t levels cx id ∨
      (visit m i t levels cx id).HitsLimit := by
  induction levels generalizing levels' cx id with
  | zero =>
    unfold visit
    cases t.node? id with
    | none => exact .inl rfl
    | some node => exact .inr ⟨_, rfl, rfl⟩
  | succ levels ih =>
    obtain ⟨levels', rfl⟩ := Nat.exists_eq_add_one.2 (Nat.lt_of_lt_of_le levels.succ_pos hlevels)
    have hcall {κ : Type} [BEq κ] (c : Callee κ) (args? : Option (List NodeId)) :
        visitArguments (visit (m.withConfig config) i t levels') cx c args? =
            visitArguments (visit m i t levels) cx c args? ∨
          (visitArguments (visit m i t levels) cx c args?).HitsLimit := by
      cases args? with
      | none => exact .inl rfl
      | some args =>
        exact Capture.each_eq_or_hitsLimit (fun p => ih (Nat.le_of_succ_le_succ hlevels)) _
    simp only [visit]
    cases t.node? id with
    | none => exact .inl rfl
    | some node =>
      obtain ⟨kind, span⟩ := node
      cases kind with
      | literal value => exact .inl rfl
      | var name => exact visitVariable_eq_or_hitsLimit hscope name span
      | call function r => exact hcall _ (t.args? r)
      | operator op r => exact hcall _ (t.args? r)

end Dependency

/-! ## Evaluations -/

namespace Evaluation

theorem evalVariable_eq_or_hitsLimit
    (hscope : m.config.maxScopeDepth ≤ config.maxScopeDepth) (name : Name) (span : Span) :
    evalVariable (m.withConfig config) i name span = evalVariable m i name span ∨
      HitsLimit (evalVariable m i name span) := by
  unfold evalVariable
  rcases resolveName_eq_or_tooDeep hscope with h | ⟨e, he, hlimit⟩
  · rw [h]
    exact .inl rfl
  · rw [he]
    exact .inr ⟨.config e, rfl, hlimit⟩

section

variable {κ : Type} [BEq κ] {c : Callee κ} {eval eval' : ContextMap → NodeId → Except EvalError Value}
variable (h : ∀ cx arg, eval' cx arg = eval cx arg ∨ HitsLimit (eval cx arg))
include h

/-- **A call that is worked out comes to the same if its arguments do.** -/
theorem evalCall_eq_or_hitsLimit (args? : Option (List NodeId)) :
    evalCall eval' cx c args? = evalCall eval cx c args? ∨ HitsLimit (evalCall eval cx c args?) := by
  cases args? with
  | none => exact .inl rfl
  | some args =>
    exact sameUnless_evalCall (List.forall₂_same.2 fun arg _ slot => h (cx.forArgument slot) arg)
      c.node fun _ => .inl rfl

end

/-- **An evaluation that meets no limit is the same with higher limits.** -/
theorem eval_eq_or_hitsLimit (hscope : m.config.maxScopeDepth ≤ config.maxScopeDepth)
    (hlevels : levels ≤ levels') :
    eval (m.withConfig config) i t levels' cx id = eval m i t levels cx id ∨
      HitsLimit (eval m i t levels cx id) := by
  induction levels generalizing levels' cx id with
  | zero =>
    unfold eval
    cases t.node? id with
    | none => exact .inl rfl
    | some node => exact .inr ⟨_, rfl, rfl⟩
  | succ levels ih =>
    obtain ⟨levels', rfl⟩ := Nat.exists_eq_add_one.2 (Nat.lt_of_lt_of_le levels.succ_pos hlevels)
    have hargs (cx : ContextMap) (arg : NodeId) :
        eval (m.withConfig config) i t levels' cx arg = eval m i t levels cx arg ∨
          HitsLimit (eval m i t levels cx arg) := ih (Nat.le_of_succ_le_succ hlevels)
    simp only [eval]
    cases t.node? id with
    | none => exact .inl rfl
    | some node =>
      obtain ⟨kind, span⟩ := node
      cases kind with
      | literal value => exact .inl rfl
      | var name => exact evalVariable_eq_or_hitsLimit hscope name span
      | call function r => exact evalCall_eq_or_hitsLimit hargs (t.args? r)
      | operator op r => exact evalCall_eq_or_hitsLimit hargs (t.args? r)

end Evaluation

/-! ## Passes -/

namespace Sample

/-- The workspace whose manager searches one scope and walks three levels. -/
def tight : Workspace := alone (manager.withConfig { maxScopeDepth := 1, maxTreeDepth := 3 })

/-- The workspace whose manager has the usual limits. -/
def loose : Workspace := alone (manager.withConfig {})

theorem beside_loose : tight.Beside FormulaManager.Loosened loose :=
  beside_alone ⟨{}, rfl, by decide, by decide⟩

end Sample

namespace Workspace

section

variable {w w' : Workspace} (h : w.Beside FormulaManager.Loosened w')
include h

theorem runSemantics_of_loosened
    (hfree : ∀ e ∈ Semantics.errorsOf (w.runSemantics cx t), e.ofLimits = false) :
    w'.runSemantics cx t = w.runSemantics cx t := by
  rcases h.runSemantics cx t with hsame | ⟨m, _, scope, ⟨config, rfl, hscope, hdepth⟩, hrun, hrun'⟩
  · exact hsame
  · rw [hrun] at hfree
    rw [hrun, hrun']
    have hcheck : Semantics.check (m.withConfig config) scope t config.maxTreeDepth cx t.root =
          Semantics.check m scope t m.config.maxTreeDepth cx t.root ∨
        (Semantics.check m scope t m.config.maxTreeDepth cx t.root).HitsLimit :=
      Semantics.check_eq_or_hitsLimit hscope hdepth
    rcases hcheck with hsame | ⟨e, he, hlimit⟩
    · unfold Semantics.run
      rw [← hsame]
      rfl
    · rw [← Semantics.errorsOf_run] at he
      exact absurd hlimit (by simp [hfree e he])

theorem runDependency_of_loosened
    (hfree : ∀ e, (w.runDependency cx t).1 = .error e → e.ofLimits = false) :
    (w'.runDependency cx t).1 = (w.runDependency cx t).1 ∧
      (w'.runDependency cx t).2.collectors = (w.runDependency cx t).2.collectors := by
  rcases h.runDependency cx t with hsame | ⟨m, _, i, ⟨config, rfl, hscope, hdepth⟩, hrun, hrun'⟩
  · exact hsame
  · rw [hrun] at hfree ⊢
    rw [hrun']
    have hvisit : Dependency.run (m.withConfig config) i cx t = Dependency.run m i cx t ∨
        (Dependency.run m i cx t).HitsLimit := Dependency.visit_eq_or_hitsLimit hscope hdepth
    rcases hvisit with hsame | ⟨e, he, hlimit⟩
    · rw [hsame]
      exact h.deliver cx _
    · exact absurd hlimit (by simp [hfree e (deliver_of_failure? he)])

theorem runEvaluation_of_loosened
    (hfree : ∀ e, w.runEvaluation cx t = .error e → e.ofLimits = false) :
    w'.runEvaluation cx t = w.runEvaluation cx t := by
  rcases h.runEvaluation cx t with hsame | ⟨m, _, i, ⟨config, rfl, hscope, hdepth⟩, hrun, hrun'⟩
  · exact hsame
  · rw [hrun] at hfree
    rw [hrun, hrun']
    have heval : Evaluation.run (m.withConfig config) i cx t = Evaluation.run m i cx t ∨
        Evaluation.HitsLimit (Evaluation.run m i cx t) :=
      Evaluation.eval_eq_or_hitsLimit hscope hdepth
    rcases heval with hsame | ⟨e, he, hlimit⟩
    · exact hsame
    · exact absurd hlimit (by simp [hfree e he])

end

/-- **Higher limits change no outcome that a limit did not cause.** A check, a capture or an
evaluation whose outcome has no error of a limit has the same outcome with limits that are
no lower, and a capture has collected the same. -/
theorem outcome_of_loosened {w w' : Workspace} (h : w.Beside FormulaManager.Loosened w')
    (cx : ContextMap) (t : FormulaTree) :
    ((∀ e ∈ Semantics.errorsOf (w.runSemantics cx t), e.ofLimits = false) →
        w'.runSemantics cx t = w.runSemantics cx t) ∧
      ((∀ e, (w.runDependency cx t).1 = .error e → e.ofLimits = false) →
        (w'.runDependency cx t).1 = (w.runDependency cx t).1 ∧
          (w'.runDependency cx t).2.collectors = (w.runDependency cx t).2.collectors) ∧
      ((∀ e, w.runEvaluation cx t = .error e → e.ofLimits = false) →
        w'.runEvaluation cx t = w.runEvaluation cx t) :=
  ⟨runSemantics_of_loosened h, runDependency_of_loosened h, runEvaluation_of_loosened h⟩

/-- With three levels to walk and one scope to search, the sample is checked, captured and
worked out, so with the usual limits it comes to the same. -/
theorem outcome_of_loosened_guarded :
    Sample.tight.Beside FormulaManager.Loosened Sample.loose ∧
      Sample.tight.runSemantics Sample.told Sample.guarded = .ok .truth ∧
      Sample.tight.runEvaluation Sample.told Sample.guarded = .ok (.truth false) ∧
      Sample.loose.runSemantics Sample.told Sample.guarded = .ok .truth ∧
      (Sample.loose.runDependency Sample.told Sample.guarded).1 =
        (Sample.tight.runDependency Sample.told Sample.guarded).1 ∧
      Sample.loose.runEvaluation Sample.told Sample.guarded = .ok (.truth false) := by
  have hsemantics : Sample.tight.runSemantics Sample.told Sample.guarded = .ok .truth := rfl
  have hdependency : ∃ d, (Sample.tight.runDependency Sample.told Sample.guarded).1 = .ok d :=
    ⟨_, rfl⟩
  have heval : Sample.tight.runEvaluation Sample.told Sample.guarded = .ok (.truth false) := rfl
  obtain ⟨d, hd⟩ := hdependency
  obtain ⟨hcheck, hcapture, hvalue⟩ :=
    outcome_of_loosened Sample.beside_loose Sample.told Sample.guarded
  refine ⟨Sample.beside_loose, hsemantics, heval, ?_, ?_, ?_⟩
  · rw [hcheck (by rw [hsemantics]; simp [Semantics.errorsOf]), hsemantics]
  · exact (hcapture (by rw [hd]; simp)).1
  · rw [hvalue (by rw [heval]; simp), heval]

end Workspace

end Formulary
