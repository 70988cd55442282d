import Formulary.Proofs.Evaluation.Dependence
import Formulary.Proofs.Workspace
/-!
# What a capture that goes through rules out

An evaluation for an instance fails for want of its walk (`EvalError.ofWalk`) if a name stands
for no variable there, if the chain of scopes or the formula itself is too deep, or if the
formula is not in order. A capture for the instance goes to every part of the formula and
stops at each of these. So where it goes through, no evaluation fails with any of them
(`ofWalk_of_visit`): it walks some of the parts, with the same number of levels to go, and
what else it does at a call is to ask the libraries and the tolerance. That takes no check,
and it does not matter which functions there are, and what is stored.
-/

namespace Formulary

/-- Whether the error is that a chain of scopes or a formula could not be followed. -/
def ConfigError.ofWalk : ConfigError → Bool
  | malformedTree _ | scopeChainTooDeep .. => true
  | _ => false

/-- Whether the error is that a part of the formula could not be walked for the instance: a
name in it stands for nothing, it or the chain of scopes is too deep, or it is not in order. -/
def EvalError.ofWalk : EvalError → Bool
  | unresolvedVariable .. | nestingTooDeep .. => true
  | config e => e.ofWalk
  | _ => false

/-- What a context does not hold has nothing to do with a formula. -/
theorem ContextMap.ofWalk_of_get {kind : ContextKind} {cx : ContextMap} {key : Key kind}
    {e : ConfigError} (h : cx.get key = .error e) : e.ofWalk = false := by
  unfold get at h
  split at h
  · split at h
    · cases h
    · cases h
      rfl
  · split at h
    · cases h
    · cases h
      rfl

namespace Evaluation

variable {m m' : FormulaManager} {i : ScopeInstance} {t : FormulaTree} {cx cx' : ContextMap}
variable {levels : Nat} {id : NodeId} {e : EvalError}

/-! ## Calls -/

section

variable {κ : Type} [BEq κ] {c : Callee κ} {args : List NodeId}
variable {eval : ContextMap → NodeId → Except EvalError Value}

/-- A library that does not answer complains of what it is given, and of its tolerance. -/
theorem ofWalk_of_answer {values : List Value} (h : answer cx c values = .error e) :
    e.ofWalk = false := by
  unfold answer at h
  split at h
  · rename_i e' he
    cases h
    exact ContextMap.ofWalk_of_get he
  · rw [CallContext.withTolerance_eq] at h
    split at h
    · rename_i e' he
      split at he
      · cases he
      · cases he
        cases h
        rfl
    · rename_i context _
      cases hevaluate : c.library.evaluate c.key context values with
      | ok value =>
        rw [hevaluate] at h
        cases h
      | error e' =>
        rw [hevaluate] at h
        cases h
        cases e' <;> rfl

/-- **A call whose arguments can be walked does not fail for want of that.** -/
theorem ofWalk_of_evalCall (hargs : ∀ arg ∈ args, ∀ e, Fails eval cx arg e → e.ofWalk = false)
    (h : evalCall eval cx c (some args) = .error e) : e.ofWalk = false := by
  rcases evalCall_eq_error h with ⟨arg, harg, he⟩ | ⟨values, he⟩ | rfl | ⟨found, rfl⟩
  · exact hargs arg harg e he
  · exact ofWalk_of_answer he
  · rfl
  · rfl

end

/-! ## Parts that a capture goes through -/

section

variable (hdeclarations : m'.declarations = m.declarations)
variable (hlimit : m'.config.maxScopeDepth = m.config.maxScopeDepth)
include hdeclarations hlimit

/-- A variable that is captured stands for something. -/
theorem ofWalk_of_visitVariable {name : Name} {span : Span}
    (h : (Dependency.visitVariable m i cx name span).failure? = none)
    (he : evalVariable m' i name span = .error e) : e.ofWalk = false := by
  unfold Dependency.visitVariable FormulaManager.resolveName VariableLibrary.resolve at h
  unfold evalVariable FormulaManager.resolveName VariableLibrary.resolve at he
  rw [hdeclarations, hlimit] at he
  cases hlook : nearest (fun j => m.declarations.declaredFormat? j.scope name)
      m.config.maxScopeDepth i.ancestors with
  | found place format =>
    simp only [hlook] at he
    split at he
    · cases he
    · cases he
      rfl
  | tooDeep | missing =>
    simp only [hlook] at h
    cases h

/-- **A part that a capture goes through can be walked** by every evaluation with as many
levels to go. -/
theorem ofWalk_of_visit (h : (Dependency.visit m i t levels cx id).failure? = none)
    (he : eval m' i t levels cx' id = .error e) : e.ofWalk = false := by
  induction levels generalizing cx cx' id e with
  | zero =>
    unfold Dependency.visit at h
    split at h <;> cases h
  | succ levels ih =>
    cases hn : t.node? id with
    | none =>
      simp only [Dependency.visit, hn] at h
      cases h
    | some node =>
      obtain ⟨kind, span⟩ := node
      have hcall {κ : Type} [BEq κ] {c : Callee κ} {r : ArgRange}
          (hr : kind.range? = some r)
          (he : evalCall (eval m' i t levels) cx' c (t.args? r) = .error e) :
          e.ofWalk = false := by
        rw [Dependency.visit_succ_of_range hn hr] at h
        cases ha : t.args? r with
        | none =>
          rw [ha] at h
          cases h
        | some args =>
          rw [ha] at h he
          -- the capture went through all arguments, and the evaluation walks some of them
          refine ofWalk_of_evalCall (fun arg harg e hfails => ?_) he
          obtain ⟨slot, hfails⟩ := hfails
          exact ih (Capture.of_each h harg).1 hfails
      simp only [eval, hn] at he
      cases kind with
      | literal value => cases he
      | var name =>
        simp only [Dependency.visit, hn] at h
        exact ofWalk_of_visitVariable hdeclarations hlimit h he
      | call function r => exact hcall rfl he
      | operator op r => exact hcall rfl he

end

end Evaluation

/-! ## Workspaces -/

/-- A call of no registered function with `amount` and with its negation. No check lets
it through, and each of its names stands for a variable. -/
def Sample.unchecked : FormulaTree where
  nodes := #[⟨.var amount, .dummy⟩, ⟨.operator .not ⟨0, 1⟩, .dummy⟩, ⟨.call ⟨77⟩ ⟨0, 2⟩, .dummy⟩]
  args := #[⟨0⟩, ⟨1⟩]
  root := ⟨2⟩

namespace Workspace

variable {w w' : Workspace} {m m' : FormulaManager} {cx cx' : ContextMap} {t : FormulaTree}
variable {d : DependencySet}

/-- A capture that is answered for an instance went through. -/
theorem failure?_of_runDependency {i : ScopeInstance} (hm : w.managerOf cx = .ok m)
    (hi : cx.get Key.inst = .ok i) (hd : (w.runDependency cx t).1 = .ok d) :
    (Dependency.run m i cx t).failure? = none := by
  rw [runDependency_eq_deliver hm hi] at hd
  cases hfail : (Dependency.run m i cx t).failure? with
  | none => rfl
  | some e =>
    rw [deliver_of_failure? hfail] at hd
    cases hd

/-- **Where a capture for an instance answers, no evaluation for it fails for want of its
walk.** The two may take place in different workspaces, in contexts that tell them different
things, and with managers that have different libraries and stores. They have the
declarations and the limits in common. -/
theorem ofWalk_of_runDependency (hm : w.managerOf cx = .ok m) (hm' : w'.managerOf cx' = .ok m')
    (hdeclarations : m'.declarations = m.declarations) (hconfig : m'.config = m.config)
    (hinst : cx'.get Key.inst = cx.get Key.inst) (hd : (w.runDependency cx t).1 = .ok d) :
    ∀ e, w'.runEvaluation cx' t = .error e → e.ofWalk = false := by
  intro e he
  cases hi : cx.get Key.inst with
  | error e' =>
    simp only [runDependency, hm, hi] at hd
    cases hd
  | ok i =>
    simp only [runEvaluation, hm', hinst.trans hi, Evaluation.run, hconfig] at he
    exact Evaluation.ofWalk_of_visit hdeclarations (congrArg _ hconfig)
      (failure?_of_runDependency hm hi hd) he

/-- A formula that no check lets through is captured, and its evaluation fails because of its
function. -/
theorem ofWalk_unchecked :
    ((Sample.alone Sample.manager).runDependency Sample.told Sample.unchecked).1 =
        .ok ⟨[⟨Sample.someone, Sample.amount, .number, ""⟩]⟩ ∧
      (Sample.alone Sample.manager).runEvaluation Sample.told Sample.unchecked =
        .error (.unknownFunction "" .dummy) ∧
      (EvalError.unknownFunction "" .dummy).ofWalk = false := by
  have hm : (Sample.alone Sample.manager).managerOf Sample.told = .ok (Sample.seen Sample.manager) :=
    rfl
  have hd : ((Sample.alone Sample.manager).runDependency Sample.told Sample.unchecked).1 =
      .ok ⟨[⟨Sample.someone, Sample.amount, .number, ""⟩]⟩ := rfl
  have he : (Sample.alone Sample.manager).runEvaluation Sample.told Sample.unchecked =
      .error (.unknownFunction "" .dummy) := rfl
  exact ⟨hd, he, ofWalk_of_runDependency hm hm rfl rfl rfl hd _ he⟩

end Workspace

end Formulary
