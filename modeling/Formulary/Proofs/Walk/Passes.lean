import Formulary.Proofs.Semantics.Typing
import Formulary.Proofs.Walk.Balance
import Formulary.Walk.Passes
/-!
# The depth of the passes

The visits of a check, of a capture and of an evaluation are balanced (`leads_walk`): case by case
of what a node can be, and of what there is on the way to an answer. And they come to what the
passes come to, which know of no guard and recurse on the levels to go (`within_walk`). So the
depth of all three passes is accounted for (`accounted_passes`).
-/

namespace Formulary

open Walk

variable {κ : Type} {c : Callee κ} {cx : ContextMap} {id : NodeId}
variable {m : FormulaManager} {scope : LegalScope} {i : ScopeInstance} {tree : FormulaTree}
variable {limit : Nat} {room : Bool}

namespace Semantics

instance : Inhabited Verdict := ⟨⟨.empty, none⟩⟩

variable [BEq κ] {unknown : SemanticsError} {f : ContextMap → NodeId → Verdict}

theorem leads_walkUnconstrained (args : List NodeId) :
    (walkUnconstrained cx args).Leads .inside .inside :=
  (Leads.mapM (Leads.visit (cx.forArgument none)) args).bind fun _ => .pure _

theorem leads_walkKnownCall (args : List NodeId) :
    (walkKnownCall cx c args).Leads .inside .inside := by
  unfold walkKnownCall
  split
  · exact (leads_walkUnconstrained args).bind fun _ => .pure _
  · refine (Leads.mapM (fun _ => Leads.visit _ _) _).bind fun verdicts => ?_
    split
    · exact .pure _
    · split <;> exact .pure _

theorem leads_walkCall (args? : Option (List NodeId)) :
    (walkCall cx c unknown args?).Leads .inside .inside := by
  cases args? with
  | none => exact .pure _
  | some args =>
    simp only [walkCall]
    split
    · exact leads_walkKnownCall args
    · exact (leads_walkUnconstrained args).bind fun _ => .pure _

theorem leads_walkInside (node : Node) :
    (walkInside m scope tree cx id node).Leads .inside .inside := by
  unfold walkInside
  cases node.kind with
  | literal value => exact .pure _
  | var name => exact .pure _
  | call function args => exact leads_walkCall (tree.args? args)
  | operator op args => exact leads_walkCall (tree.args? args)

/-- **The visits of a check are balanced.** -/
theorem leads_walk (cx : ContextMap) (id : NodeId) :
    (walk m scope tree cx id).Leads .outside .outside := by
  unfold walk
  cases tree.node? id with
  | none => exact .pure _
  | some node => exact .level (leads_walkInside node)

@[simp] theorem outcome_walkUnconstrained (args : List NodeId) :
    (walkUnconstrained cx args).outcome limit room f = checkUnconstrained f cx args := by
  simp [walkUnconstrained, checkUnconstrained]

@[simp] theorem outcome_walkKnownCall (args : List NodeId) :
    (walkKnownCall cx c args).outcome limit room f = checkKnownCall f cx c args := by
  unfold walkKnownCall checkKnownCall
  cases c.library.expectedFormats c.key args.length with
  | none => simp
  | some expected =>
    simp only [outcome_bind, outcome_mapM, outcome_visit]
    cases Verdict.allFormats _ with
    | none => rfl
    | some formats =>
      dsimp only
      cases c.library.resultFormat c.key formats <;> rfl

@[simp] theorem outcome_walkCall (args? : Option (List NodeId)) :
    (walkCall cx c unknown args?).outcome limit room f = checkCall f cx c unknown args? := by
  cases args? with
  | none => rfl
  | some args =>
    simp only [walkCall, checkCall]
    split <;> simp

/-- **The visits of a check come to what the check comes to.** -/
theorem within_walk :
    Walk.within (walk m scope tree) m.config.maxTreeDepth = check m scope tree := by
  refine within_eq (fun f cx id => ?_) fun levels cx id => ?_
  · rw [walk, check]
    cases tree.node? id <;> rfl
  · rw [walk, check]
    cases tree.node? id with
    | none => rfl
    | some node =>
      obtain ⟨kind, span⟩ := node
      cases kind <;> simp [walkInside]

end Semantics

namespace Dependency

instance : Inhabited Capture := ⟨{}⟩

variable [BEq κ] {f : ContextMap → NodeId → Capture}

theorem leads_walkEach (args : List (NodeId × Option Format)) :
    (walkEach cx args).Leads .inside .inside := by
  induction args with
  | nil => exact .pure _
  | cons arg rest ih =>
    refine (Leads.visit _ _).bind fun c => ?_
    cases c.failure? with
    | some e => exact .pure _
    | none => exact ih.bind fun _ => .pure _

theorem leads_walkCall (args? : Option (List NodeId)) :
    (walkCall cx c args?).Leads .inside .inside := by
  cases args? with
  | none => exact .pure _
  | some args => exact leads_walkEach _

theorem leads_walkInside (node : Node) :
    (walkInside m i tree cx id node).Leads .inside .inside := by
  unfold walkInside
  cases node.kind with
  | literal value => exact .pure _
  | var name => exact .pure _
  | call function args => exact leads_walkCall (tree.args? args)
  | operator op args => exact leads_walkCall (tree.args? args)

/-- **The visits of a capture are balanced.** -/
theorem leads_walk (cx : ContextMap) (id : NodeId) :
    (walk m i tree cx id).Leads .outside .outside := by
  unfold walk
  cases tree.node? id with
  | none => exact .pure _
  | some node => exact .level (leads_walkInside node)

@[simp] theorem outcome_walkEach (args : List (NodeId × Option Format)) :
    (walkEach cx args).outcome limit room f =
      Capture.each (fun p => f (cx.forArgument p.2) p.1) args := by
  induction args with
  | nil => rfl
  | cons arg rest ih =>
    rw [Capture.each_cons, Capture.andThen, walkEach, outcome_bind, outcome_visit]
    cases (f (cx.forArgument arg.2) arg.1).failure? with
    | some e => rfl
    | none => simp [ih]

@[simp] theorem outcome_walkCall (args? : Option (List NodeId)) :
    (walkCall cx c args?).outcome limit room f = visitArguments f cx c args? := by
  cases args? with
  | none => rfl
  | some args => exact outcome_walkEach _

/-- **The visits of a capture come to what the capture comes to.** -/
theorem within_walk :
    Walk.within (walk m i tree) m.config.maxTreeDepth = visit m i tree := by
  refine within_eq (fun f cx id => ?_) fun levels cx id => ?_
  · rw [walk, visit]
    cases tree.node? id <;> rfl
  · rw [walk, visit]
    cases tree.node? id with
    | none => rfl
    | some node =>
      obtain ⟨kind, span⟩ := node
      cases kind <;> simp [walkInside]

end Dependency

namespace Evaluation

instance : Inhabited (Except EvalError Value) := ⟨.ok default⟩

variable {f : ContextMap → NodeId → Except EvalError Value}

/-! ### Attempts -/

section

variable {α γ : Type} {first : Side}

theorem leads_bind {w : Attempt α} {next : α → Attempt γ} (hw : w.run.Leads first first)
    (hnext : ∀ a, (next a).run.Leads first first) : (w >>= next).run.Leads first first := by
  refine Leads.bind hw fun result => ?_
  cases result with
  | ok a => exact hnext a
  | error e => exact .pure _

theorem leads_pure (a : α) : (pure a : Attempt α).run.Leads first first := .done

theorem leads_throw (e : EvalError) : (throw e : Attempt α).run.Leads first first := .done

theorem leads_liftExcept (x : Except EvalError α) :
    (liftExcept x : Attempt α).run.Leads first first := by
  cases x <;> exact .done

/-- Attempts for the members of a list lead as each of them does. -/
theorem leads_mapM {δ : Type} {attempt : δ → Attempt α}
    (h : ∀ d, (attempt d).run.Leads first first) (ds : List δ) :
    (ds.mapM attempt).run.Leads first first := by
  induction ds with
  | nil => exact leads_pure []
  | cons d ds ih =>
    rw [List.mapM_cons]
    exact leads_bind (h d) fun _ => leads_bind ih fun _ => leads_pure _

@[simp] theorem outcome_attempt_pure (a : α) :
    (pure a : Attempt α).run.outcome limit room f = .ok a := rfl

@[simp] theorem outcome_liftExcept (x : Except EvalError α) :
    (liftExcept x : Attempt α).run.outcome limit room f = x := by
  cases x <;> rfl

/-- What comes after an error does not count. -/
theorem outcome_attempt_bind (w : Attempt α) (next : α → Attempt γ) :
    (w >>= next).run.outcome limit room f =
      match w.run.outcome limit room f with
      | .error e => .error e
      | .ok a => (next a).run.outcome limit room f := by
  refine (outcome_bind _ _).trans ?_
  change (ExceptT.bindCont next (outcome limit room f w.run)).outcome limit room f = _
  cases outcome limit room f w.run <;> rfl

theorem outcome_attempt_mapM {δ : Type} (attempt : δ → Attempt α) (ds : List δ) :
    (ds.mapM attempt).run.outcome limit room f =
      ds.mapM fun d => (attempt d).run.outcome limit room f := by
  induction ds with
  | nil => rfl
  | cons d ds ih =>
    simp only [List.mapM_cons, outcome_attempt_bind, ih, outcome_attempt_pure]
    cases (attempt d).run.outcome limit room f with
    | error e => rfl
    | ok a => cases ds.mapM fun d => (attempt d).run.outcome limit room f <;> rfl

end

/-! ### The visits of an evaluation -/

theorem leads_walkArgument (arg : NodeId × Option Format) :
    (walkArgument cx arg).run.Leads .inside .inside :=
  Leads.visit _ _

theorem leads_walkChoice (condition ifTrue ifFalse : NodeId × Option Format) :
    (walkChoice cx c condition ifTrue ifFalse).run.Leads .inside .inside := by
  refine leads_bind (leads_walkArgument condition) fun value => ?_
  cases value.asTruth? with
  | none => exact leads_throw _
  | some taken => exact leads_bind (leads_walkArgument _) fun _ => leads_pure _

theorem outcome_walkArgument (arg : NodeId × Option Format) :
    (walkArgument cx arg).run.outcome limit room f = evalArgument f cx arg := rfl

theorem outcome_walkChoice (condition ifTrue ifFalse : NodeId × Option Format) :
    (walkChoice cx c condition ifTrue ifFalse).run.outcome limit room f =
      evalChoice f cx c condition ifTrue ifFalse := by
  simp only [walkChoice, evalChoice, outcome_attempt_bind, outcome_walkArgument]
  cases evalArgument f cx condition with
  | error e => rfl
  | ok value =>
    dsimp only
    cases value.asTruth? with
    | none => rfl
    | some taken =>
      simp only [outcome_attempt_bind, outcome_walkArgument, outcome_attempt_pure]
      rw [apply_ite (evalArgument f cx)]
      cases (if taken then evalArgument f cx ifTrue else evalArgument f cx ifFalse) <;> rfl

variable [BEq κ]

theorem leads_walkOperands (args : List NodeId) :
    (walkOperands cx c args).run.Leads .inside .inside := by
  have heach (args : List (NodeId × Option Format)) :
      (args.mapM (walkArgument cx)).run.Leads .inside .inside :=
    leads_mapM leads_walkArgument args
  unfold walkOperands
  split
  · exact leads_bind (leads_walkChoice _ _ _) fun _ => leads_pure _
  · refine leads_bind (leads_walkArgument _) fun value => ?_
    split
    · exact leads_pure _
    · exact leads_bind (heach _) fun _ => leads_pure _
  · exact leads_bind (heach _) fun _ => leads_pure _

theorem leads_walkCall (args? : Option (List NodeId)) :
    (walkCall cx c args?).run.Leads .inside .inside := by
  cases args? with
  | none => exact leads_throw _
  | some args =>
    simp only [walkCall]
    split
    · refine leads_bind (leads_walkOperands args) fun operands => ?_
      cases operands with
      | settled value => exact leads_pure _
      | all values => exact leads_liftExcept _
    · exact leads_throw _

theorem leads_walkInside (node : Node) :
    (walkInside m i tree cx id node).run.Leads .inside .inside := by
  unfold walkInside
  cases node.kind with
  | literal value => exact leads_pure _
  | var name => exact leads_liftExcept _
  | call function args => exact leads_walkCall (tree.args? args)
  | operator op args => exact leads_walkCall (tree.args? args)

/-- **The visits of an evaluation are balanced.** -/
theorem leads_walk (cx : ContextMap) (id : NodeId) :
    (walk m i tree cx id).Leads .outside .outside := by
  unfold walk
  cases tree.node? id with
  | none => exact .pure _
  | some node => exact .level (leads_walkInside node)

theorem outcome_walkOperands (args : List NodeId) :
    (walkOperands cx c args).run.outcome limit room f = evalOperands f cx c args := by
  have hmap (args : List (NodeId × Option Format)) (g : List Value → Operands) :
      (do let values ← args.mapM (walkArgument cx); return g values : Attempt Operands).run.outcome
        limit room f = (args.mapM (evalArgument f cx)).map g := by
    simp only [outcome_attempt_bind, outcome_attempt_mapM, outcome_walkArgument,
      outcome_attempt_pure]
    cases args.mapM fun arg => evalArgument f cx arg <;> rfl
  unfold walkOperands evalOperands
  generalize c.withExpected args = pairs
  cases c.library.strategy c.key with
  | eager => exact hmap pairs .all
  | shortCircuit stop =>
    cases pairs with
    | nil => exact hmap [] .all
    | cons first rest =>
      simp only [outcome_attempt_bind, outcome_walkArgument]
      cases evalArgument f cx first with
      | error e => rfl
      | ok value =>
        dsimp only
        split
        · rfl
        · exact hmap rest fun values => .all (value :: values)
  | select =>
    match pairs with
    | [condition, ifTrue, ifFalse] =>
      simp only [outcome_attempt_bind, outcome_walkChoice, outcome_attempt_pure]
      cases evalChoice f cx c condition ifTrue ifFalse <;> rfl
    | [] => exact hmap [] .all
    | [_] => exact hmap _ .all
    | [_, _] => exact hmap _ .all
    | _ :: _ :: _ :: _ :: _ => exact hmap _ .all

theorem outcome_walkCall (args? : Option (List NodeId)) :
    (walkCall cx c args?).run.outcome limit room f = evalCall f cx c args? := by
  cases args? with
  | none => rfl
  | some args =>
    simp only [walkCall, evalCall]
    split
    · rw [outcome_attempt_bind, outcome_walkOperands]
      cases evalOperands f cx c args with
      | error e => rfl
      | ok operands =>
        cases operands with
        | settled value => rfl
        | all values => exact outcome_liftExcept _
    · rfl

/-- **The visits of an evaluation come to what the evaluation comes to.** -/
theorem within_walk :
    Walk.within (walk m i tree) m.config.maxTreeDepth = eval m i tree := by
  refine within_eq (fun f cx id => ?_) fun levels cx id => ?_
  · rw [walk, eval]
    cases tree.node? id <;> rfl
  · rw [walk, eval]
    cases tree.node? id with
    | none => rfl
    | some node =>
      obtain ⟨kind, span⟩ := node
      cases kind <;> simp [walkInside, outcome_walkCall]

end Evaluation

/-- **The depth of all three passes is accounted for,** on any tree, from any depth within any
limit. If the limit is that of the manager, their visits come to what the passes come to. -/
theorem accounted_passes (m : FormulaManager) (scope : LegalScope) (i : ScopeInstance)
    (tree : FormulaTree) (g : DepthGuard) (hg : g.depth ≤ g.limit) (cx : ContextMap) (id : NodeId) :
    (∃ check, Descent.Accounted (Semantics.walk m scope tree) check g cx id ∧
      (g.limit = m.config.maxTreeDepth → check = Semantics.check m scope tree)) ∧
    (∃ visit, Descent.Accounted (Dependency.walk m i tree) visit g cx id ∧
      (g.limit = m.config.maxTreeDepth → visit = Dependency.visit m i tree)) ∧
    ∃ eval, Descent.Accounted (Evaluation.walk m i tree) eval g cx id ∧
      (g.limit = m.config.maxTreeDepth → eval = Evaluation.eval m i tree) := by
  refine ⟨⟨_, Descent.accounted Semantics.leads_walk hg, fun h => ?_⟩,
    ⟨_, Descent.accounted Dependency.leads_walk hg, fun h => ?_⟩,
    ⟨_, Descent.accounted Evaluation.leads_walk hg, fun h => ?_⟩⟩
  · rw [h, Semantics.within_walk]
  · rw [h, Dependency.within_walk]
  · rw [h, Evaluation.within_walk]

namespace Sample

/-- A manager whose formulas may nest two levels. -/
def narrow : FormulaManager := { manager with config := { maxTreeDepth := 2 } }

/-- A conjunction of itself with a node that there is not. -/
def knotted : FormulaTree where
  nodes := #[⟨.operator .and ⟨0, 2⟩, .dummy⟩]
  args := #[⟨0⟩, ⟨7⟩]
  root := ⟨0⟩

end Sample

/-- Begun one level in, the conjunction may be entered once. All three passes are refused at the
second visit, and the check goes on to the second argument. They end one level in. -/
theorem accounted_passes_knotted :
    (⟨1, 2⟩ : DepthGuard).depth ≤ (⟨1, 2⟩ : DepthGuard).limit ∧
      (∃ v : Verdict, v.errors.toList = [.nestingTooDeep 2 .dummy, .config (.malformedTree ⟨7⟩)] ∧
        Descent.Run (Semantics.walk Sample.narrow Sample.all Sample.knotted)
          (.start (Semantics.walk Sample.narrow Sample.all Sample.knotted) ⟨1, 2⟩ [] {} ⟨0⟩)
          ⟨⟨1, 2⟩, ⟨1, 2⟩, .done v, []⟩) ∧
      (∃ c : Capture, c.failure? = some (.nestingTooDeep 2 .dummy) ∧
        Descent.Run (Dependency.walk Sample.narrow Sample.someone Sample.knotted)
          (.start (Dependency.walk Sample.narrow Sample.someone Sample.knotted) ⟨1, 2⟩ [] {} ⟨0⟩)
          ⟨⟨1, 2⟩, ⟨1, 2⟩, .done c, []⟩) ∧
      Descent.Run (Evaluation.walk Sample.narrow Sample.someone Sample.knotted)
        (.start (Evaluation.walk Sample.narrow Sample.someone Sample.knotted) ⟨1, 2⟩ [] {} ⟨0⟩)
        ⟨⟨1, 2⟩, ⟨1, 2⟩, .done (.error (.nestingTooDeep 2 .dummy)), []⟩ := by
  have hdepth : (⟨1, 2⟩ : DepthGuard).depth ≤ (⟨1, 2⟩ : DepthGuard).limit := by decide
  obtain ⟨⟨check, hcheck, checks⟩, ⟨visit, hvisit, visits⟩, eval, heval, evals⟩ :=
    accounted_passes Sample.narrow Sample.all Sample.someone Sample.knotted ⟨1, 2⟩ hdepth {} ⟨0⟩
  obtain rfl := checks rfl
  obtain rfl := visits rfl
  obtain rfl := evals rfl
  exact ⟨hdepth, ⟨_, rfl, hcheck.ends _ .refl⟩, ⟨_, rfl, hvisit.ends _ .refl⟩, heval.ends _ .refl⟩

end Formulary
