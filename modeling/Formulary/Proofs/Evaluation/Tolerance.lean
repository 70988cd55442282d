import Formulary.Proofs.Evaluation.Dispatch
import Formulary.Proofs.Evaluation.Progress
import Formulary.Proofs.Workspace
/-!
# Evaluations with a tolerance that is none

A tolerance is no tolerance if it is below zero or no number. A call reads the tolerance
when its arguments have been worked out and the library is to be asked. So with one that is
none it fails then, unless an error was met before, which is one that is met with any
tolerance (`sameUnless_eval`).

A short circuit that its first argument settles does not come so far. It has the value of
that argument, whatever the tolerance is, and may itself settle another short circuit. A
value of a call is always one that comes up in this way (`ComesUp`) from a literal or a
variable, along first arguments and through short circuits that stop there: all other calls
fail (`eval_eq_ok_truth_iff`, `exists_of_eval_call`).
-/

namespace Formulary

/-! ## Tolerances -/

/-- A float that is not at least zero is below zero or no number. -/
theorem not_nonneg_iff (x : Float) : ¬ x ≥ 0 ↔ x < 0 ∨ x.isNaN = true := by
  have hzero : (0 : Float).toModel.unpack = .zero .positive := rfl
  change ¬ decide ((0 : Float).toModel ≤ x.toModel) = true ↔
    decide (x.toModel < (0 : Float).toModel) = true ∨ x.toModel.unpack.isNaN = true
  rw [decide_eq_true_iff, decide_eq_true_iff]
  change ¬ (0 : Float).toModel.unpack.le x.toModel.unpack = true ↔
    x.toModel.unpack.lt (0 : Float).toModel.unpack = true ∨ x.toModel.unpack.isNaN = true
  rw [hzero]
  -- what a float is compared with is a zero, so its class and its sign decide
  rcases x.toModel.unpack with sign | _ | sign | ⟨sign, _, _, _⟩
  · cases sign <;> decide
  · decide
  · cases sign <;> decide
  · cases sign with
    | positive => exact iff_of_false (fun h => h rfl) fun h => h.elim nofun nofun
    | negative => exact iff_of_true nofun (.inl rfl)

namespace Evaluation

/-- A truth value that a part has whatever the tolerance is: that of a literal or of a
variable, or that of the first argument of a short circuit, if it stops there. It comes up
from so many levels below. -/
inductive ComesUp (m : FormulaManager) (i : ScopeInstance) (t : FormulaTree) (b : Bool) :
    Nat → NodeId → Prop
  | literal {id : NodeId} {span : Span} (hn : t.node? id = some ⟨.literal (.truth b), span⟩) :
      ComesUp m i t b 0 id
  | var {id : NodeId} {name : Name} {span : Span} (hn : t.node? id = some ⟨.var name, span⟩)
      (hv : evalVariable m i name span = .ok (.truth b)) : ComesUp m i t b 0 id
  | settled {k : Nat} {id first : NodeId}
      (hcall : m.AtCall t id fun c args =>
        c.library.strategy c.key = .shortCircuit b ∧ args.head? = some first)
      (hfirst : ComesUp m i t b k first) : ComesUp m i t b (k + 1) id

variable {m : FormulaManager} {i : ScopeInstance} {t : FormulaTree} {cx cx' : ContextMap}
variable {levels : Nat} {id : NodeId} {b : Bool} {x : Float} {value : Value}

/-! ## Calls -/

section

variable {κ : Type} [BEq κ] {c : Callee κ} {args : List NodeId}
variable {eval : ContextMap → NodeId → Except EvalError Value}

/-- **A short circuit has the value of its first argument, if it stops there.** The tolerance
is not read. -/
theorem evalCall_of_stop {first : NodeId} (hs : c.library.strategy c.key = .shortCircuit b)
    (hhead : args.head? = some first)
    (h : ∀ slot, eval (cx.forArgument slot) first = .ok (.truth b)) :
    evalCall eval cx c (some args) = .ok (.truth b) := by
  have hknown : c.library.contains c.key = true :=
    Library.contains_of_strategy_ne (by rw [hs]; exact fun h => by cases h)
  have hfst := c.map_fst_withExpected args
  have hoperands : evalOperands eval cx c args = .ok (.settled (.truth b)) := by
    unfold evalOperands
    cases hpairs : c.withExpected args with
    | nil =>
      rw [hpairs] at hfst
      rw [← hfst] at hhead
      cases hhead
    | cons p rest =>
      rw [hpairs] at hfst
      rw [← hfst, List.map_cons, List.head?_cons, Option.some.injEq] at hhead
      simp only [hs, evalArgument, hhead, h p.2, Value.asTruth?, if_true]
  simp only [evalCall, if_pos hknown, hoperands]

section

variable (hx : x < 0 ∨ x.isNaN = true) (hcx : cx.get Key.tolerance = .ok x)
include hx hcx

/-- The library is not asked with a tolerance that is none. -/
theorem answer_of_refused (values : List Value) :
    answer cx c values = .error (.config (.negativeTolerance x)) := by
  rw [answer, hcx]
  dsimp only
  rw [CallContext.withTolerance_eq, if_neg ((not_nonneg_iff x).2 hx)]

/-- **A call that has a value nevertheless is a short circuit that stops at its first
argument.** -/
theorem stop_of_evalCall {args? : Option (List NodeId)} (h : evalCall eval cx c args? = .ok value) :
    ∃ args stop first, args? = some args ∧ c.library.strategy c.key = .shortCircuit stop ∧
      args.head? = some first ∧ value = .truth stop ∧ HasValue eval cx first (.truth stop) := by
  cases args? with
  | none => cases h
  | some args =>
    simp only [evalCall] at h
    split at h
    · split at h
      · cases h
      · rename_i settled hoperands
        cases h
        cases evalOperands_eq_ok hoperands with
        | settled hs hfirst => exact ⟨_, _, _, rfl, hs, rfl, rfl, hfirst⟩
      · rw [answer_of_refused hx hcx] at h
        cases h
    · cases h

end

end

/-! ## Parts of a formula -/

section

variable (hx : x < 0 ∨ x.isNaN = true) (hcx : cx.get Key.tolerance = .ok x)
include hx hcx

/-- **A part comes to what it comes to with any tolerance,** unless it fails because of the
one that is none. -/
theorem sameUnless_eval (cx' : ContextMap) :
    SameUnless (· = .config (.negativeTolerance x)) (eval m i t levels cx id)
      (eval m i t levels cx' id) := by
  induction levels generalizing cx cx' id with
  | zero => exact .inl (by unfold eval; rfl)
  | succ levels ih =>
    have hcall {κ : Type} [BEq κ] (c : Callee κ) (args? : Option (List NodeId)) :
        SameUnless (· = .config (.negativeTolerance x)) (evalCall (eval m i t levels) cx c args?)
          (evalCall (eval m i t levels) cx' c args?) := by
      cases args? with
      | none => exact .inl rfl
      | some args =>
        exact sameUnless_evalCall (List.forall₂_same.2 fun arg _ slot =>
            ih ((get_tolerance_forArgument cx slot).trans hcx) (cx'.forArgument slot))
          c.node fun values => .inr ⟨_, answer_of_refused hx hcx values, rfl⟩
    simp only [eval]
    cases t.node? id with
    | none => exact .inl rfl
    | some node =>
      obtain ⟨kind, span⟩ := node
      cases kind with
      | literal literal => exact .inl rfl
      | var name => exact .inl rfl
      | call function r => exact hcall _ _
      | operator op r => exact hcall _ _

/-- A call that has a value is a short circuit, and has the value on which it stops. -/
theorem exists_of_eval_call {node : Node} {r : ArgRange} (hn : t.node? id = some node)
    (hr : node.kind.range? = some r) (h : eval m i t (levels + 1) cx id = .ok value) :
    ∃ stop first, value = .truth stop ∧ (m.AtCall t id fun c args =>
        c.library.strategy c.key = .shortCircuit stop ∧ args.head? = some first) ∧
      ∃ slot, eval m i t levels (cx.forArgument slot) first = .ok (.truth stop) := by
  obtain ⟨kind, span⟩ := node
  simp only [eval, hn] at h
  cases kind with
  | literal literal | var name => cases hr
  | call function r' =>
    obtain ⟨args, stop, first, ha, hs, hhead, rfl, hfirst⟩ := stop_of_evalCall hx hcx h
    exact ⟨stop, first, rfl, .call hn ha ⟨hs, hhead⟩, hfirst⟩
  | operator op r' =>
    obtain ⟨args, stop, first, ha, hs, hhead, rfl, hfirst⟩ := stop_of_evalCall hx hcx h
    exact ⟨stop, first, rfl, .operator hn ha ⟨hs, hhead⟩, hfirst⟩

/-- **The truth values that parts have are those that come up from below.** -/
theorem eval_eq_ok_truth_iff :
    eval m i t levels cx id = .ok (.truth b) ↔ ∃ k < levels, ComesUp m i t b k id := by
  induction levels generalizing cx id with
  | zero =>
    refine iff_of_false (fun h => ?_) fun ⟨k, hk, _⟩ => Nat.not_lt_zero k hk
    unfold eval at h
    split at h <;> cases h
  | succ levels ih =>
    have hslot (slot : Option Format) : (cx.forArgument slot).get Key.tolerance = .ok x :=
      (get_tolerance_forArgument cx slot).trans hcx
    constructor
    · intro h
      cases hn : t.node? id with
      | none =>
        simp only [eval, hn] at h
        cases h
      | some node =>
        cases hr : node.kind.range? with
        | some r =>
          obtain ⟨stop, first, hstop, hcall, slot, hfirst⟩ := exists_of_eval_call hx hcx hn hr h
          cases hstop
          obtain ⟨k, hk, hup⟩ := (ih (hslot slot)).1 hfirst
          exact ⟨k + 1, Nat.succ_lt_succ hk, .settled hcall hup⟩
        | none =>
          obtain ⟨kind, span⟩ := node
          simp only [eval, hn] at h
          cases kind with
          | literal literal =>
            cases literal with
            | truth b' =>
              cases h
              exact ⟨0, Nat.succ_pos levels, .literal hn⟩
            | number y | text name => cases h
          | var name => exact ⟨0, Nat.succ_pos levels, .var hn h⟩
          | call function r | operator op r => cases hr
    · rintro ⟨k, hk, hup⟩
      cases hup with
      | literal hn =>
        simp only [eval, hn]
        rfl
      | var hn hv =>
        simp only [eval, hn]
        exact hv
      | @settled k _ first hcall hfirst =>
        have hvalue (slot : Option Format) :
            eval m i t levels (cx.forArgument slot) first = .ok (.truth b) :=
          (ih (hslot slot)).2 ⟨k, Nat.lt_of_succ_lt_succ hk, hfirst⟩
        cases hcall.eval i levels cx with
        | call _ _ hat | operator _ _ hat =>
          obtain ⟨⟨hs, hhead⟩, heval⟩ := hat
          rw [heval]
          exact evalCall_of_stop hs hhead hvalue

end

end Evaluation

/-! ## What a call comes to -/

namespace Sample

/-- The formula `false && true`. -/
def denied : FormulaTree where
  nodes := #[⟨.literal (.truth false), .dummy⟩, ⟨.literal (.truth true), .dummy⟩,
    ⟨.operator .and ⟨0, 2⟩, .dummy⟩]
  args := #[⟨0⟩, ⟨1⟩]
  root := ⟨2⟩

/-- What tells the passes all that they ask for, and a tolerance that is none. -/
def toldNegative : ContextMap := told.set Key.tolerance (-1)

theorem get_tolerance_toldNegative : toldNegative.get Key.tolerance = .ok (-1) :=
  ContextMap.get_set told Key.tolerance (-1)

end Sample

namespace Evaluation

variable {m : FormulaManager} {i : ScopeInstance} {t : FormulaTree} {cx : ContextMap}
variable {levels : Nat} {id : NodeId} {x : Float}

/-- **With a tolerance that is none a call fails,** unless it is a short circuit that is
settled, and then it has the truth value that comes up to it from a literal or a variable.
It fails because of the tolerance, or with an error that is met with any tolerance. -/
theorem eval_call_of_refused (hx : x < 0 ∨ x.isNaN = true) (hcx : cx.get Key.tolerance = .ok x)
    {node : Node} {r : ArgRange} (hn : t.node? id = some node)
    (hr : node.kind.range? = some r) :
    (∀ value, eval m i t levels cx id = .ok value ↔
      ∃ b, value = .truth b ∧ ∃ k < levels, ComesUp m i t b k id) ∧
    ∀ e, eval m i t levels cx id = .error e →
      e = .config (.negativeTolerance x) ∨ ∀ cx', eval m i t levels cx' id = .error e := by
  refine ⟨fun value => ⟨fun h => ?_, ?_⟩, fun e he => ?_⟩
  · cases levels with
    | zero =>
      simp only [eval, hn] at h
      cases h
    | succ levels =>
      obtain ⟨stop, _, rfl, -⟩ := exists_of_eval_call hx hcx hn hr h
      exact ⟨stop, rfl, (eval_eq_ok_truth_iff hx hcx).1 h⟩
  · rintro ⟨b, rfl, hup⟩
    exact (eval_eq_ok_truth_iff hx hcx).2 hup
  · by_cases hrefused : e = .config (.negativeTolerance x)
    · exact .inl hrefused
    · refine .inr fun cx' => ?_
      rcases sameUnless_eval hx hcx cx' with hsame | ⟨e', he', rfl⟩
      · rw [hsame, he]
      · exact absurd (Except.error.inj (he.symm.trans he')) hrefused

/-- The flag that is not set comes up as the value of a conjunction. The comparison beside it
has no value. -/
theorem eval_call_guarded :
    (-1 : Float) < 0 ∧ Sample.toldNegative.get Key.tolerance = .ok (-1) ∧
      eval Sample.manager Sample.someone Sample.guarded 256 Sample.toldNegative ⟨4⟩ =
        .ok (.truth false) ∧
      eval Sample.manager Sample.someone Sample.guarded 256 Sample.toldNegative ⟨3⟩ ≠
        .ok (.truth true) := by
  have hx : (-1 : Float) < 0 ∨ (-1 : Float).isNaN = true := .inl (by decide)
  have hcx := Sample.get_tolerance_toldNegative
  have hup : ComesUp Sample.manager Sample.someone Sample.guarded false 1 ⟨4⟩ :=
    .settled (.operator rfl rfl ⟨rfl, rfl⟩) (.var rfl rfl)
  refine ⟨by decide, hcx, ?_, fun h => ?_⟩
  · exact ((eval_call_of_refused hx hcx rfl rfl).1 _).2 ⟨false, rfl, 1, by decide, hup⟩
  · obtain ⟨b, -, k, -, hcomes⟩ := ((eval_call_of_refused hx hcx rfl rfl).1 _).1 h
    -- a comparison is no short circuit
    cases hcomes with
    | literal hn | var hn => cases hn
    | settled hcall _ =>
      cases ((FormulaManager.atCall_operator_iff rfl rfl).1 hcall).1

end Evaluation

/-- **A call can have a value with a tolerance below zero.** -/
theorem Workspace.runEvaluation_denied :
    (-1 : Float) < 0 ∧ Sample.toldNegative.get Key.tolerance = .ok (-1) ∧
      Sample.denied.node? Sample.denied.root = some ⟨.operator .and ⟨0, 2⟩, .dummy⟩ ∧
      (Sample.alone Sample.manager).runEvaluation Sample.toldNegative Sample.denied =
        .ok (.truth false) :=
  ⟨by decide, Sample.get_tolerance_toldNegative, rfl, rfl⟩

end Formulary
