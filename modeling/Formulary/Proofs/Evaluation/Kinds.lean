import Formulary.Proofs.Evaluation.Progress
import Formulary.Proofs.Store
/-!
# Values over a store, and whether they are what their formats say

A store takes a value at its word: it asks which format the value names, and not whether the
value is of that kind. So an object that names a built-in format is held for a variable of
that format, where nothing can read it. A check goes by formats and knows nothing of it.

Nothing else makes such values. A literal is genuine, a default is, and an implementation
that is given genuine arguments answers with a genuine value. So a part of a formula that
comes to a value of the wrong kind uses a variable of which such a value is held
(`exists_held_of_eval`). Over a store without them no part does, and a checked formula fails
only as could not be foreseen.
-/

namespace Formulary

namespace Evaluation

variable {m : FormulaManager} {i : ScopeInstance} {scope : LegalScope} {t : FormulaTree}
variable {id : NodeId} {format : Format} {value : Value} {cx : ContextMap} {levels : Nat}

/-- A variable of which a value is held that is not genuine stands at or below a node. -/
def UsesDisguised (m : FormulaManager) (i : ScopeInstance) (t : FormulaTree) (id : NodeId) :
    Prop :=
  ∃ name v held, t.Uses id name ∧ m.resolveName i name = .ok v ∧ m.stored v = some held ∧
    ¬ held.Genuine

/-- A variable whose value is not genuine has it from the store. -/
theorem stored_of_evalVariable (hm : m.formats.Grown) {name : Name} {span : Span}
    (h : evalVariable m i name span = .ok value) (hv : ¬ value.Genuine) :
    ∃ v, m.resolveName i name = .ok v ∧ m.stored v = some value := by
  unfold evalVariable at h
  split at h
  · cases h
  · cases h
  · rename_i v hresolve
    refine ⟨v, hresolve, ?_⟩
    unfold FormulaManager.valueOf at h
    cases hstored : m.stored v with
    | some held =>
      rw [hstored] at h
      exact congrArg some (Except.ok.inj h)
    | none =>
      rw [hstored] at h
      -- nothing is stored, so the value is a default
      cases hdefault : m.formats.default? v.format with
      | none =>
        rw [hdefault] at h
        cases h
      | some default =>
        rw [hdefault] at h
        obtain rfl : default = value := Except.ok.inj h
        exact absurd (FormatRegistry.genuine_default? hm hdefault) hv

/-- **A call whose value is not genuine has an argument of which that holds.** -/
theorem exists_arg_of_evalCall {κ : Type} [BEq κ] {c : Callee κ} {args : List NodeId}
    {eval : ContextMap → NodeId → Except EvalError Value}
    (hreliable : c.library.All Overload.Reliable) (h : evalCall eval cx c (some args) = .ok value)
    (hv : ¬ value.Genuine) : ∃ arg ∈ args, ∃ v, HasValue eval cx arg v ∧ ¬ v.Genuine := by
  by_contra hnone
  have hgenuine (arg : NodeId) (harg : arg ∈ args) (v : Value) (hval : HasValue eval cx arg v) :
      v.Genuine := by
    by_contra hwrong
    exact hnone ⟨arg, harg, v, hval, hwrong⟩
  rcases evalCall_eq_ok_iff.1 h with ⟨-, hsettled⟩ | ⟨o, context, values, hrun, hnative⟩
  · have hfrom := evalOperands_eq_ok hsettled
    cases hfrom with
    | settled _ _ => exact hv trivial
  · have hfrom := evalOperands_eq_ok hrun.operands
    have hmem := (Library.mem_of_select hrun.chosen).1
    refine hv ((hreliable c.key o hmem).genuine context values value (fun v hval => ?_) hnative)
    obtain ⟨arg, harg, hr⟩ := hfrom.exists_of_mem hval
    exact hgenuine arg harg v hr

/-- **A part whose value is not genuine uses a variable of which such a value is held.** -/
theorem exists_held_of_eval (hfunctions : m.functions.All Overload.Reliable)
    (hoperators : m.operators.All Overload.Reliable) (hformats : m.formats.Grown)
    (h : eval m i t levels cx id = .ok value) (hv : ¬ value.Genuine) : UsesDisguised m i t id := by
  induction levels generalizing cx id value with
  | zero =>
    unfold eval at h
    split at h <;> cases h
  | succ levels ih =>
    cases hn : t.node? id with
    | none =>
      simp only [eval, hn] at h
      cases h
    | some node =>
      obtain ⟨kind, span⟩ := node
      have hcall {κ : Type} [BEq κ] {c : Callee κ} {r : ArgRange}
          (hreliable : c.library.All Overload.Reliable) (hr : kind.range? = some r)
          (h : evalCall (eval m i t levels) cx c (t.args? r) = .ok value) :
          UsesDisguised m i t id := by
        cases ha : t.args? r with
        | none =>
          rw [ha] at h
          cases h
        | some args =>
          rw [ha] at h
          obtain ⟨arg, harg, v, ⟨slot, hval⟩, hwrong⟩ := exists_arg_of_evalCall hreliable h hv
          obtain ⟨name, u, held, huses, hheld⟩ := ih hval hwrong
          exact ⟨name, u, held, (FormulaTree.uses_iff_of_args hn hr ha).2 ⟨arg, harg, huses⟩,
            hheld⟩
      simp only [eval, hn] at h
      cases kind with
      | literal l =>
        obtain rfl := Except.ok.inj h
        cases l <;> exact absurd trivial hv
      | var name =>
        obtain ⟨v, hresolve, hstored⟩ := stored_of_evalVariable hformats h hv
        exact ⟨name, v, value, (FormulaTree.uses_iff_of_var hn).2 rfl, hresolve, hstored, hv⟩
      | call function r => exact hcall hfunctions rfl h
      | operator op r => exact hcall hoperators rfl h

/-! ## Checked formulas -/

/-- A checked formula over a store of genuine values comes to a value of the kind of its
format, or fails as could not be foreseen. -/
theorem ofKind_or_unforeseeable (hm : SafeSetting m i) (hu : t.Unfolds m.config.maxTreeDepth t.root)
    (ht : HasFormat m i.scope t t.root format) {tolerance : Float}
    (htol : cx.get Key.tolerance = .ok tolerance) (hnonneg : tolerance ≥ 0) :
    (∃ value, run m i cx t = .ok value ∧ value.OfKind format) ∨
      ∃ e, run m i cx t = .error e ∧ ¬ e.Preventable := by
  have hsafe : Safe m i (run m i cx t) := safe_eval hm htol hnonneg hu ht
  cases hrun : run m i cx t with
  | ok value =>
    rw [hrun] at hsafe
    have hformat : (value.format == format) = true :=
      BEq.symm (format_of_eval hm.toSetting ht hrun)
    exact .inl ⟨value, rfl, (Value.ofKind_iff_genuine hformat).2 hsafe⟩
  | error e =>
    rw [hrun] at hsafe
    exact .inr ⟨e, rfl, hsafe.not_preventable⟩

/-- **A store holds values of the right format, and of the right kind if they were set so.**
Over any orders a value that is held was set and names the format of its variable; it is of
that kind exactly if it is genuine, and is so wherever the format is a registered one. An
object that names a built-in format is held like any other value. Each part of a checked
formula has a format, and what it comes to over the store names that format; it is of that
kind too, unless the part uses a variable of which a value of the wrong kind is held. So where
no such value is held, a checked formula comes to a value of the kind of its format, or fails
with nothing that a check is there to prevent. The library is the standard one, which a host
may have extended by faithful overloads that give genuine answers to genuine arguments. -/
theorem kinds_over_orders (orders : List VariableStore.Order) {handed : List ScopeInstance}
    (hm : m.Reached handed) {names : Interner}
    (hf : (Standard.installFunctions {} names).1.Extends m.functions)
    (hfr : m.functions.All Overload.Reliable)
    (ho : (Standard.installOperators {}).Extends m.operators)
    (hor : m.operators.All Overload.Reliable) (hs : scope ∈ m.scopes.scopes) (hi : i ∈ handed)
    (his : (i.scope == scope) = true)
    (hstore : m.stored = (({} : VariableStore).afterAll orders).get?)
    (hcheck : Semantics.run m scope cx t = .ok format) :
    (∀ v value, m.stored v = some value → (value.format == v.format) = true ∧
      (value.OfKind v.format ↔ value.Genuine) ∧
      (v.format.isCustom = true → value.OfKind v.format) ∧
      ∃ w, .set w value ∈ orders ∧ (w == v) = true) ∧
    (∀ v value, (value.format == v.format) = true →
      (({} : VariableStore).afterAll (orders ++ [.set v value])).get? v = some value) ∧
    (∀ k below, t.Reaches k t.root below → ∃ f, HasFormat m i.scope t below f ∧
      ∀ levels cx value, eval m i t levels cx below = .ok value → (value.format == f) = true ∧
        (value.OfKind f ∨ ∃ name v held, t.Uses below name ∧ m.resolveName i name = .ok v ∧
          m.stored v = some held ∧ ¬ held.OfKind v.format)) ∧
    ((∀ v value, m.stored v = some value → value.OfKind v.format) → ∀ cx tolerance,
      ContextMap.get cx Key.tolerance = .ok tolerance → tolerance ≥ 0 →
        (∃ value, run m i cx t = .ok value ∧ value.OfKind format) ∨
          ∃ e, run m i cx t = .error e ∧ ¬ e.Preventable) := by
  have hheld {v : VariableId} {value : Value} (h : m.stored v = some value) :
      (value.format == v.format) = true ∧ ∃ w, .set w value ∈ orders ∧ (w == v) = true := by
    rw [hstore] at h
    exact VariableStore.exists_set_of_get? h
  have hset : Setting m i := setting_of_reached hm hf ho hi fun v value h => (hheld h).1
  obtain ⟨hunfolds, htyped⟩ :=
    Semantics.unfolds_and_hasFormat_of_run hset.functions.made hset.operators.made hcheck
  rw [← hm.scope_eq hi hs his] at htyped
  refine ⟨fun v value h => ?_, fun v value h => ?_, fun k below hk => ?_, fun hkinds cx' tol => ?_⟩
  · obtain ⟨hformat, hwas⟩ := hheld h
    have hiff := Value.ofKind_iff_genuine hformat
    exact ⟨hformat, hiff, fun hc => hiff.2 (Value.genuine_of_isCustom hformat hc), hwas⟩
  · have hwrites : (VariableStore.Order.set v value).writes v = true :=
      Bool.and_eq_true_iff.2 ⟨BEq.rfl, h⟩
    rw [VariableStore.get?_afterAll, List.reverse_append, List.reverse_singleton,
      List.singleton_append, List.find?_cons, hwrites]
    rfl
  · obtain ⟨f, hf⟩ := htyped.exists_of_reaches hk
    refine ⟨f, hf, fun levels cx value hvalue => ?_⟩
    have hformat : (value.format == f) = true := BEq.symm (format_of_eval hset hf hvalue)
    refine ⟨hformat, ?_⟩
    by_cases hgenuine : value.Genuine
    · exact .inl ((Value.ofKind_iff_genuine hformat).2 hgenuine)
    · obtain ⟨name, v, held, huses, hresolve, hstored, hwrong⟩ :=
        exists_held_of_eval hfr hor hset.formats hvalue hgenuine
      have hiff := Value.ofKind_iff_genuine (hheld hstored).1
      exact .inr ⟨name, v, held, huses, hresolve, hstored, fun hkind => hwrong (hiff.1 hkind)⟩
  · intro htol hnonneg
    have hsafe : SafeSetting m i :=
      { hset with
        functionsReliable := hfr
        operatorsReliable := hor
        genuine := fun v value h => (Value.ofKind_iff_genuine (hheld h).1).1 (hkinds v value h) }
    exact ofKind_or_unforeseeable hsafe hunfolds htyped htol hnonneg

end Evaluation

/-! ## An object for a number -/

namespace Sample

/-- The number of the scope, for its instance. -/
def balance : VariableId := ⟨someone, amount, .number, ""⟩

/-- It is set to a number. -/
def counted : List VariableStore.Order := [.set balance (.number .zero)]

/-- It is set to an object that names the format of numbers. -/
def mislabelled : List VariableStore.Order := [.set balance (.object .number "k")]

/-- The formula `amount + 0`. -/
def raised : FormulaTree where
  nodes := #[⟨.var amount, .dummy⟩, ⟨.literal (.number .zero), .dummy⟩,
    ⟨.operator .add ⟨0, 2⟩, .dummy⟩]
  args := #[⟨0⟩, ⟨1⟩]
  root := ⟨2⟩

/-- The manager of the sample over a store that was given orders. -/
def holding (orders : List VariableStore.Order) : FormulaManager :=
  { manager with stored := (({} : VariableStore).afterAll orders).get? }

/-- What is stored plays no part in how a manager comes about. -/
theorem reached_holding (orders : List VariableStore.Order) : (holding orders).Reached [someone] :=
  ⟨reached.scopes, reached.formats, reached.instances⟩

end Sample

namespace Evaluation

open Sample

/-- A number is held for the number, and the formula is safe. -/
theorem kinds_over_number :
    Semantics.run (holding counted) all {} raised = .ok .number ∧
      ((∃ value, run (holding counted) someone {} raised = .ok value ∧ value.OfKind .number) ∨
        ∃ e, run (holding counted) someone {} raised = .error e ∧ ¬ e.Preventable) := by
  have hcheck : Semantics.run (holding counted) all {} raised = .ok .number := rfl
  have hfr : (holding counted).functions.All Overload.Reliable :=
    (Standard.builtOf_installFunctions .fresh).all.imp fun _ h => h.1.reliable
  have hor : (holding counted).operators.All Overload.Reliable :=
    Standard.builtOf_installOperators.all.imp fun _ h => h.reliable
  have hf : (Standard.installFunctions {} .fresh).1.Extends (holding counted).functions := .refl
  have ho : (Standard.installOperators {}).Extends (holding counted).operators := .refl
  have hnonneg : (0 : Float) ≥ 0 := by decide
  obtain ⟨hheld, -, -, hsafe⟩ := kinds_over_orders counted (reached_holding _) hf hfr ho hor
    List.mem_cons_self List.mem_cons_self BEq.rfl rfl hcheck
  refine ⟨hcheck, hsafe (fun v value h => ?_) {} 0 rfl hnonneg⟩
  obtain ⟨-, hiff, -, w, hw, -⟩ := hheld v value h
  obtain ⟨rfl, rfl⟩ := VariableStore.Order.set.inj (List.mem_singleton.1 hw)
  exact hiff.2 trivial

/-- **An object that names the format of numbers is held for a number.** The formula is
checked, its operand has the right format, and it is no number. -/
theorem unread_over_object :
    (({} : VariableStore).afterAll mislabelled).get? balance = some (.object .number "k") ∧
      (Value.object .number "k").asNumber? = none ∧
      Semantics.run (holding mislabelled) all {} raised = .ok .number ∧
      eval (holding mislabelled) someone raised 1 {} ⟨0⟩ = .ok (.object .number "k") ∧
      run (holding mislabelled) someone {} raised =
        .error (.library (Standard.notA "+" 0 .number) .dummy) :=
  ⟨rfl, rfl, rfl, rfl, rfl⟩

end Evaluation

end Formulary
