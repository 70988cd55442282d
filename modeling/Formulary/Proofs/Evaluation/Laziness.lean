import Formulary.Proofs.Evaluation.Dispatch
import Formulary.Proofs.Library.Standard
/-!
# Passing over arguments loses no value

A strategy has a call pass over arguments. Against it stands the evaluation that
passes over none, whatever the strategies are: that of the same manager with all of
its libraries made eager (`FormulaManager.eagerly`, `evalCall_eagerly_eq_ok_iff`).

What a strategy leaves of the values of all arguments is said apart from any walk
(`Operands.ofValues?`). An overload does not mind a strategy if it makes of what is
left what it makes of all values (`Overload.Indifferent`). The standard overloads do
not mind the strategies of their keys: a choice answers one of its branches and does
not look at the other, and a truth value that settles a conjunction or a disjunction
is its answer. So where all arguments have values, and the call has one, passing over
arguments comes to the same value (`eval_eq_ok_of_eagerly`). The other direction
fails: what is passed over need not have a value.
-/

namespace Formulary

namespace Sample

/-- A function of the host. -/
def twice : Name := ⟨10⟩

/-- The standard functions, and that of the host. -/
def withTwice : Library Name :=
  manager.functions.register twice Standard.numberToNumber
    (Standard.onNumber "twice" (.map (2 * ·)))

/-- The manager of the sample, with the function of the host. -/
def doubling : FormulaManager := { manager with functions := withTwice }

/-- The formula `if(flag && amount < 0, amount, twice(amount))`. -/
def chosen : FormulaTree where
  nodes := #[⟨.var flag, .dummy⟩, ⟨.var amount, .dummy⟩, ⟨.literal (.number .zero), .dummy⟩,
    ⟨.operator .lt ⟨0, 2⟩, .dummy⟩, ⟨.operator .and ⟨2, 2⟩, .dummy⟩,
    ⟨.call twice ⟨0, 1⟩, .dummy⟩, ⟨.call ⟨7⟩ ⟨4, 3⟩, .dummy⟩]
  args := #[⟨1⟩, ⟨2⟩, ⟨0⟩, ⟨3⟩, ⟨4⟩, ⟨1⟩, ⟨5⟩]
  root := ⟨6⟩

/-- The formula `flag && amount / amount < amount`. -/
def shielded : FormulaTree where
  nodes := #[⟨.var flag, .dummy⟩, ⟨.var amount, .dummy⟩, ⟨.operator .div ⟨0, 2⟩, .dummy⟩,
    ⟨.operator .lt ⟨2, 2⟩, .dummy⟩, ⟨.operator .and ⟨4, 2⟩, .dummy⟩]
  args := #[⟨1⟩, ⟨1⟩, ⟨2⟩, ⟨1⟩, ⟨0⟩, ⟨3⟩]
  root := ⟨4⟩

end Sample

/-! ## Libraries that pass over nothing -/

namespace Library

section

variable {κ : Type}

/-- The library with the same overloads, whose calls all evaluate all arguments. -/
def eagerly (l : Library κ) : Library κ :=
  ⟨⟨l.entries.entries.map fun e => (e.1, { e.2 with strategy := .eager })⟩⟩

variable [BEq κ] (l : Library κ) (key : κ)

theorem find?_eagerly :
    l.eagerly.entries.find? key =
      (l.entries.find? key).map fun e => { e with strategy := .eager } :=
  l.entries.find?_map (fun e => { e with strategy := .eager }) key

@[simp] theorem contains_eagerly : l.eagerly.contains key = l.contains key := by
  simp only [contains, Table.contains, find?_eagerly, Option.isSome_map]

@[simp] theorem overloads_eagerly : l.eagerly.overloads key = l.overloads key := by
  simp only [overloads, entry, find?_eagerly]
  cases l.entries.find? key <;> rfl

@[simp] theorem strategy_eagerly : l.eagerly.strategy key = .eager := by
  simp only [strategy, entry, find?_eagerly]
  cases l.entries.find? key <;> rfl

@[simp] theorem expectedFormats_eagerly (arity : Nat) :
    l.eagerly.expectedFormats key arity = l.expectedFormats key arity := by
  simp only [expectedFormats, overloads_eagerly]

@[simp] theorem select_eagerly (formats : List Format) :
    l.eagerly.select key formats = l.select key formats := by
  simp only [select, arities, overloads_eagerly, find?_eagerly]
  cases l.entries.find? key <;> rfl

@[simp] theorem evaluate_eagerly (context : CallContext) (values : List Value) :
    l.eagerly.evaluate key context values = l.evaluate key context values := by
  simp only [evaluate, select_eagerly]

end

variable {κ : Type} [BEq κ] {l base : Library κ} {key : κ}

/-- Where a library passes over arguments, it has what another has there. -/
def EagerBeyond (base l : Library κ) : Prop :=
  ∀ key, l.strategy key = .eager ∨ l.entry key = base.entry key

theorem EagerBeyond.refl : base.EagerBeyond base := fun _ => .inr rfl

/-- An overload more under a key whose calls evaluate all arguments, whatever it answers. -/
theorem EagerBeyond.register [LawfulBEq κ] (h : base.EagerBeyond l)
    (hs : l.strategy key = .eager) (signature : Signature) (native : Native) :
    base.EagerBeyond (l.register key signature native) := by
  intro k
  by_cases hk : (key == k) = true
  · have heager : l.strategy k = .eager := by rw [← eq_of_beq hk, hs]
    exact .inl (by rw [strategy_register, heager])
  · rw [strategy_register, entry_register, if_neg hk]
    exact h k

end Library

/-- The manager whose calls all evaluate all arguments. -/
def FormulaManager.eagerly (m : FormulaManager) : FormulaManager :=
  { m with functions := m.functions.eagerly, operators := m.operators.eagerly }

/-- The callee in a library whose calls all evaluate all arguments. -/
def Callee.eagerly {κ : Type} (c : Callee κ) : Callee κ := { c with library := c.library.eagerly }

/-- The same is expected of the arguments of a call. -/
@[simp] theorem Callee.withExpected_eagerly {κ : Type} [BEq κ] (c : Callee κ)
    (args : List NodeId) : c.eagerly.withExpected args = c.withExpected args := by
  simp only [withExpected, expected, eagerly, Library.expectedFormats_eagerly]

/-! ## What a strategy leaves of the values -/

/-- What a strategy leaves of the values of all arguments, if they can be read so far. -/
def Evaluation.Operands.ofValues? : CallStrategy → List Value → Option Operands
  | .select, [condition, ifTrue, ifFalse] =>
    condition.asTruth?.map fun taken =>
      let branch := if taken then ifTrue else ifFalse
      .all [condition, branch, branch]
  | .shortCircuit stop, first :: rest =>
    if first.asTruth? = some stop then some (.settled first) else some (.all (first :: rest))
  | _, values => some (.all values)

namespace Overload

open Evaluation

/-- What an overload makes of the operands of a call, in its turn or not at all. -/
def Makes (o : Overload) (context : CallContext) : Operands → Value → Prop
  | .settled settled, value => settled = value
  | .all values, value => (o.signature.params == values.map Value.format) = true ∧
      o.native context values = .ok value

/-- What an overload answers to all values, it makes of what a strategy leaves of them. -/
def Indifferent (o : Overload) (strategy : CallStrategy) : Prop :=
  ∀ context values value, o.Makes context (.all values) value →
    ∃ operands, Operands.ofValues? strategy values = some operands ∧ o.Makes context operands value

variable {o : Overload}

/-- No overload minds when nothing is passed over. -/
theorem indifferent_eager : o.Indifferent .eager :=
  fun _ values _ h => ⟨.all values, rfl, h⟩

/-- A choice is one of three arguments, and other overloads never come to one. -/
theorem indifferent_select_of_arity (h : o.signature.arity ≠ 3) : o.Indifferent .select := by
  intro context values value hmakes
  have hlength : values.length ≠ 3 := by
    have harity := Library.arity_of_params_beq hmakes.1
    rw [List.length_map] at harity
    omega
  refine ⟨.all values, ?_, hmakes⟩
  unfold Operands.ofValues?
  split
  · exact absurd rfl hlength
  · rename_i heq
    exact absurd heq (by simp)
  · rfl

/-- An overload does not mind being settled by what it would answer. -/
theorem indifferent_shortCircuit {stop : Bool}
    (h : ∀ context rest value, o.native context (.truth stop :: rest) = .ok value →
      .truth stop = value) : o.Indifferent (.shortCircuit stop) := by
  intro context values value hmakes
  cases values with
  | nil => exact ⟨.all [], rfl, hmakes⟩
  | cons first rest =>
    by_cases hstop : first.asTruth? = some stop
    · have hfirst : first = .truth stop := Value.asTruth?_eq_some_iff.1 hstop
      refine ⟨.settled first, if_pos hstop, ?_⟩
      rw [hfirst] at hmakes ⊢
      exact h context rest value hmakes.2
    · exact ⟨.all (first :: rest), if_neg hstop, hmakes⟩

end Overload

/-- No overload of a library minds the strategy of its key. -/
def Library.Indifferent {κ : Type} [BEq κ] (l : Library κ) : Prop :=
  ∀ key, ∀ o ∈ l.overloads key, o.Indifferent (l.strategy key)

/-- What is added under keys whose calls evaluate all arguments does not mind either. -/
theorem Library.EagerBeyond.indifferent {κ : Type} [BEq κ] {l base : Library κ}
    (h : base.EagerBeyond l) (hbase : base.Indifferent) : l.Indifferent := by
  intro key o ho
  rcases h key with heager | hentry
  · rw [heager]
    exact Overload.indifferent_eager
  · have hstrategy : l.strategy key = base.strategy key := congrArg LibraryEntry.strategy hentry
    have hoverloads : l.overloads key = base.overloads key :=
      congrArg LibraryEntry.overloads hentry
    rw [hstrategy]
    exact hbase key o (hoverloads ▸ ho)

/-! ## The standard library does not mind -/

namespace Standard

/-- **A choice does not mind which branch is passed over**: the branch that it takes is its
answer, and the other has the same format. -/
theorem indifferent_choice (format : Format) :
    Overload.Indifferent ⟨⟨[.truth, format, format], format⟩, choice⟩ .select := by
  rintro context values value ⟨hp, hanswer⟩
  obtain _ | ⟨hc, _ | @⟨_, ifTrue, _, _, ht, _ | @⟨_, ifFalse, _, _, hf, _ | _⟩⟩⟩ :=
    forall₂_of_params_beq hp
  rename_i condition
  -- the condition is read, or there would be no answer
  have hread : ∃ taken, condition = .truth taken := by
    cases condition with
    | truth taken => exact ⟨taken, rfl⟩
    | number | text | object =>
      exact absurd hanswer (by simp [choice, truthAt, Value.asTruth?, bind, Except.bind])
  obtain ⟨taken, rfl⟩ := hread
  have hvalue : (if taken then ifTrue else ifFalse) = value := by
    cases taken <;> exact Except.ok.inj hanswer
  refine ⟨.all [.truth taken, value, value], ?_, ?_, ?_⟩
  · rw [← hvalue]
    rfl
  · have hformat : (format == value.format) = true := by
      rw [← hvalue]
      cases taken
      · exact Format.beq_iff.2 hf
      · exact Format.beq_iff.2 ht
    simp only [List.map_cons, List.map_nil, List.cons_beq_cons, hformat, Bool.true_and]
    rfl
  · cases taken <;> rfl

theorem indifferent_installFunctions (names : Interner) :
    (installFunctions {} names).1.Indifferent := by
  have hbuilt : (installFunctions {} names).1.BuiltOf fun o => o.Indifferent .select :=
    builtOf_installFunctions_of
      (fun _ _ => Overload.indifferent_select_of_arity (by intro h; cases h))
      (fun _ _ => Overload.indifferent_select_of_arity (by intro h; cases h))
      indifferent_choice names
  intro name o ho
  rcases strategy_installFunctions names name with h | h
  · rw [h]
    exact hbuilt.all name o ho
  · rw [h]
    exact Overload.indifferent_eager

/-- **What settles a conjunction or a disjunction is its answer,** and all other operators
evaluate all arguments. -/
theorem indifferent_installOperators : (installOperators {}).Indifferent := by
  intro op o ho
  cases op with
  | and =>
    have hand : (installOperators {}).overloads .and = [⟨truthsToTruth, conjunction⟩] := rfl
    rw [hand, List.mem_singleton] at ho
    rw [ho]
    exact Overload.indifferent_shortCircuit fun _ _ _ h => Except.ok.inj h
  | or =>
    have hor : (installOperators {}).overloads .or = [⟨truthsToTruth, disjunction⟩] := rfl
    rw [hor, List.mem_singleton] at ho
    rw [ho]
    exact Overload.indifferent_shortCircuit fun _ _ _ h => Except.ok.inj h
  | _ => exact Overload.indifferent_eager

end Standard

namespace Library

variable {κ : Type} [BEq κ] {l : Library κ} {key : κ} {formats formats' : List Format}
variable {o : Overload}

/-- The overload that is chosen for formats is chosen for all others that it takes. -/
theorem select_of_params_beq (h : l.select key formats = .ok o)
    (hp : (o.signature.params == formats') = true) : l.select key formats' = .ok o := by
  have hsame : (formats == formats') = true := BEq.trans (BEq.symm (mem_of_select h).2) hp
  have haccepts : (fun p : Overload => p.signature.accepts formats) =
      fun p => p.signature.accepts formats' := funext fun p => BEq.congr_right hsame
  rw [select_eq_ok_iff, haccepts] at h
  exact select_eq_ok_iff.2 h

end Library

namespace Evaluation

/-! ## Calls -/

section

variable {κ : Type} [BEq κ] {eval eval' : ContextMap → NodeId → Except EvalError Value}
variable {cx : ContextMap} {c : Callee κ} {args : List NodeId} {values : List Value}
variable {value : Value}

/-- An answer does not depend on what the strategy is. -/
@[simp] theorem answer_eagerly : answer cx c.eagerly values = answer cx c values := by
  have hevaluate (context : CallContext) : c.eagerly.library.evaluate c.eagerly.key context values =
      c.library.evaluate c.key context values := Library.evaluate_eagerly _ _ _ _
  simp only [answer, hevaluate]
  rfl

/-- **A call that passes over nothing** has a value if all of its arguments have one, and
then it is what the library answers to these. -/
theorem evalCall_eagerly_eq_ok_iff :
    evalCall eval cx c.eagerly (some args) = .ok value ↔
      c.library.contains c.key = true ∧
        ∃ values, (c.withExpected args).mapM (evalArgument eval cx) = .ok values ∧
          answer cx c values = .ok value := by
  have hstrategy : c.eagerly.library.strategy c.eagerly.key = .eager :=
    Library.strategy_eagerly _ _
  have hcontains : c.eagerly.library.contains c.eagerly.key = c.library.contains c.key :=
    Library.contains_eagerly _ _
  have hoperands : evalOperands eval cx c.eagerly args =
      ((c.withExpected args).mapM (evalArgument eval cx)).map .all := by
    simp only [evalOperands, hstrategy, Callee.withExpected_eagerly]
  simp only [evalCall, hcontains, hoperands, answer_eagerly]
  by_cases hknown : c.library.contains c.key = true
  · rw [if_pos hknown]
    cases (c.withExpected args).mapM (evalArgument eval cx) <;> simp [Except.map, hknown]
  · rw [if_neg hknown]
    simp [hknown]

omit [BEq κ] in
/-- A choice whose arguments all have values is passed the branch that it takes, twice. -/
theorem evalChoice_of_values {condition ifTrue ifFalse : NodeId × Option Format} {taken : Bool}
    {vc vt vf : Value} (hc : evalArgument eval cx condition = .ok vc)
    (ht : evalArgument eval cx ifTrue = .ok vt) (hf : evalArgument eval cx ifFalse = .ok vf)
    (htaken : vc.asTruth? = some taken) :
    evalChoice eval cx c condition ifTrue ifFalse =
      .ok [vc, if taken then vt else vf, if taken then vt else vf] := by
  have hbranch : (if taken then evalArgument eval cx ifTrue else evalArgument eval cx ifFalse) =
      .ok (if taken then vt else vf) := by
    cases taken
    · exact hf
    · exact ht
  simp only [evalChoice, hc, htaken, hbranch]

/-- A strategy leaves all values where it has no arguments to pass over. -/
theorem ofValues?_eq_all {strategy : CallStrategy} {pairs : List (NodeId × Option Format)}
    (hvalues : List.Forall₂ (fun p v => evalArgument eval cx p = .ok v) pairs values)
    (hselect : ∀ condition ifTrue ifFalse, strategy = .select →
      pairs = [condition, ifTrue, ifFalse] → False)
    (hshort : ∀ stop first rest, strategy = .shortCircuit stop → pairs = first :: rest → False) :
    Operands.ofValues? strategy values = some (.all values) := by
  unfold Operands.ofValues?
  split
  · -- three values come of three arguments
    obtain _ | ⟨_, _ | ⟨_, _ | ⟨_, _ | _⟩⟩⟩ := hvalues
    exact (hselect _ _ _ rfl rfl).elim
  · obtain _ | ⟨_, _⟩ := hvalues
    exact (hshort _ _ _ rfl rfl).elim
  · rfl

/-- **Where all arguments have values, a call has the operands that its strategy leaves,**
if these can be read. -/
theorem evalOperands_of_values
    (h : (c.withExpected args).mapM (evalArgument eval cx) = .ok values) {operands : Operands}
    (hleft : Operands.ofValues? (c.library.strategy c.key) values = some operands) :
    evalOperands eval cx c args = .ok operands := by
  have hvalues := mapM_eq_ok_iff.1 h
  unfold evalOperands
  split
  · rename_i condition ifTrue ifFalse hs hpairs
    rw [hpairs] at hvalues
    rw [hs] at hleft
    obtain _ | ⟨hc, _ | ⟨ht, _ | ⟨hf, _ | _⟩⟩⟩ := hvalues
    obtain ⟨taken, htaken, rfl⟩ := Option.map_eq_some_iff.1 hleft
    rw [evalChoice_of_values hc ht hf htaken]
    rfl
  · rename_i stop first rest hs hpairs
    rw [hpairs] at hvalues
    rw [hs] at hleft
    obtain _ | ⟨hfirst, hrest⟩ := hvalues
    simp only [hfirst, mapM_eq_ok_iff.2 hrest]
    simp only [Operands.ofValues?] at hleft
    split at hleft
    · rename_i hstop
      rw [if_pos hstop, Option.some.inj hleft]
    · rename_i hstop
      rw [if_neg hstop, ← Option.some.inj hleft]
      rfl
  · rename_i hselect hshort
    rw [ofValues?_eq_all hvalues hselect hshort] at hleft
    rw [h, ← Option.some.inj hleft]
    rfl

/-- **What a call comes to without passing over arguments, it comes to with,** if no
overload minds and arguments keep their values. -/
theorem evalCall_eq_ok_of_eagerly (hl : c.library.Indifferent)
    (hkeep : ∀ cx arg v, eval' cx arg = .ok v → eval cx arg = .ok v)
    {args? : Option (List NodeId)} (h : evalCall eval' cx c.eagerly args? = .ok value) :
    evalCall eval cx c args? = .ok value := by
  cases args? with
  | none => exact h
  | some args =>
    obtain ⟨hknown, values, hvalues, hanswer⟩ := evalCall_eagerly_eq_ok_iff.1 h
    have hkept : (c.withExpected args).mapM (evalArgument eval cx) = .ok values :=
      mapM_eq_ok_iff.2 ((mapM_eq_ok_iff.1 hvalues).imp fun _ _ hv => hkeep _ _ _ hv)
    obtain ⟨o, context, hcontext, hselect, hnative⟩ := answer_eq_ok_iff.1 hanswer
    obtain ⟨ho, hp⟩ := Library.mem_of_select hselect
    obtain ⟨operands, hleft, hmakes⟩ := hl c.key o ho context values value ⟨hp, hnative⟩
    have hoperands := evalOperands_of_values hkept hleft
    cases operands with
    | settled settled =>
      have hsame : settled = value := hmakes
      exact evalCall_eq_ok_iff.2 (.inl ⟨hknown, hsame ▸ hoperands⟩)
    | all passed =>
      -- the same overload takes what is passed, and answers the same
      have hchosen := Library.select_of_params_beq hselect hmakes.1
      exact evalCall_eq_ok_iff.2
        (.inr ⟨o, context, passed, ⟨hoperands, hcontext, hchosen⟩, hmakes.2⟩)

end

/-! ## Formulas -/

variable {m : FormulaManager} {i : ScopeInstance} {t : FormulaTree}

/-- **What a part comes to without passing over arguments, it comes to with,** on as many
levels. -/
theorem eval_eq_ok_of_eagerly (hf : m.functions.Indifferent) (ho : m.operators.Indifferent)
    {levels : Nat} {cx : ContextMap} {id : NodeId} {value : Value}
    (h : eval m.eagerly i t levels cx id = .ok value) : eval m i t levels cx id = .ok value := by
  induction levels generalizing cx id value with
  | zero =>
    unfold eval at h
    split at h
    · cases h
    · cases h
  | succ levels ih =>
    cases hn : t.node? id with
    | none =>
      simp only [eval, hn] at h
      cases h
    | some node =>
      obtain ⟨kind, span⟩ := node
      simp only [eval, hn] at h ⊢
      cases kind with
      | literal literal => exact h
      | var name => exact h
      | call function r =>
        exact evalCall_eq_ok_of_eagerly (c := m.functionCallee function id span) hf
          (fun _ _ _ => ih) h
      | operator op r =>
        exact evalCall_eq_ok_of_eagerly (c := m.operatorCallee op id span) ho
          (fun _ _ _ => ih) h

/-- **Passing over arguments loses no value, and makes no failure.** The library is the
standard one, which a host has extended where all arguments are evaluated, by any overloads;
the formula need not be checked. What it comes to when every call evaluates all of its
arguments, it comes to; and where it fails, it fails without passing over arguments too. -/
theorem run_eq_ok_of_eagerly {names : Interner}
    (hf : (Standard.installFunctions {} names).1.EagerBeyond m.functions)
    (ho : (Standard.installOperators {}).EagerBeyond m.operators) (i : ScopeInstance)
    (cx : ContextMap) (t : FormulaTree) :
    (∀ value, run m.eagerly i cx t = .ok value → run m i cx t = .ok value) ∧
      ∀ e, run m i cx t = .error e → ∃ e', run m.eagerly i cx t = .error e' := by
  have hfunctions := hf.indifferent (Standard.indifferent_installFunctions names)
  have hoperators := ho.indifferent Standard.indifferent_installOperators
  have hkeep (value : Value) (h : run m.eagerly i cx t = .ok value) : run m i cx t = .ok value :=
    eval_eq_ok_of_eagerly hfunctions hoperators h
  refine ⟨hkeep, fun e he => ?_⟩
  cases hrun : run m.eagerly i cx t with
  | error e' => exact ⟨e', rfl⟩
  | ok value =>
    have hok := hkeep value hrun
    rw [he] at hok
    cases hok

/-- The function of the host answers all arguments of the choice, and the branch that is
taken. -/
theorem run_eq_ok_chosen :
    (Standard.installFunctions {} .fresh).1.EagerBeyond Sample.doubling.functions ∧
      (Standard.installOperators {}).EagerBeyond Sample.doubling.operators ∧
      run Sample.doubling.eagerly Sample.someone {} Sample.chosen = .ok (.number .zero) ∧
      run Sample.doubling Sample.someone {} Sample.chosen = .ok (.number .zero) := by
  have hf : (Standard.installFunctions {} .fresh).1.EagerBeyond Sample.doubling.functions :=
    Library.EagerBeyond.register .refl rfl _ _
  have ho : (Standard.installOperators {}).EagerBeyond Sample.doubling.operators := .refl
  have hvalue : run Sample.doubling.eagerly Sample.someone {} Sample.chosen =
      .ok (.number .zero) := rfl
  exact ⟨hf, ho, hvalue, (run_eq_ok_of_eagerly hf ho _ _ _).1 _ hvalue⟩

/-- What is passed over need not have a value: the other direction fails. -/
example : run Sample.manager Sample.someone {} Sample.shielded = .ok (.truth false) ∧
    run Sample.manager.eagerly Sample.someone {} Sample.shielded =
      .error (.library .divisionByZero .dummy) :=
  ⟨rfl, rfl⟩

end Evaluation

end Formulary
