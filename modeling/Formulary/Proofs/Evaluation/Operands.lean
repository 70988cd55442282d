import Formulary.Evaluation
import Formulary.Proofs.Answers
/-!
# What the operands of a call come to

An evaluation of a call works out some of its arguments and skips others. What
comes of it is one of three things (`Operands.From`): the values of all
arguments, a condition with the branch taken in both places, or a first argument
that settles the call. It fails with an argument, or because a condition is no
truth value (`evalOperands_eq_error`). So a call depends on what its arguments come
to, and on nothing else that is below it (`sameUnless_evalCall`).
-/

namespace Formulary

theorem Value.asTruth?_eq_some_iff {v : Value} {b : Bool} :
    v.asTruth? = some b ↔ v = .truth b := by
  cases v <;> simp [asTruth?]

/-- A tolerance is one if it is not below zero, and a number. -/
theorem CallContext.withTolerance_eq (tolerance : Float) : withTolerance tolerance =
    if tolerance ≥ 0 then .ok ⟨tolerance⟩ else .error (.negativeTolerance tolerance) := by
  unfold withTolerance checkTolerance
  split
  · rename_i e he
    split at he
    · cases he
    · rename_i hneg
      cases he
      rw [if_neg hneg]
  · rename_i hok
    split at hok
    · rename_i hnonneg
      rw [if_pos hnonneg]
    · cases hok

namespace Evaluation

/-- The operands that the arguments of a call come to under a strategy, where `R` says
what values they have. -/
inductive Operands.From (R : NodeId → Value → Prop) (strategy : CallStrategy) :
    List NodeId → Operands → Prop
  | all {args : List NodeId} {values : List Value} (h : List.Forall₂ R args values) :
      From R strategy args (.all values)
  | chosen {condition ifTrue ifFalse : NodeId} {taken : Bool} {branch : Value}
      (hs : strategy = .select) (hc : R condition (.truth taken))
      (hb : R (if taken then ifTrue else ifFalse) branch) :
      From R strategy [condition, ifTrue, ifFalse] (.all [.truth taken, branch, branch])
  | settled {first : NodeId} {rest : List NodeId} {stop : Bool}
      (hs : strategy = .shortCircuit stop) (h : R first (.truth stop)) :
      From R strategy (first :: rest) (.settled (.truth stop))

variable {κ : Type} [BEq κ] {eval : ContextMap → NodeId → Except EvalError Value}
variable {cx : ContextMap} {c : Callee κ} {args : List NodeId} {e : EvalError}

/-- An argument has a value in the context of the call, told what is expected of it. -/
def HasValue (eval : ContextMap → NodeId → Except EvalError Value) (cx : ContextMap)
    (arg : NodeId) (value : Value) : Prop :=
  ∃ slot, eval (cx.forArgument slot) arg = .ok value

/-- All arguments, worked out from the left. -/
theorem forall₂_of_mapM_evalArgument {pairs : List (NodeId × Option Format)}
    {values : List Value} (h : pairs.mapM (evalArgument eval cx) = .ok values) :
    List.Forall₂ (HasValue eval cx) (pairs.map Prod.fst) values :=
  List.forall₂_map_left_iff.2 ((mapM_eq_ok_iff.1 h).imp fun pair _ hv => ⟨pair.2, hv⟩)

/-- The branch of a choice is one of its last two arguments. -/
theorem evalArgument_ite (taken : Bool) (ifTrue ifFalse : NodeId × Option Format) :
    (if taken then evalArgument eval cx ifTrue else evalArgument eval cx ifFalse) =
      eval (cx.forArgument (if taken then ifTrue else ifFalse).2)
        (if taken then ifTrue.1 else ifFalse.1) := by
  cases taken <;> rfl

omit [BEq κ] in
/-- The operands of a choice: a condition, and the branch it takes. -/
theorem evalChoice_eq_ok {condition ifTrue ifFalse : NodeId × Option Format}
    {values : List Value} (h : evalChoice eval cx c condition ifTrue ifFalse = .ok values) :
    ∃ taken branch, values = [.truth taken, branch, branch] ∧
      HasValue eval cx condition.1 (.truth taken) ∧
      HasValue eval cx (if taken then ifTrue.1 else ifFalse.1) branch := by
  unfold evalChoice at h
  split at h
  · cases h
  · rename_i value hvalue
    split at h
    · cases h
    · rename_i taken htaken
      obtain rfl := Value.asTruth?_eq_some_iff.1 htaken
      rw [evalArgument_ite] at h
      dsimp only at h
      split at h
      · cases h
      · rename_i branch hbranch
        cases h
        exact ⟨taken, branch, rfl, ⟨_, hvalue⟩, ⟨_, hbranch⟩⟩

/-- **Operands that were worked out come from the arguments.** -/
theorem evalOperands_eq_ok {operands : Operands}
    (h : evalOperands eval cx c args = .ok operands) :
    operands.From (HasValue eval cx) (c.library.strategy c.key) args := by
  have hfst := c.map_fst_withExpected args
  unfold evalOperands at h
  split at h
  · rename_i condition ifTrue ifFalse hs hpairs
    rw [hpairs] at hfst
    rw [← hfst]
    obtain ⟨values, hvalues, rfl⟩ := map_eq_ok_iff.1 h
    obtain ⟨taken, branch, rfl, hc, hb⟩ := evalChoice_eq_ok hvalues
    exact .chosen hs hc hb
  · rename_i stop first rest hs hpairs
    rw [hpairs] at hfst
    rw [← hfst]
    split at h
    · cases h
    · rename_i value hvalue
      split at h
      · rename_i hstop
        obtain rfl := Value.asTruth?_eq_some_iff.1 hstop
        cases h
        exact .settled hs ⟨_, hvalue⟩
      · obtain ⟨values, hvalues, rfl⟩ := map_eq_ok_iff.1 h
        exact .all (.cons ⟨_, hvalue⟩ (forall₂_of_mapM_evalArgument hvalues))
  · obtain ⟨values, hvalues, rfl⟩ := map_eq_ok_iff.1 h
    have hall := forall₂_of_mapM_evalArgument hvalues
    rw [hfst] at hall
    exact .all hall

/-- Every operand is the value of an argument. -/
theorem Operands.From.exists_of_mem {R : NodeId → Value → Prop} {strategy : CallStrategy}
    {values : List Value} (h : (Operands.all values).From R strategy args) {value : Value}
    (hv : value ∈ values) : ∃ arg ∈ args, R arg value := by
  cases h with
  | all h =>
    induction h with
    | nil => cases hv
    | cons hr _ ih =>
      rcases List.mem_cons.1 hv with rfl | hv
      · exact ⟨_, List.mem_cons_self, hr⟩
      · obtain ⟨arg, harg, hr⟩ := ih hv
        exact ⟨arg, List.mem_cons_of_mem _ harg, hr⟩
  | @chosen condition ifTrue ifFalse taken branch hs hc hb =>
    have hvalue : value = .truth taken ∨ value = branch := by simpa using hv
    rcases hvalue with rfl | rfl
    · exact ⟨condition, by simp, hc⟩
    · exact ⟨_, by cases taken <;> simp, hb⟩

/-- An argument cannot be worked out in the context of the call. -/
def Fails (eval : ContextMap → NodeId → Except EvalError Value) (cx : ContextMap)
    (arg : NodeId) (e : EvalError) : Prop :=
  ∃ slot, eval (cx.forArgument slot) arg = .error e

theorem exists_of_mapM_evalArgument {pairs : List (NodeId × Option Format)}
    (h : pairs.mapM (evalArgument eval cx) = .error e) :
    ∃ arg ∈ pairs.map Prod.fst, Fails eval cx arg e := by
  obtain ⟨pair, hpair, he⟩ := exists_of_mapM_eq_error h
  exact ⟨pair.1, List.mem_map_of_mem hpair, pair.2, he⟩

omit [BEq κ] in
/-- A choice fails with its condition, with the branch taken, or because the condition
is no truth value. -/
theorem evalChoice_eq_error {condition ifTrue ifFalse : NodeId × Option Format}
    (h : evalChoice eval cx c condition ifTrue ifFalse = .error e) :
    (∃ arg ∈ [condition.1, ifTrue.1, ifFalse.1], Fails eval cx arg e) ∨
      ∃ value, HasValue eval cx condition.1 value ∧ value.asTruth? = none ∧
        e = .noMatchingOverload c.name [value.format] c.span := by
  unfold evalChoice at h
  split at h
  · rename_i e' he
    cases h
    exact .inl ⟨condition.1, by simp, _, he⟩
  · rename_i value hvalue
    split at h
    · rename_i hnone
      cases h
      exact .inr ⟨value, ⟨_, hvalue⟩, hnone, rfl⟩
    · rename_i taken htaken
      rw [evalArgument_ite] at h
      dsimp only at h
      split at h
      · rename_i e' he
        cases h
        exact .inl ⟨_, by cases taken <;> simp, _, he⟩
      · cases h

/-- **Operands fail with an argument, or with a condition that is no truth value.** -/
theorem evalOperands_eq_error (h : evalOperands eval cx c args = .error e) :
    (∃ arg ∈ args, Fails eval cx arg e) ∨
      ∃ condition ifTrue ifFalse value, c.library.strategy c.key = .select ∧
        args = [condition, ifTrue, ifFalse] ∧ HasValue eval cx condition value ∧
        value.asTruth? = none ∧ e = .noMatchingOverload c.name [value.format] c.span := by
  have hfst := c.map_fst_withExpected args
  unfold evalOperands at h
  split at h
  · rename_i condition ifTrue ifFalse hs hpairs
    rw [hpairs] at hfst
    rw [← hfst]
    rcases evalChoice_eq_error (map_eq_error_iff.1 h) with hfail | ⟨value, hvalue, hnone, he⟩
    · exact .inl hfail
    · exact .inr ⟨_, _, _, value, hs, rfl, hvalue, hnone, he⟩
  · rename_i stop first rest hs hpairs
    rw [hpairs] at hfst
    rw [← hfst]
    split at h
    · rename_i e' he
      cases h
      exact .inl ⟨first.1, by simp, _, he⟩
    · split at h
      · cases h
      · obtain ⟨arg, harg, he⟩ := exists_of_mapM_evalArgument (map_eq_error_iff.1 h)
        exact .inl ⟨arg, List.mem_cons_of_mem _ harg, he⟩
  · obtain ⟨arg, harg, he⟩ := exists_of_mapM_evalArgument (map_eq_error_iff.1 h)
    rw [hfst] at harg
    exact .inl ⟨arg, harg, he⟩

/-- **A call fails with an argument, or with the library's answer,** unless what it applies is
unknown, or it is a choice whose condition is no truth value. -/
theorem evalCall_eq_error (h : evalCall eval cx c (some args) = .error e) :
    (∃ arg ∈ args, Fails eval cx arg e) ∨ (∃ values, answer cx c values = .error e) ∨
      e = .unknownFunction c.name c.span ∨ ∃ found, e = .noMatchingOverload c.name found c.span := by
  simp only [evalCall] at h
  split at h
  · split at h
    · rename_i e' hoperands
      cases h
      rcases evalOperands_eq_error hoperands with hfail | ⟨_, _, _, value, -, -, -, -, he⟩
      · exact .inl hfail
      · exact .inr (.inr (.inr ⟨[value.format], he⟩))
    · cases h
    · rename_i values _
      exact .inr (.inl ⟨values, h⟩)
  · cases h
    exact .inr (.inr (.inl rfl))

/-! ## Arguments that come to the same -/

section

variable {P : EvalError → Prop} {eval' : ContextMap → NodeId → Except EvalError Value}
variable {cx' : ContextMap} {args' : List NodeId}

/-- Of arguments that are related, the same is expected. -/
theorem forall₂_withExpected {R : NodeId → NodeId → Prop} (h : List.Forall₂ R args args') :
    List.Forall₂ (fun p p' => R p.1 p'.1 ∧ p.2 = p'.2) (c.withExpected args)
      (c.withExpected args') := by
  rw [Callee.withExpected, Callee.withExpected, ← h.length_eq]
  generalize c.expected args.length = slots
  induction h generalizing slots with
  | nil => exact .nil
  | cons harg _ ih =>
    cases slots with
    | nil => exact .nil
    | cons slot slots => exact .cons ⟨harg, rfl⟩ (ih slots)

omit [BEq κ] in
/-- The operands of a choice are the same if its arguments are. -/
theorem sameUnless_evalChoice {condition ifTrue ifFalse condition' ifTrue' ifFalse' :
      NodeId × Option Format}
    (hc : SameUnless P (evalArgument eval cx condition) (evalArgument eval' cx' condition'))
    (ht : SameUnless P (evalArgument eval cx ifTrue) (evalArgument eval' cx' ifTrue'))
    (hf : SameUnless P (evalArgument eval cx ifFalse) (evalArgument eval' cx' ifFalse')) :
    SameUnless P (evalChoice eval cx c condition ifTrue ifFalse)
      (evalChoice eval' cx' c condition' ifTrue' ifFalse') := by
  unfold evalChoice
  rcases hc with hc | ⟨e, he, hP⟩
  · rw [hc]
    cases evalArgument eval cx condition with
    | error e => exact .inl rfl
    | ok value =>
      dsimp only
      cases value.asTruth? with
      | none => exact .inl rfl
      | some taken =>
        -- whichever branch is taken, it is the only one that is worked out
        have hbranch : SameUnless P
            (if taken then evalArgument eval cx ifTrue else evalArgument eval cx ifFalse)
            (if taken then evalArgument eval' cx' ifTrue' else evalArgument eval' cx' ifFalse') := by
          cases taken
          · exact hf
          · exact ht
        dsimp only
        rcases hbranch with hbranch | ⟨e, he, hP⟩
        · rw [hbranch]
          exact .inl rfl
        · rw [he]
          exact .inr ⟨e, rfl, hP⟩
  · rw [he]
    exact .inr ⟨e, rfl, hP⟩

variable (hargs : List.Forall₂ (fun arg arg' => ∀ slot, SameUnless P
  (eval (cx.forArgument slot) arg) (eval' (cx'.forArgument slot) arg')) args args')
include hargs

/-- **Operands depend on what the arguments come to,** and on nothing else. -/
theorem sameUnless_evalOperands :
    SameUnless P (evalOperands eval cx c args) (evalOperands eval' cx' c args') := by
  have hpairs : List.Forall₂ (fun p p' => SameUnless P (evalArgument eval cx p)
      (evalArgument eval' cx' p')) (c.withExpected args) (c.withExpected args') := by
    refine (forall₂_withExpected hargs).imp fun p p' ⟨harg, hslot⟩ => ?_
    rw [evalArgument, evalArgument, ← hslot]
    exact harg p.2
  have hall := (SameUnless.mapM hpairs).map Operands.all
  unfold evalOperands
  generalize c.withExpected args = pairs at hpairs hall ⊢
  generalize c.withExpected args' = pairs' at hpairs hall ⊢
  cases c.library.strategy c.key with
  | eager => exact hall
  | shortCircuit stop =>
    cases hpairs with
    | nil => exact .inl rfl
    | @cons first first' rest rest' hfirst hrest =>
      dsimp only
      rcases hfirst with hfirst | ⟨e, he, hP⟩
      · rw [hfirst]
        cases evalArgument eval cx first with
        | error e => exact .inl rfl
        | ok value =>
          dsimp only
          split
          · exact .inl rfl
          · exact (SameUnless.mapM hrest).map _
      · rw [he]
        exact .inr ⟨e, rfl, hP⟩
  | select =>
    -- a choice needs three arguments, and all other lists are worked out from the left
    obtain _ | ⟨hc, _ | ⟨ht, _ | ⟨hf, _ | _⟩⟩⟩ := hpairs
    case cons.cons.cons.nil => exact (sameUnless_evalChoice hc ht hf).map _
    all_goals exact hall

/-- **A call comes to the same if its arguments do,** and if the library answers what they
come to alike. At which node it stands does not count. -/
theorem sameUnless_evalCall (node : NodeId)
    (hanswer : ∀ values, SameUnless P (answer cx c values) (answer cx' c values)) :
    SameUnless P (evalCall eval cx c (some args))
      (evalCall eval' cx' { c with node } (some args')) := by
  have hoperands : SameUnless P (evalOperands eval cx c args)
      (evalOperands eval' cx' { c with node } args') := sameUnless_evalOperands hargs
  simp only [evalCall]
  split
  · rcases hoperands with hoperands | ⟨e, he, hP⟩
    · rw [hoperands]
      cases evalOperands eval cx c args with
      | error e => exact .inl rfl
      | ok operands =>
        cases operands with
        | settled value => exact .inl rfl
        | all values => exact hanswer values
    · rw [he]
      exact .inr ⟨e, rfl, hP⟩
  · exact .inl rfl

end

end Evaluation

end Formulary
