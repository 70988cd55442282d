import Formulary.Proofs.Evaluation.Dispatch
import Formulary.Proofs.Evaluation.Progress
/-!
# Which implementations an evaluation asks

Every argument is worked out in a context of its own, derived from that of its call. What it is
told there is the format expected of it, and no evaluation heeds that: of all that a context
says, only the tolerance counts (`eval_congr`).

The implementations are told a tolerance too. `Asks` lists which of them an evaluation may ask,
at whatever depth, in which context and for which values. The tolerance is always that of the
context at the start (`Asks.get_tolerance`). Nothing else is asked: implementations may be
exchanged for others that answer alike what the list says (`eval_mapNatives`).
-/

namespace Formulary

/-! ## Other implementations -/

/-- The overload with another implementation. -/
def Overload.mapNative (g : Native → Native) (o : Overload) : Overload :=
  { o with native := g o.native }

namespace Library

section

variable {κ : Type}

/-- The library with other implementations of all overloads. -/
def mapNatives (g : Native → Native) (l : Library κ) : Library κ :=
  ⟨⟨l.entries.entries.map fun e =>
    (e.1, { e.2 with overloads := e.2.overloads.map (Overload.mapNative g) })⟩⟩

variable [BEq κ] (g : Native → Native) (l : Library κ) (key : κ)

theorem find?_mapNatives : (l.mapNatives g).entries.find? key =
    (l.entries.find? key).map fun e =>
      { e with overloads := e.overloads.map (Overload.mapNative g) } :=
  l.entries.find?_map (fun e => { e with overloads := e.overloads.map (Overload.mapNative g) }) key

@[simp] theorem contains_mapNatives : (l.mapNatives g).contains key = l.contains key := by
  simp only [contains, Table.contains, find?_mapNatives, Option.isSome_map]

@[simp] theorem overloads_mapNatives :
    (l.mapNatives g).overloads key = (l.overloads key).map (Overload.mapNative g) := by
  simp only [overloads, entry, find?_mapNatives]
  cases l.entries.find? key <;> rfl

@[simp] theorem strategy_mapNatives : (l.mapNatives g).strategy key = l.strategy key := by
  simp only [strategy, entry, find?_mapNatives]
  cases l.entries.find? key <;> rfl

@[simp] theorem arities_mapNatives : (l.mapNatives g).arities key = l.arities key := by
  simp only [arities, overloads_mapNatives, List.map_map]
  rfl

@[simp] theorem expectedFormats_mapNatives (arity : Nat) :
    (l.mapNatives g).expectedFormats key arity = l.expectedFormats key arity := by
  have harity : ((fun o : Overload => o.signature.arity == arity) ∘ Overload.mapNative g) =
      fun o => o.signature.arity == arity := rfl
  simp only [expectedFormats, overloads_mapNatives, List.filter_map, harity]
  cases (l.overloads key).filter fun o => o.signature.arity == arity with
  | nil => rfl
  | cons first rest =>
    simp only [List.map_cons, List.foldl_map]
    rfl

/-- The same overload is chosen, with the other implementation. -/
theorem select_mapNatives (formats : List Format) :
    (l.mapNatives g).select key formats =
      (l.select key formats).map (Overload.mapNative g) := by
  simp only [select, find?_mapNatives, arities_mapNatives]
  cases l.entries.find? key with
  | none => rfl
  | some e =>
    have haccepts : ((fun o : Overload => o.signature.accepts formats) ∘ Overload.mapNative g) =
        fun o => o.signature.accepts formats := rfl
    have harity : ((fun o : Overload => o.signature.arity == formats.length) ∘
        Overload.mapNative g) = fun o => o.signature.arity == formats.length := rfl
    simp only [Option.map_some, List.find?_map, haccepts, List.any_map, harity]
    cases e.overloads.find? fun o => o.signature.accepts formats with
    | some o => rfl
    | none =>
      simp only [Option.map_none]
      split <;> rfl

end

end Library

/-- The manager with other implementations of all functions and operators. -/
def FormulaManager.mapNatives (g : Native → Native) (m : FormulaManager) : FormulaManager :=
  { m with functions := m.functions.mapNatives g, operators := m.operators.mapNatives g }

/-- The callee in a library with other implementations. -/
def Callee.mapNatives {κ : Type} (g : Native → Native) (c : Callee κ) : Callee κ :=
  { c with library := c.library.mapNatives g }

/-- The same is expected of the arguments. -/
@[simp] theorem Callee.withExpected_mapNatives {κ : Type} [BEq κ] (g : Native → Native)
    (c : Callee κ) (args : List NodeId) :
    (c.mapNatives g).withExpected args = c.withExpected args := by
  simp only [withExpected, expected, mapNatives, Library.expectedFormats_mapNatives]

namespace Evaluation

variable {m : FormulaManager} {i : ScopeInstance} {t : FormulaTree} {cx cx' : ContextMap}
variable {levels : Nat} {id : NodeId} {o : Overload} {context : CallContext}
variable {values : List Value} {g : Native → Native}

/-! ## What an evaluation heeds -/

/-- **Of what it is told, an evaluation heeds only the tolerance.** -/
theorem eval_congr (h : cx.get Key.tolerance = cx'.get Key.tolerance) :
    eval m i t levels cx id = eval m i t levels cx' id := by
  induction levels generalizing cx cx' id with
  | zero =>
    unfold eval
    rfl
  | succ levels ih =>
    have hcall {κ : Type} [BEq κ] (c : Callee κ) (args? : Option (List NodeId)) :
        evalCall (eval m i t levels) cx c args? = evalCall (eval m i t levels) cx' c args? := by
      cases args? with
      | none => rfl
      | some args =>
        have hargs (arg : NodeId) (slot : Option Format) :
            eval m i t levels (cx.forArgument slot) arg =
              eval m i t levels (cx'.forArgument slot) arg := by
          refine ih ?_
          rw [get_tolerance_forArgument, get_tolerance_forArgument, h]
        have hanswer (values : List Value) : answer cx c values = answer cx' c values := by
          simp only [answer, h]
        exact (sameUnless_evalCall
          (List.forall₂_same.2 fun arg _ slot => .inl (hargs arg slot).symm) c.node
          fun values => .inl (hanswer values).symm).eq.symm
    simp only [eval]
    cases t.node? id with
    | none => rfl
    | some node =>
      obtain ⟨kind, span⟩ := node
      cases kind with
      | literal literal => rfl
      | var name => rfl
      | call function r => exact hcall _ _
      | operator op r => exact hcall _ _

/-! ## Implementations that are asked -/

/-- An evaluation may ask the implementation of an overload, in a context and for values: for
its own call, or for one below it, in the context derived for an argument. Whether that
argument is one of those that are worked out is left open. -/
inductive Asks (m : FormulaManager) (i : ScopeInstance) (t : FormulaTree) (o : Overload)
    (context : CallContext) (values : List Value) : Nat → ContextMap → NodeId → Prop
  | here {levels : Nat} {cx : ContextMap} {id : NodeId}
      (h : m.AtCall t id fun c args =>
        CallRuns (eval m i t levels) cx c args o context values) :
      Asks m i t o context values (levels + 1) cx id
  | down {levels : Nat} {cx : ContextMap} {id arg : NodeId} {slot : Option Format}
      (hat : m.AtCall t id fun c args => (arg, slot) ∈ c.withExpected args)
      (h : Asks m i t o context values levels (cx.forArgument slot) arg) :
      Asks m i t o context values (levels + 1) cx id

/-- An implementation is told the tolerance of the context of the call. -/
theorem CallRuns.get_tolerance {κ : Type} [BEq κ] {c : Callee κ} {args : List NodeId}
    {eval : ContextMap → NodeId → Except EvalError Value}
    (h : CallRuns eval cx c args o context values) :
    cx.get Key.tolerance = .ok context.tolerance := by
  obtain ⟨tolerance, htol, hcontext⟩ := h.context
  rw [CallContext.withTolerance_eq] at hcontext
  split at hcontext
  · cases hcontext
    exact htol
  · cases hcontext

/-- **Every implementation is told the tolerance of the start,** however far below. -/
theorem Asks.get_tolerance (h : Asks m i t o context values levels cx id) :
    cx.get Key.tolerance = .ok context.tolerance := by
  induction h with
  | here h => cases h with | call _ _ h | operator _ _ h => exact h.get_tolerance
  | down _ _ ih => rw [← get_tolerance_forArgument, ih]

/-- What is not told is no tolerance at all. -/
theorem tolerance_of_not_contains (h : cx.contains Key.tolerance = false) :
    cx.get Key.tolerance = .ok 0 := by
  have hnone : cx.entries.find? Key.tolerance.name = none := by
    simpa [ContextMap.contains, Table.contains] using h
  simp only [ContextMap.get, hnone]
  rfl

section

variable {κ : Type} [BEq κ] {c : Callee κ} {args : List NodeId}
variable {eval eval' : ContextMap → NodeId → Except EvalError Value}

omit [BEq κ] in
/-- The complaints of a call do not show its implementations. -/
theorem callError_mapNatives : callError (c.mapNatives g) values = callError c values := by
  funext e
  cases e <;> rfl

/-- The library answers alike if the other implementation does. -/
theorem answer_mapNatives (h : ∀ o context, (∃ tolerance, cx.get Key.tolerance = .ok tolerance ∧
      CallContext.withTolerance tolerance = .ok context) →
    c.library.select c.key (values.map Value.format) = .ok o →
      g o.native context values = o.native context values) :
    answer cx (c.mapNatives g) values = answer cx c values := by
  unfold answer
  cases htol : cx.get Key.tolerance with
  | error e => rfl
  | ok tolerance =>
    cases hcontext : CallContext.withTolerance tolerance with
    | error e => simp only [hcontext]
    | ok context =>
      have hevaluate : (c.mapNatives g).library.evaluate (c.mapNatives g).key context values =
          c.library.evaluate c.key context values := by
        have hselect := c.library.select_mapNatives g c.key (values.map Value.format)
        unfold Library.evaluate
        cases ho : c.library.select c.key (values.map Value.format) with
        | error e =>
          rw [ho] at hselect
          simp only [Callee.mapNatives, hselect]
          rfl
        | ok o =>
          rw [ho] at hselect
          simp only [Callee.mapNatives, hselect]
          exact congrArg (Except.mapError CallError.failed)
            (h o context ⟨tolerance, htol, hcontext⟩ ho)
      simp only [hcontext, hevaluate, callError_mapNatives]

/-- **A call comes to the same** if its arguments do, and if the other implementation answers
alike what is asked for the call. -/
theorem evalCall_mapNatives
    (hargs : ∀ arg ∈ args, ∀ slot, eval' (cx.forArgument slot) arg = eval (cx.forArgument slot) arg)
    (hown : ∀ o context values, CallRuns eval cx c args o context values →
      g o.native context values = o.native context values) :
    evalCall eval' cx (c.mapNatives g) (some args) = evalCall eval cx c (some args) := by
  have hsame : evalOperands eval' cx (c.mapNatives g) args = evalOperands eval' cx c args := by
    have hstrategy : (c.mapNatives g).library.strategy (c.mapNatives g).key =
        c.library.strategy c.key := c.library.strategy_mapNatives g c.key
    simp only [evalOperands, hstrategy, Callee.withExpected_mapNatives]
    rfl
  have hoperands : evalOperands eval' cx c args = evalOperands eval cx c args :=
    (sameUnless_evalOperands (List.forall₂_same.2 fun arg harg slot =>
      .inl (hargs arg harg slot))).eq
  have hcontains : (c.mapNatives g).library.contains (c.mapNatives g).key =
      c.library.contains c.key := c.library.contains_mapNatives g c.key
  simp only [evalCall, hcontains, hsame, hoperands]
  split
  · cases h : evalOperands eval cx c args with
    | error e => rfl
    | ok operands =>
      cases operands with
      | settled value => rfl
      | all values =>
        exact answer_mapNatives fun o context hcontext ho =>
          hown o context values ⟨h, hcontext, ho⟩
  · rfl

end

/-- **An evaluation asks nothing else.** It comes to the same with other implementations that
answer alike what it may ask. -/
theorem eval_mapNatives (h : ∀ o context values, Asks m i t o context values levels cx id →
    g o.native context values = o.native context values) :
    eval (m.mapNatives g) i t levels cx id = eval m i t levels cx id := by
  induction levels generalizing cx id with
  | zero =>
    unfold eval
    rfl
  | succ levels ih =>
    have hcall {κ : Type} [BEq κ] {c : Callee κ} {args : List NodeId}
        (hown : ∀ o context values, CallRuns (eval m i t levels) cx c args o context values →
          Asks m i t o context values (levels + 1) cx id)
        (hdown : ∀ o context values arg slot, (arg, slot) ∈ c.withExpected args →
          Asks m i t o context values levels (cx.forArgument slot) arg →
          Asks m i t o context values (levels + 1) cx id) :
        evalCall (eval (m.mapNatives g) i t levels) cx (c.mapNatives g) (some args) =
          evalCall (eval m i t levels) cx c (some args) := by
      refine evalCall_mapNatives (fun arg harg slot => ?_) fun o context values hruns =>
        h o context values (hown o context values hruns)
      rw [← c.map_fst_withExpected args] at harg
      obtain ⟨⟨arg, expected⟩, hpair, rfl⟩ := List.mem_map.1 harg
      -- whatever an argument is told of its format, it comes to what it comes to as expected
      have htol : (cx.forArgument slot).get Key.tolerance =
          (cx.forArgument expected).get Key.tolerance := by
        rw [get_tolerance_forArgument, get_tolerance_forArgument]
      rw [eval_congr htol, eval_congr htol]
      exact ih fun o context values hasks =>
        h o context values (hdown o context values arg expected hpair hasks)
    cases hn : t.node? id with
    | none => simp only [eval, hn]
    | some node =>
      obtain ⟨kind, span⟩ := node
      simp only [eval, hn]
      cases kind with
      | literal literal => rfl
      | var name => rfl
      | call function r =>
        dsimp only
        cases ha : t.args? r with
        | none => rfl
        | some args =>
          exact hcall (c := m.functionCallee function id span)
            (fun _ _ _ hruns => .here (.call hn ha hruns))
            fun _ _ _ _ _ hpair hasks => .down (.call hn ha hpair) hasks
      | operator op r =>
        dsimp only
        cases ha : t.args? r with
        | none => rfl
        | some args =>
          exact hcall (c := m.operatorCallee op id span)
            (fun _ _ _ hruns => .here (.operator hn ha hruns))
            fun _ _ _ _ _ hpair hasks => .down (.operator hn ha hpair) hasks

end Evaluation

end Formulary
