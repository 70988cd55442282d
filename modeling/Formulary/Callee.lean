import Formulary.Context
import Formulary.Manager
/-!
# Callees — what a call applies

A function call and the application of an operator are treated alike: each has
a key in a library, a name to be shown, and arguments that are looked at one by
one, each in the context of the call told the format expected there.
-/

namespace Formulary

/-- A call or the application of an operator: what is applied, and where. -/
structure Callee (κ : Type) where
  /-- The library that has it. -/
  library : Library κ
  /-- Its key there. -/
  key : κ
  /-- Its name, or its symbol. -/
  name : String
  /-- The node that applies it. -/
  node : NodeId
  span : Span

namespace Callee

variable {κ : Type} [BEq κ]

/-- What the overloads of the callee agree on, position by position. Nothing is
expected where there is no overload of so many parameters. -/
def expected (c : Callee κ) (arity : Nat) : List (Option Format) :=
  (c.library.expectedFormats c.key arity).getD (List.replicate arity none)

/-- The arguments of a call, each with what is expected there. -/
def withExpected (c : Callee κ) (args : List NodeId) : List (NodeId × Option Format) :=
  args.zip (c.expected args.length)

/-- What is expected is said of every position. -/
theorem length_expected (c : Callee κ) (arity : Nat) : (c.expected arity).length = arity := by
  unfold expected
  cases h : c.library.expectedFormats c.key arity with
  | none => exact List.length_replicate
  | some slots => exact Library.length_expectedFormats h

/-- **No argument is lost for want of an expectation.** -/
theorem map_fst_withExpected (c : Callee κ) (args : List NodeId) :
    (c.withExpected args).map Prod.fst = args :=
  List.map_fst_zip (Nat.le_of_eq (c.length_expected args.length).symm)

end Callee

/-- The callee of a call. -/
def FormulaManager.functionCallee (m : FormulaManager) (function : Name) (node : NodeId)
    (span : Span) : Callee Name :=
  ⟨m.functions, function, m.names.lookup function, node, span⟩

/-- The callee of an operator's application. -/
def FormulaManager.operatorCallee (m : FormulaManager) (op : Operator) (node : NodeId)
    (span : Span) : Callee Operator :=
  ⟨m.operators, op, op.symbol, node, span⟩

/-- The context of an argument: that of the call, told the format expected of it. -/
def ContextMap.forArgument (cx : ContextMap) (expected : Option Format) : ContextMap :=
  cx.set Key.asserted expected

end Formulary
