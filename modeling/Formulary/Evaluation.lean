import Formulary.Callee
import Formulary.Evaluation.Error
/-!
# The value of a formula for an instance

An evaluation works out the values of the arguments of a call, as many as the
strategy of its callee asks for, and has the library answer them. A choice
works out its condition and one branch, and passes that branch in both places.
A short circuit whose first argument settles it is that argument. An
evaluation stops at the first error.
-/

namespace Formulary

namespace Evaluation

/-- The value of a literal. -/
def literal (m : FormulaManager) : Literal → Value
  | .number x => .number x
  | .text name => .text (m.names.lookup name)
  | .truth b => .truth b

/-- The value of a variable used from an instance. -/
def evalVariable (m : FormulaManager) (i : ScopeInstance) (name : Name) (span : Span) :
    Except EvalError Value :=
  match m.resolveName i name with
  | .error (.undeclared name scope) => .error (.unresolvedVariable name scope span)
  | .error (.config e) => .error (.config e)
  | .ok v =>
    match m.valueOf v with
    | some value => .ok value
    | none => .error (.unsetVariable v.label span)

/-- What the evaluation of a call's arguments comes to. -/
inductive Operands where
  /-- These values are to be answered. -/
  | all (values : List Value)
  /-- This is the value of the call. -/
  | settled (value : Value)

section

variable {κ : Type} [BEq κ] (eval : ContextMap → NodeId → Except EvalError Value)

/-- The value of an argument, told what is expected there. -/
def evalArgument (cx : ContextMap) (arg : NodeId × Option Format) : Except EvalError Value :=
  eval (cx.forArgument arg.2) arg.1

/-- The operands of a choice: its condition, and the branch taken, twice. -/
def evalChoice (cx : ContextMap) (c : Callee κ)
    (condition ifTrue ifFalse : NodeId × Option Format) : Except EvalError (List Value) :=
  match evalArgument eval cx condition with
  | .error e => .error e
  | .ok value =>
    match value.asTruth? with
    | none => .error (.noMatchingOverload c.name [value.format] c.span)
    | some taken =>
      let branch :=
        if taken then evalArgument eval cx ifTrue else evalArgument eval cx ifFalse
      match branch with
      | .error e => .error e
      | .ok branch => .ok [value, branch, branch]

/-- The operands of a call, as many as its strategy asks for. -/
def evalOperands (cx : ContextMap) (c : Callee κ) (args : List NodeId) :
    Except EvalError Operands :=
  match c.library.strategy c.key, c.withExpected args with
  | .select, [condition, ifTrue, ifFalse] =>
    (evalChoice eval cx c condition ifTrue ifFalse).map .all
  | .shortCircuit stop, first :: rest =>
    match evalArgument eval cx first with
    | .error e => .error e
    | .ok value =>
      if value.asTruth? = some stop then .ok (.settled value)
      else (rest.mapM (evalArgument eval cx)).map fun values => .all (value :: values)
  | _, args => (args.mapM (evalArgument eval cx)).map .all

/-- The error of a call that the library did not answer. -/
def callError (c : Callee κ) (values : List Value) : CallError → EvalError
  | .failed e => .library e c.span
  | .unknown => .unknownFunction c.name c.span
  | .wrongArgCount .. => .noMatchingOverload c.name (values.map Value.format) c.span
  | .noMatchingOverload _ => .noMatchingOverload c.name (values.map Value.format) c.span

/-- The library's answer to values, given the tolerance of the context. -/
def answer (cx : ContextMap) (c : Callee κ) (values : List Value) : Except EvalError Value :=
  match cx.get Key.tolerance with
  | .error e => .error (.config e)
  | .ok tolerance =>
    match CallContext.withTolerance tolerance with
    | .error e => .error (.config e)
    | .ok context => (c.library.evaluate c.key context values).mapError (callError c values)

/-- The value of a call. -/
def evalCall (cx : ContextMap) (c : Callee κ) : Option (List NodeId) → Except EvalError Value
  | none => .error (.config (.malformedTree c.node))
  | some args =>
    if c.library.contains c.key then
      match evalOperands eval cx c args with
      | .error e => .error e
      | .ok (.settled value) => .ok value
      | .ok (.all values) => answer cx c values
    else .error (.unknownFunction c.name c.span)

end

/-- The value of the part of a formula at a node, of which `remaining` levels
may be walked. -/
def eval (m : FormulaManager) (i : ScopeInstance) (tree : FormulaTree) :
    Nat → ContextMap → NodeId → Except EvalError Value
  | remaining, cx, id =>
    match tree.node? id with
    | none => .error (.config (.malformedTree id))
    | some node =>
      match remaining with
      | 0 => .error (.nestingTooDeep m.config.maxTreeDepth node.span)
      | remaining + 1 =>
        let eval := eval m i tree remaining
        match node.kind with
        | .literal value => .ok (literal m value)
        | .var name => evalVariable m i name node.span
        | .call function args =>
          evalCall eval cx (m.functionCallee function id node.span) (tree.args? args)
        | .operator op args =>
          evalCall eval cx (m.operatorCallee op id node.span) (tree.args? args)

/-- The value of a formula. -/
def run (m : FormulaManager) (i : ScopeInstance) (cx : ContextMap) (tree : FormulaTree) :
    Except EvalError Value :=
  eval m i tree m.config.maxTreeDepth cx tree.root

end Evaluation

end Formulary
