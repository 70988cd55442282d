import Formulary.Dependency
import Formulary.Evaluation
import Formulary.Semantics
import Formulary.Walk
/-!
# The passes as walks

A check, a capture and an evaluation, visit by visit, with what each visit does to the depth
guard. An id with no node is answered before a level is entered, and so is a visit that is
refused one. Every other visit leaves its level before it answers, and what a check compares
with the format asked of the part, it compares after that.
-/

namespace Formulary

namespace Semantics

section

variable {κ : Type} [BEq κ]

/-- The visits of arguments of which nothing is expected. -/
def walkUnconstrained (cx : ContextMap) (args : List NodeId) :
    Walk Verdict (Findings SemanticsError) := do
  let verdicts ← args.mapM (Walk.visit (cx.forArgument none))
  return Verdict.allErrors verdicts

/-- The visits for a call of a callee that its library has. -/
def walkKnownCall (cx : ContextMap) (c : Callee κ) (args : List NodeId) :
    Walk Verdict Verdict :=
  match c.library.expectedFormats c.key args.length with
  | none => do
    let error := .wrongArgCount c.name (c.library.arities c.key) args.length c.span
    let errors ← walkUnconstrained cx args
    return ⟨.singleton error ++ errors, none⟩
  | some expected => do
    let verdicts ← (args.zip expected).mapM fun (arg, asserted) =>
      Walk.visit (cx.forArgument asserted) arg
    let errors := Verdict.allErrors verdicts
    match Verdict.allFormats verdicts with
    | none => return ⟨errors, none⟩
    | some formats =>
      match c.library.resultFormat c.key formats with
      | .ok format => return ⟨errors, some format⟩
      | .error e => return ⟨errors ++ callError c.name c.span e, none⟩

/-- The visits for a call. -/
def walkCall (cx : ContextMap) (c : Callee κ) (unknown : SemanticsError) :
    Option (List NodeId) → Walk Verdict Verdict
  | none => return .reject (.config (.malformedTree c.node))
  | some args =>
    if c.library.contains c.key then walkKnownCall cx c args
    else do
      let errors ← walkUnconstrained cx args
      return ⟨.singleton unknown ++ errors, none⟩

end

/-- What the visit of a check does inside of its level. -/
def walkInside (m : FormulaManager) (scope : LegalScope) (tree : FormulaTree) (cx : ContextMap)
    (id : NodeId) (node : Node) : Walk Verdict Verdict :=
  match node.kind with
  | .literal value => return .accept value.format
  | .var name => return checkVariable m scope name node.span
  | .call function args =>
    let c := m.functionCallee function id node.span
    walkCall cx c (.unknownFunction c.name node.span) (tree.args? args)
  | .operator op args =>
    let c := m.operatorCallee op id node.span
    walkCall cx c (.unknownOperator op node.span) (tree.args? args)

/-- The visit of a check. -/
def walk (m : FormulaManager) (scope : LegalScope) (tree : FormulaTree) (cx : ContextMap)
    (id : NodeId) : Walk Verdict Verdict :=
  match tree.node? id with
  | none => return .reject (.config (.malformedTree id))
  | some node =>
    .enter (fun limit => return .reject (.nestingTooDeep limit node.span)) do
      let computed ← walkInside m scope tree cx id node
      .leave (return checkAsserted tree cx id node.span computed)

end Semantics

namespace Dependency

section

variable {κ : Type} [BEq κ]

/-- The visits of arguments, from the left, up to the first that fails. -/
def walkEach (cx : ContextMap) : List (NodeId × Option Format) → Walk Capture Capture
  | [] => return {}
  | (arg, asserted) :: rest => do
    let c ← Walk.visit (cx.forArgument asserted) arg
    match c.failure? with
    | some _ => return c
    | none =>
      let d ← walkEach cx rest
      return ⟨c.recorded ++ d.recorded, d.failure?⟩

/-- The visits for a call. -/
def walkCall (cx : ContextMap) (c : Callee κ) : Option (List NodeId) → Walk Capture Capture
  | none => return .fail (.config (.malformedTree c.node))
  | some args => walkEach cx (c.withExpected args)

end

/-- What the visit of a capture does inside of its level. -/
def walkInside (m : FormulaManager) (i : ScopeInstance) (tree : FormulaTree) (cx : ContextMap)
    (id : NodeId) (node : Node) : Walk Capture Capture :=
  match node.kind with
  | .literal _ => return {}
  | .var name => return visitVariable m i cx name node.span
  | .call function args =>
    walkCall cx (m.functionCallee function id node.span) (tree.args? args)
  | .operator op args => walkCall cx (m.operatorCallee op id node.span) (tree.args? args)

/-- The visit of a capture. -/
def walk (m : FormulaManager) (i : ScopeInstance) (tree : FormulaTree) (cx : ContextMap)
    (id : NodeId) : Walk Capture Capture :=
  match tree.node? id with
  | none => return .fail (.config (.malformedTree id))
  | some node =>
    .enter (fun limit => return .fail (.nestingTooDeep limit node.span)) do
      let result ← walkInside m i tree cx id node
      .leave (return result)

end Dependency

namespace Evaluation

/-- Visits of an evaluation, up to the first error. -/
abbrev Attempt : Type → Type := ExceptT EvalError (Walk (Except EvalError Value))

section

variable {κ : Type} [BEq κ]

/-- The visit of an argument, told what is expected there. -/
def walkArgument (cx : ContextMap) (arg : NodeId × Option Format) : Attempt Value :=
  ExceptT.mk (Walk.visit (cx.forArgument arg.2) arg.1)

/-- The visits for a choice: its condition, and the branch taken. -/
def walkChoice (cx : ContextMap) (c : Callee κ)
    (condition ifTrue ifFalse : NodeId × Option Format) : Attempt (List Value) := do
  let value ← walkArgument cx condition
  match value.asTruth? with
  | none => throw (.noMatchingOverload c.name [value.format] c.span)
  | some taken =>
    let branch ← walkArgument cx (if taken then ifTrue else ifFalse)
    return [value, branch, branch]

/-- The visits of a call's arguments, as many as its strategy asks for. -/
def walkOperands (cx : ContextMap) (c : Callee κ) (args : List NodeId) : Attempt Operands :=
  match c.library.strategy c.key, c.withExpected args with
  | .select, [condition, ifTrue, ifFalse] => do
    let values ← walkChoice cx c condition ifTrue ifFalse
    return .all values
  | .shortCircuit stop, first :: rest => do
    let value ← walkArgument cx first
    if value.asTruth? = some stop then return .settled value
    else
      let values ← rest.mapM (walkArgument cx)
      return .all (value :: values)
  | _, args => do
    let values ← args.mapM (walkArgument cx)
    return .all values

/-- The visits for a call. -/
def walkCall (cx : ContextMap) (c : Callee κ) : Option (List NodeId) → Attempt Value
  | none => throw (.config (.malformedTree c.node))
  | some args =>
    if c.library.contains c.key then do
      let operands ← walkOperands cx c args
      match operands with
      | .settled value => return value
      | .all values => liftExcept (answer cx c values)
    else throw (.unknownFunction c.name c.span)

end

/-- What the visit of an evaluation does inside of its level. -/
def walkInside (m : FormulaManager) (i : ScopeInstance) (tree : FormulaTree) (cx : ContextMap)
    (id : NodeId) (node : Node) : Attempt Value :=
  match node.kind with
  | .literal value => return literal m value
  | .var name => liftExcept (evalVariable m i name node.span)
  | .call function args =>
    walkCall cx (m.functionCallee function id node.span) (tree.args? args)
  | .operator op args => walkCall cx (m.operatorCallee op id node.span) (tree.args? args)

/-- The visit of an evaluation. -/
def walk (m : FormulaManager) (i : ScopeInstance) (tree : FormulaTree) (cx : ContextMap)
    (id : NodeId) : Walk (Except EvalError Value) (Except EvalError Value) :=
  match tree.node? id with
  | none => return .error (.config (.malformedTree id))
  | some node =>
    .enter (fun limit => return .error (.nestingTooDeep limit node.span)) do
      let result ← (walkInside m i tree cx id node).run
      .leave (return result)

end Evaluation

end Formulary
