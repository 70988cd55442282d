import Formulary.Callee
import Formulary.Findings
import Formulary.Semantics.Error
/-!
# Checking a formula in a scope

A check works out the format of a formula from the formats of its parts and
reports all that is wrong with it. It goes on after an error: the arguments of
a call are checked whatever is known of its callee. A part that has errors has
no format, and what is around it is not blamed for that.

The checks of the arguments are told what the overloads agree on; the check of
the root is told what the host asks of the formula.
-/

namespace Formulary

/-- What a check says of a part of a formula. -/
structure Verdict where
  /-- What is wrong, in the order in which it was found. -/
  errors : Findings SemanticsError
  /-- The format, if nothing is wrong. -/
  format? : Option Format

namespace Verdict

/-- Nothing is wrong. -/
def accept (format : Format) : Verdict := ⟨.empty, some format⟩

/-- One thing is wrong. -/
def reject (error : SemanticsError) : Verdict := ⟨.singleton error, none⟩

/-- The errors of several parts. -/
def allErrors (vs : List Verdict) : Findings SemanticsError := .flatten (vs.map errors)

/-- The formats of several parts, if each has one. -/
def allFormats (vs : List Verdict) : Option (List Format) := vs.mapM format?

end Verdict

namespace Literal

/-- The format of a literal. -/
def format : Literal → Format
  | number _ => .number
  | text _ => .text
  | truth _ => .truth

end Literal

namespace Semantics

/-- The format of a variable used in a scope. -/
def checkVariable (m : FormulaManager) (scope : LegalScope) (name : Name) (span : Span) :
    Verdict :=
  match m.resolveInScope scope name with
  | .ok (_, format) => .accept format
  | .error (.undeclared name scope) => .reject (.unresolvedVariable name scope span)
  | .error (.config e) => .reject (.config e)

/-- The error of a call for which no overload was found. -/
def callError (callee : String) (span : Span) : CallError → Findings SemanticsError
  | .noMatchingOverload found => .singleton (.noMatchingOverload callee found span)
  | .wrongArgCount expected found => .singleton (.wrongArgCount callee expected found span)
  | .unknown => .empty
  | .failed _ => .empty

section

variable {κ : Type} [BEq κ] (check : ContextMap → NodeId → Verdict)

/-- The errors of arguments of which nothing is expected. -/
def checkUnconstrained (cx : ContextMap) (args : List NodeId) : Findings SemanticsError :=
  Verdict.allErrors (args.map (check (cx.forArgument none)))

/-- The format of a call of a callee that its library has. -/
def checkKnownCall (cx : ContextMap) (c : Callee κ) (args : List NodeId) : Verdict :=
  match c.library.expectedFormats c.key args.length with
  | none =>
    let error := .wrongArgCount c.name (c.library.arities c.key) args.length c.span
    ⟨.singleton error ++ checkUnconstrained check cx args, none⟩
  | some expected =>
    let verdicts := (args.zip expected).map fun (arg, asserted) =>
      check (cx.forArgument asserted) arg
    let errors := Verdict.allErrors verdicts
    match Verdict.allFormats verdicts with
    | none => ⟨errors, none⟩
    | some formats =>
      match c.library.resultFormat c.key formats with
      | .ok format => ⟨errors, some format⟩
      | .error e => ⟨errors ++ callError c.name c.span e, none⟩

/-- The format of a call, given the error that says its callee is unknown. -/
def checkCall (cx : ContextMap) (c : Callee κ) (unknown : SemanticsError) :
    Option (List NodeId) → Verdict
  | none => .reject (.config (.malformedTree c.node))
  | some args =>
    if c.library.contains c.key then checkKnownCall check cx c args
    else ⟨.singleton unknown ++ checkUnconstrained check cx args, none⟩

end

/-- The verdict on a part once it is compared with the format asked of it. -/
def checkAsserted (tree : FormulaTree) (cx : ContextMap) (id : NodeId) (span : Span)
    (v : Verdict) : Verdict :=
  match v.format? with
  | none => v
  | some found =>
    match cx.get Key.asserted with
    | .error e => ⟨v.errors ++ .singleton (.config e), none⟩
    | .ok none => v
    | .ok (some expected) =>
      if expected == found then v
      else if id = tree.root then
        ⟨v.errors ++ .singleton (.rootFormatMismatch expected found span), none⟩
      else ⟨v.errors ++ .singleton (.argumentFormatMismatch expected found span), none⟩

/-- The verdict on the part of a formula at a node, of which `remaining` levels
may be walked. -/
def check (m : FormulaManager) (scope : LegalScope) (tree : FormulaTree) :
    Nat → ContextMap → NodeId → Verdict
  | remaining, cx, id =>
    match tree.node? id with
    | none => .reject (.config (.malformedTree id))
    | some node =>
      match remaining with
      | 0 => .reject (.nestingTooDeep m.config.maxTreeDepth node.span)
      | remaining + 1 =>
        let check := check m scope tree remaining
        checkAsserted tree cx id node.span <|
          match node.kind with
          | .literal value => .accept value.format
          | .var name => checkVariable m scope name node.span
          | .call function args =>
            let c := m.functionCallee function id node.span
            checkCall check cx c (.unknownFunction c.name node.span) (tree.args? args)
          | .operator op args =>
            let c := m.operatorCallee op id node.span
            checkCall check cx c (.unknownOperator op node.span) (tree.args? args)

/-- The format of a formula, or what is wrong with it. -/
def run (m : FormulaManager) (scope : LegalScope) (cx : ContextMap) (tree : FormulaTree) :
    Except (List SemanticsError) Format :=
  let v := check m scope tree m.config.maxTreeDepth cx tree.root
  match v.format?, v.errors.toList with
  | some format, [] => .ok format
  | _, errors => .error errors

end Semantics

end Formulary
