import Formulary.Callee
import Formulary.Dependency.Error
import Formulary.Findings
/-!
# What a formula needs for an instance

A capture visits every part of a formula, from the left, arguments included
that no evaluation would reach, and records the variables that the names in it
stand for. It stops at the first part that is in order for no evaluation. What
was recorded up to there stays recorded.
-/

namespace Formulary

/-- What a capture comes to. -/
structure Capture where
  /-- The recorded variables, in the order of the visit. -/
  recorded : Findings VariableId := .empty
  /-- What stopped the capture. -/
  failure? : Option DependencyError := none

namespace Capture

/-- One variable is recorded. -/
def record (v : VariableId) : Capture := { recorded := .singleton v }

/-- The capture stops. -/
def fail (e : DependencyError) : Capture := { failure? := some e }

/-- One capture, and another after it unless the first stopped. -/
def andThen (c : Capture) (next : Unit → Capture) : Capture :=
  match c.failure? with
  | some _ => c
  | none =>
    let d := next ()
    ⟨c.recorded ++ d.recorded, d.failure?⟩

/-- Captures of the members of a list, one after another. -/
def each {α : Type} (capture : α → Capture) (as : List α) : Capture :=
  as.foldl (fun c a => c.andThen fun _ => capture a) {}

theorem andThen_empty (c : Capture) : c.andThen (fun _ => {}) = c := by
  obtain ⟨recorded, failure?⟩ := c
  cases failure? <;> rfl

theorem empty_andThen (f : Unit → Capture) : ({} : Capture).andThen f = f () := by
  simp [andThen]

theorem andThen_assoc (c : Capture) (f g : Unit → Capture) :
    (c.andThen f).andThen g = c.andThen fun _ => (f ()).andThen g := by
  obtain ⟨recorded, failure?⟩ := c
  cases failure? with
  | some e => rfl
  | none =>
    simp only [andThen]
    cases h : (f ()).failure? <;> simp [h, Findings.append_assoc]

@[simp] theorem each_nil {α : Type} (capture : α → Capture) : each capture [] = {} := rfl

/-- **A list is captured by its first member and then by the others.** -/
theorem each_cons {α : Type} (capture : α → Capture) (a : α) (as : List α) :
    each capture (a :: as) = (capture a).andThen fun _ => each capture as := by
  have from_any (c : Capture) :
      as.foldl (fun c a => c.andThen fun _ => capture a) c =
        c.andThen fun _ => each capture as := by
    unfold each
    induction as generalizing c with
    | nil => exact (andThen_empty c).symm
    | cons b bs ih =>
      simp only [List.foldl_cons]
      rw [ih, ih (andThen {} _), andThen_assoc, empty_andThen]
  rw [each, List.foldl_cons, from_any, empty_andThen]

end Capture

namespace Dependency

/-- The capture of a variable. The collector is asked for once the name stands
for something. -/
def visitVariable (m : FormulaManager) (i : ScopeInstance) (cx : ContextMap) (name : Name)
    (span : Span) : Capture :=
  match m.resolveName i name with
  | .error (.undeclared name scope) => .fail (.unresolvedVariable name scope span)
  | .error (.config e) => .fail (.config e)
  | .ok v =>
    match cx.get Key.collector with
    | .error e => .fail (.config e)
    | .ok _ => .record v

section

variable {κ : Type} [BEq κ] (visit : ContextMap → NodeId → Capture)

/-- The capture of the arguments of a call, from the left. -/
def visitArguments (cx : ContextMap) (c : Callee κ) : Option (List NodeId) → Capture
  | none => .fail (.config (.malformedTree c.node))
  | some args =>
    Capture.each (fun (arg, asserted) => visit (cx.forArgument asserted) arg)
      (c.withExpected args)

end

/-- The capture of the part of a formula at a node, of which `remaining` levels
may be walked. -/
def visit (m : FormulaManager) (i : ScopeInstance) (tree : FormulaTree) :
    Nat → ContextMap → NodeId → Capture
  | remaining, cx, id =>
    match tree.node? id with
    | none => .fail (.config (.malformedTree id))
    | some node =>
      match remaining with
      | 0 => .fail (.nestingTooDeep m.config.maxTreeDepth node.span)
      | remaining + 1 =>
        let visit := visit m i tree remaining
        match node.kind with
        | .literal _ => {}
        | .var name => visitVariable m i cx name node.span
        | .call function args =>
          visitArguments visit cx (m.functionCallee function id node.span) (tree.args? args)
        | .operator op args =>
          visitArguments visit cx (m.operatorCallee op id node.span) (tree.args? args)

/-- The capture of a formula. -/
def run (m : FormulaManager) (i : ScopeInstance) (cx : ContextMap) (tree : FormulaTree) :
    Capture :=
  visit m i tree m.config.maxTreeDepth cx tree.root

end Dependency

end Formulary
