/-!
# Operators

The operators a formula can apply, and the symbol each is written with.
Subtraction and negation share a symbol and differ in their arguments.
-/

namespace Formulary

/-- The operators of formulas. -/
inductive Operator where
  | add | sub | mul | div | rem | pow
  | neg | not
  | and | or
  | eq | notEq | lt | ltEq | gt | gtEq
  deriving DecidableEq

namespace Operator

/-- The symbol an operator is written with. -/
def symbol : Operator → String
  | add => "+"
  | sub => "-"
  | mul => "*"
  | div => "/"
  | rem => "%"
  | pow => "^"
  | neg => "-"
  | not => "!"
  | and => "&&"
  | or => "||"
  | eq => "=="
  | notEq => "!="
  | lt => "<"
  | ltEq => "<="
  | gt => ">"
  | gtEq => ">="

/-- The name of an operator, as shown to a developer. -/
def label : Operator → String
  | add => "Add"
  | sub => "Sub"
  | mul => "Mul"
  | div => "Div"
  | rem => "Rem"
  | pow => "Pow"
  | neg => "Neg"
  | not => "Not"
  | and => "And"
  | or => "Or"
  | eq => "Eq"
  | notEq => "NotEq"
  | lt => "Lt"
  | ltEq => "LtEq"
  | gt => "Gt"
  | gtEq => "GtEq"

def all : List Operator :=
  [add, sub, mul, div, rem, pow, neg, not, and, or, eq, notEq, lt, ltEq, gt, gtEq]

/-- The operator with a given name. -/
def ofLabel? (s : String) : Option Operator := all.find? fun op => op.label == s

end Operator

end Formulary
