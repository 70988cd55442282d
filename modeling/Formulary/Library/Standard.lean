import Formulary.Library
import Formulary.Number.Remainder
import Formulary.Operator
/-!
# The standard library

The implementations every engine can have: arithmetic, comparison and logic
for the operators, and a few functions. Each reads its arguments itself and
says which one it cannot use; chosen by the formats of its arguments it never
has to.
-/

namespace Formulary

namespace Standard

/-! ## Reading arguments -/

/-- The complaint about an argument of another kind. -/
def notA (function : String) (index : Nat) (format : Format) : LibraryError :=
  .domain function s!"argument {index} is not a {format.label}"

/-- The argument at a place, read as a number. -/
def numberAt (function : String) (args : List Value) (index : Nat) : Except LibraryError Number :=
  match args[index]?.bind Value.asNumber? with
  | some x => .ok x
  | none => .error (notA function index .number)

/-- The argument at a place, read as a text. -/
def textAt (function : String) (args : List Value) (index : Nat) : Except LibraryError String :=
  match args[index]?.bind Value.asText? with
  | some s => .ok s
  | none => .error (notA function index .text)

/-- The argument at a place, read as a truth value. -/
def truthAt (function : String) (args : List Value) (index : Nat) : Except LibraryError Bool :=
  match args[index]?.bind Value.asTruth? with
  | some b => .ok b
  | none => .error (notA function index .truth)

/-- A function of one number. -/
def onNumber (function : String) (f : Number → Number) : Native := fun _ args => do
  let x ← numberAt function args 0
  return .number (f x)

/-- A function of two numbers, which need not have an answer. -/
def onNumbers (function : String) (f : Number → Number → Except LibraryError Value) : Native :=
  fun _ args => do
    let a ← numberAt function args 0
    let b ← numberAt function args 1
    f a b

/-- A function of two numbers with a number as its answer. -/
def arithmetic (function : String) (f : Number → Number → Number) : Native :=
  onNumbers function fun a b => .ok (.number (f a b))

/-- A function of two numbers with a truth value as its answer. -/
def comparison (function : String) (f : Float → Float → Bool) : Native :=
  onNumbers function fun a b => .ok (.truth (f a.toFloat b.toFloat))

/-! ## Operators -/

/-- One text after another. -/
def concat : Native := fun _ args => do
  let a ← textAt "+" args 0
  let b ← textAt "+" args 1
  return .text (a ++ b)

/-- A function that has no answer for a divisor of zero. -/
def division (function : String) (f : Float → Float → Float) : Native :=
  onNumbers function fun a b =>
    if b.toFloat == 0 then .error .divisionByZero else .ok (.number (a.combine f b))

/-- A power, if it is finite. -/
def power : Native :=
  onNumbers "^" fun a b =>
    match a.power? b with
    | some power => .ok (.number power)
    | none =>
      let text := s!"{numberText a.toFloat} ^ {numberText b.toFloat} has no finite result"
      .error (.domain "^" text)

/-- The other truth value. -/
def negation : Native := fun _ args => do
  let b ← truthAt "!" args 0
  return .truth !b

/-- Whether both arguments are true. A first one that is false settles it. -/
def conjunction : Native := fun _ args => do
  let a ← truthAt "&&" args 0
  if a then (truthAt "&&" args 1).map .truth else .ok (.truth false)

/-- Whether one of the arguments is true. A first one that is true settles it. -/
def disjunction : Native := fun _ args => do
  let a ← truthAt "||" args 0
  if a then .ok (.truth true) else (truthAt "||" args 1).map .truth

/-- Whether the first two arguments are approximately equal. -/
def approximate (context : CallContext) : List Value → Bool
  | a :: b :: _ =>
    match a.approxEq b context.tolerance with
    | .ok answer => answer
    | .error _ => false
  | _ => false

/-- Whether the arguments are approximately equal. -/
def equality : Native := fun context args => .ok (.truth (approximate context args))

/-- Whether the arguments are not approximately equal. -/
def inequality : Native := fun context args => .ok (.truth !(approximate context args))

/-! ## Functions -/

/-- The second or the third argument, as the first one says. -/
def choice : Native := fun _ args => do
  let condition ← truthAt "if" args 0
  match args[if condition then 1 else 2]? with
  | some value => return value
  | none => throw (.domain "if" "missing branch")

/-! ## Registration -/

/-- The formats that equality and choice are defined for. -/
def basicFormats : List Format := [.number, .text, .truth]

def numbersToNumber : Signature := ⟨[.number, .number], .number⟩

def numbersToTruth : Signature := ⟨[.number, .number], .truth⟩

def truthsToTruth : Signature := ⟨[.truth, .truth], .truth⟩

def numberToNumber : Signature := ⟨[.number], .number⟩

/-- Adds the standard operators. -/
def installOperators (operators : Library Operator) : Library Operator :=
  let operators := operators
    |>.register .add numbersToNumber (arithmetic "+" (.combine (· + ·)))
    |>.register .add ⟨[.text, .text], .text⟩ concat
    |>.register .sub numbersToNumber (arithmetic "-" (.combine (· - ·)))
    |>.register .mul numbersToNumber (arithmetic "*" (.combine (· * ·)))
    |>.register .div numbersToNumber (division "/" (· / ·))
    |>.register .rem numbersToNumber (division "%" remainder)
    |>.register .pow numbersToNumber power
    |>.register .neg numberToNumber (onNumber "-" .neg)
    |>.register .not ⟨[.truth], .truth⟩ negation
    |>.register .and truthsToTruth conjunction
    |>.setStrategy .and (.shortCircuit false)
    |>.register .or truthsToTruth disjunction
    |>.setStrategy .or (.shortCircuit true)
  let operators := basicFormats.foldl (fun (l : Library Operator) format =>
    l.register .eq ⟨[format, format], .truth⟩ equality
      |>.register .notEq ⟨[format, format], .truth⟩ inequality) operators
  operators
    |>.register .lt numbersToTruth (comparison "<" fun a b => a < b)
    |>.register .ltEq numbersToTruth (comparison "<=" fun a b => a ≤ b)
    |>.register .gt numbersToTruth (comparison ">" fun a b => a > b)
    |>.register .gtEq numbersToTruth (comparison ">=" fun a b => a ≥ b)

/-- The standard functions but for choice, by name. -/
def numericFunctions : List (String × Signature × Native) :=
  [("abs", numberToNumber, onNumber "abs" .abs),
   ("ceil", numberToNumber, onNumber "ceil" (.map Float.ceil)),
   ("floor", numberToNumber, onNumber "floor" (.map Float.floor)),
   ("round", numberToNumber, onNumber "round" (.map Float.round)),
   ("min", numbersToNumber, arithmetic "min" .lesser),
   ("max", numbersToNumber, arithmetic "max" .greater)]

/-- Adds the standard functions, and interns their names. -/
def installFunctions (functions : Library Name) (names : Interner) : Library Name × Interner :=
  let (functions, names) := numericFunctions.foldl (fun (l, names) (label, signature, native) =>
    let (name, names) := names.intern label
    (Library.register l name signature native, names)) (functions, names)
  let (choose, names) := names.intern "if"
  let functions := basicFormats.foldl (fun (l : Library Name) format =>
    l.register choose ⟨[.truth, format, format], format⟩ choice) functions
  (functions.setStrategy choose .select, names)

end Standard

end Formulary
