import Formulary.Table
import Formulary.Value
/-!
# Libraries — what functions and operators do

A library holds overloads under keys: the names of functions, or operators.
An overload is chosen by the formats of the arguments, which have to be its
parameters exactly. Per position, the overloads of one arity may agree on a
format; that consensus is what an argument there is expected to have. Beside
its overloads a key has a strategy, which says which arguments a call
evaluates.
-/

namespace Formulary

/-- Why an implementation could not answer. -/
inductive LibraryError where
  | divisionByZero
  /-- The arguments lie outside of what a function is defined for. -/
  | domain (function message : String)
  deriving DecidableEq

namespace LibraryError

def code : LibraryError → ErrorCode
  | divisionByZero => .divisionByZero
  | domain .. => .domain

def message : LibraryError → String
  | divisionByZero => "division by zero"
  | domain function message => s!"domain error in `{function}`: {message}"

end LibraryError

/-- What an implementation can see beside its arguments. -/
structure CallContext where
  /-- How far apart numbers may be and still count as equal. -/
  tolerance : Float

namespace CallContext

/-- The context in which only equal numbers count as equal. -/
def exact : CallContext := ⟨0⟩

instance : BEq CallContext := ⟨fun a b => a.tolerance == b.tolerance⟩

/-- The context with a given tolerance. -/
def withTolerance (tolerance : Float) : Except ConfigError CallContext :=
  match checkTolerance tolerance with
  | .error e => .error e
  | .ok () => .ok ⟨tolerance⟩

end CallContext

/-- An implementation: it answers a list of arguments. -/
abbrev Native := CallContext → List Value → Except LibraryError Value

/-- The formats an overload takes and gives. -/
structure Signature where
  /-- The formats of the parameters. -/
  params : List Format
  /-- The format of the answer. -/
  result : Format

namespace Signature

def arity (s : Signature) : Nat := s.params.length

/-- Whether arguments of the given formats can be passed. -/
def accepts (s : Signature) (args : List Format) : Bool := s.params == args

def text (s : Signature) : String := s!"({Format.labels s.params}) -> {s.result.label}"

end Signature

/-- One meaning of a key. -/
structure Overload where
  /-- The formats it takes and gives. -/
  signature : Signature
  native : Native

/-- Which arguments a call evaluates. -/
inductive CallStrategy where
  /-- All of them, from the left. -/
  | eager
  /-- Of three, the first, and then the second or the third. -/
  | select
  /-- All of them, unless the first is this truth value. -/
  | shortCircuit (stop : Bool)
  deriving DecidableEq

/-- What a library holds under a key. -/
structure LibraryEntry where
  /-- The overloads, oldest first. -/
  overloads : List Overload := []
  /-- Which arguments a call evaluates. -/
  strategy : CallStrategy := .eager

/-- Why a call does not go through. -/
inductive CallError where
  /-- The key is not in the library. -/
  | unknown
  /-- No overload has as many parameters as there are arguments. -/
  | wrongArgCount (expected : List Nat) (found : Nat)
  /-- No overload has the formats of the arguments as its parameters. -/
  | noMatchingOverload (found : List Format)
  /-- The implementation could not answer. -/
  | failed (error : LibraryError)

/-- Numbers of arguments, as shown in messages. -/
def countsText (counts : List Nat) : String := " or ".intercalate (counts.map toString)

namespace CallError

/-- The kind of the error: its case, or the code of what the implementation said. -/
def kind : CallError → String
  | unknown => "Unknown"
  | wrongArgCount .. => "WrongArgCount"
  | noMatchingOverload .. => "NoMatchingOverload"
  | failed error => error.code.text

def message : CallError → String
  | unknown => "not defined"
  | wrongArgCount expected found => s!"expects {countsText expected} arguments, got {found}"
  | noMatchingOverload found => s!"no overload accepts ({Format.labels found})"
  | failed error => error.message

end CallError

/-- A number put into its place in an ascending list, unless it is there. -/
def insertAscending (n : Nat) : List Nat → List Nat
  | [] => [n]
  | m :: rest =>
    if n < m then n :: m :: rest
    else if n = m then m :: rest
    else m :: insertAscending n rest

/-- The numbers of a list, each once, in ascending order. -/
def ascending (ns : List Nat) : List Nat := ns.foldr insertAscending []

theorem mem_insertAscending {n k : Nat} {ns : List Nat} :
    k ∈ insertAscending n ns ↔ k = n ∨ k ∈ ns := by
  induction ns with
  | nil => simp [insertAscending]
  | cons m rest ih =>
    rw [insertAscending]
    split
    · exact List.mem_cons
    · split
      · rename_i hsame
        rw [hsame, List.mem_cons, or_self_left]
      · rw [List.mem_cons, ih, List.mem_cons, or_left_comm]

@[simp] theorem mem_ascending {k : Nat} {ns : List Nat} : k ∈ ascending ns ↔ k ∈ ns := by
  induction ns with
  | nil => rfl
  | cons n rest ih =>
    have hstep : ascending (n :: rest) = insertAscending n (ascending rest) := rfl
    rw [hstep, mem_insertAscending, ih, List.mem_cons]

theorem pairwise_insertAscending {n : Nat} {ns : List Nat} (h : ns.Pairwise (· < ·)) :
    (insertAscending n ns).Pairwise (· < ·) := by
  induction ns with
  | nil => exact List.pairwise_singleton _ n
  | cons m rest ih =>
    obtain ⟨hm, hrest⟩ := List.pairwise_cons.1 h
    rw [insertAscending]
    split
    · rename_i hlt
      refine List.pairwise_cons.2 ⟨fun k hk => ?_, h⟩
      rcases List.mem_cons.1 hk with rfl | hk
      · exact hlt
      · exact Nat.lt_trans hlt (hm k hk)
    · split
      · exact h
      · refine List.pairwise_cons.2 ⟨fun k hk => ?_, ih hrest⟩
        rcases mem_insertAscending.1 hk with rfl | hk
        · omega
        · exact hm k hk

/-- **The numbers are in ascending order, and none is there twice.** -/
theorem pairwise_ascending (ns : List Nat) : (ascending ns).Pairwise (· < ·) := by
  induction ns with
  | nil => exact List.Pairwise.nil
  | cons n rest ih => exact pairwise_insertAscending ih

/-- What a consensus comes down to when one more list of parameters is heard. -/
def agree (slots : List (Option Format)) (params : List Format) : List (Option Format) :=
  slots.zipWith (fun slot param => if slot == some param then slot else none) params

/-- Overloads and strategies, by key. -/
structure Library (κ : Type) where
  entries : Table κ LibraryEntry := {}

namespace Library

variable {κ : Type} [BEq κ]

omit [BEq κ] in
instance : Inhabited (Library κ) := ⟨{}⟩

/-- The entry of a key, an empty one if it has none. -/
def entry (l : Library κ) (key : κ) : LibraryEntry := (l.entries.find? key).getD {}

/-- The overloads after one is registered: it takes the place of the one with
the same parameters, or goes to the end. -/
def withOverload (o : Overload) : List Overload → List Overload
  | [] => [o]
  | p :: rest => if p.signature.params == o.signature.params then o :: rest
    else p :: withOverload o rest

/-- Adds an overload to a key. -/
def register (l : Library κ) (key : κ) (signature : Signature) (native : Native) : Library κ :=
  let e := l.entry key
  ⟨l.entries.insert key { e with overloads := withOverload ⟨signature, native⟩ e.overloads }⟩

/-- Says which arguments the calls of a key evaluate. -/
def setStrategy (l : Library κ) (key : κ) (strategy : CallStrategy) : Library κ :=
  ⟨l.entries.insert key { l.entry key with strategy }⟩

def contains (l : Library κ) (key : κ) : Bool := l.entries.contains key

/-- The overloads of a key, oldest first. -/
def overloads (l : Library κ) (key : κ) : List Overload := (l.entry key).overloads

/-- Which arguments the calls of a key evaluate. -/
def strategy (l : Library κ) (key : κ) : CallStrategy := (l.entry key).strategy

omit [BEq κ] in
def size (l : Library κ) : Nat := l.entries.size

omit [BEq κ] in
def isEmpty (l : Library κ) : Bool := l.size == 0

/-- The numbers of parameters that overloads of a key have. -/
def arities (l : Library κ) (key : κ) : List Nat :=
  ascending ((l.overloads key).map fun o => o.signature.arity)

/-- What all overloads of a key with a given number of parameters agree on, position
by position. -/
def expectedFormats (l : Library κ) (key : κ) (arity : Nat) : Option (List (Option Format)) :=
  match (l.overloads key).filter fun o => o.signature.arity == arity with
  | [] => none
  | first :: rest =>
    some (rest.foldl (fun slots o => agree slots o.signature.params)
      (first.signature.params.map some))

/-- The overload for arguments of given formats. -/
def select (l : Library κ) (key : κ) (args : List Format) : Except CallError Overload :=
  match l.entries.find? key with
  | none => .error .unknown
  | some e =>
    match e.overloads.find? fun o => o.signature.accepts args with
    | some o => .ok o
    | none =>
      if e.overloads.any fun o => o.signature.arity == args.length then
        .error (.noMatchingOverload args)
      else .error (.wrongArgCount (l.arities key) args.length)

/-- The format of the answer to arguments of given formats. -/
def resultFormat (l : Library κ) (key : κ) (args : List Format) : Except CallError Format :=
  (l.select key args).map fun o => o.signature.result

/-- The answer to arguments. -/
def evaluate (l : Library κ) (key : κ) (context : CallContext) (args : List Value) :
    Except CallError Value :=
  match l.select key (args.map Value.format) with
  | .error e => .error e
  | .ok o => (o.native context args).mapError .failed

/-- A consensus of lists of one length has that length. -/
theorem length_foldl_agree {overloads : List Overload} {arity : Nat}
    (h : ∀ o ∈ overloads, o.signature.arity = arity) {slots : List (Option Format)}
    (hs : slots.length = arity) :
    (overloads.foldl (fun slots o => agree slots o.signature.params) slots).length = arity := by
  induction overloads generalizing slots with
  | nil => exact hs
  | cons o rest ih =>
    have ho : o.signature.params.length = arity := h o List.mem_cons_self
    exact ih (fun p hp => h p (List.mem_cons_of_mem _ hp)) (by simp [agree, hs, ho])

/-- A consensus speaks of every position. -/
theorem length_expectedFormats {l : Library κ} {key : κ} {arity : Nat}
    {slots : List (Option Format)} (h : l.expectedFormats key arity = some slots) :
    slots.length = arity := by
  unfold expectedFormats at h
  split at h
  · cases h
  · next first rest hf =>
    have arity_eq (o : Overload) (ho : o ∈ first :: rest) : o.signature.arity = arity := by
      rw [← hf] at ho
      simpa using (List.mem_filter.1 ho).2
    cases h
    refine length_foldl_agree (fun o ho => arity_eq o (List.mem_cons_of_mem _ ho)) ?_
    rw [List.length_map]
    exact arity_eq first List.mem_cons_self

end Library

end Formulary
