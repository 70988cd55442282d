import Formulary.Manager
import Formulary.Proofs.Library.History
import Formulary.Proofs.Name.Growth
import Mathlib.Data.List.Nodup
import Mathlib.Data.List.Sort
/-!
# Libraries that are made once more

A call is in force when the library is as the call would leave it (`LibraryCall.InForce`), and
then it changes nothing. It comes into force by being made, and only a call about the same
thing, an overload or a strategy of a key, puts it out of force again (`LibraryCall.slot`). So
calls about different things may be made once more, and nothing changes (`Library.after_after`).

The standard library is made by such calls (`Standard.installOperators_eq`,
`Standard.installFunctions_eq`), and to install it twice is to install it once.
-/

namespace Formulary

/-! ## Calls that are in force -/

/-- An overload that is there, with its implementation, is put where it is. -/
theorem Library.withOverload_of_find? {o : Overload} {overloads : List Overload}
    (h : overloads.find? (fun p => p.signature.accepts o.signature.params) = some o) :
    Library.withOverload o overloads = overloads := by
  induction overloads with
  | nil => cases h
  | cons p rest ih =>
    rw [Library.withOverload]
    split
    · rename_i hsame
      have hp : p.signature.accepts o.signature.params = true := hsame
      rw [List.find?_cons, hp] at h
      rw [Option.some.inj h]
    · rename_i hother
      have hp : p.signature.accepts o.signature.params = false := Bool.eq_false_iff.2 hother
      rw [List.find?_cons, hp] at h
      rw [ih h]

namespace LibraryCall

variable {κ : Type}

/-- What a call is about: an overload of a key, or the strategy of the key. -/
def slot : LibraryCall κ → κ × Option (List Format.Identity)
  | register key signature _ => (key, some (signature.params.map Format.identity))
  | setStrategy key _ => (key, none)

/-- The call with another key. -/
def map {κ' : Type} (f : κ → κ') : LibraryCall κ → LibraryCall κ'
  | register key signature native => register (f key) signature native
  | setStrategy key strategy => setStrategy (f key) strategy

theorem slot_map {κ' : Type} (f : κ → κ') (c : LibraryCall κ) :
    (c.map f).slot = Prod.map f id c.slot := by
  cases c <;> rfl

variable [BEq κ] {l : Library κ} {c d : LibraryCall κ}

/-- A call is in force when the library is as it would leave it. -/
def InForce (l : Library κ) : LibraryCall κ → Prop
  | register key signature native => l.contains key = true ∧
      (l.overloads key).find? (fun o => o.signature.accepts signature.params) =
        some ⟨signature, native⟩
  | setStrategy key strategy => l.contains key = true ∧ l.strategy key = strategy

/-- **A call that is in force changes nothing.** -/
theorem InForce.apply_eq (h : c.InForce l) : c.apply l = l := by
  have write_eq {key : κ} (hc : l.contains key = true) :
      l.entries.insert key (l.entry key) = l.entries := by
    obtain ⟨e, he⟩ := Option.isSome_iff_exists.1 hc
    refine Table.insert_of_find? ?_
    rw [Library.entry, he, Option.getD_some]
  cases c with
  | register key signature native =>
    obtain ⟨hc, hfind⟩ := h
    have hsame : Library.withOverload ⟨signature, native⟩ (l.entry key).overloads =
        (l.entry key).overloads := Library.withOverload_of_find? hfind
    rw [apply, Library.register, hsame]
    exact congrArg Library.mk (write_eq hc)
  | setStrategy key strategy =>
    obtain ⟨hc, rfl⟩ := h
    exact congrArg Library.mk (write_eq hc)

variable [LawfulBEq κ]

/-- **A call that was made is in force.** -/
theorem inForce_apply (l : Library κ) (c : LibraryCall κ) : c.InForce (c.apply l) := by
  have hnamed : (c.apply l).contains c.key = true := by
    rw [Library.contains_apply, BEq.rfl, Bool.true_or]
  cases c with
  | register key signature native =>
    refine ⟨hnamed, ?_⟩
    rw [apply, Library.overloads_register, if_pos BEq.rfl, Library.find?_withOverload]
    exact if_pos BEq.rfl
  | setStrategy key strategy =>
    refine ⟨hnamed, ?_⟩
    rw [apply, Library.strategy_setStrategy]
    exact if_pos BEq.rfl

/-- **A call about something else leaves it in force.** -/
theorem InForce.apply (h : c.InForce l) (hd : d.slot ≠ c.slot) : c.InForce (d.apply l) := by
  have kept {key : κ} (hc : l.contains key = true) : (d.apply l).contains key = true := by
    rw [Library.contains_apply, hc, Bool.or_true]
  cases c with
  | register key signature native =>
    obtain ⟨hc, hfind⟩ := h
    refine ⟨kept hc, ?_⟩
    cases d with
    | register k s n =>
      rw [LibraryCall.apply, Library.overloads_register]
      split
      · -- an overload of the same key, so one with other parameters
        rename_i hk
        have hother : ¬s.accepts signature.params = true := by
          intro hsame
          refine hd ?_
          rw [slot, slot, eq_of_beq hk, Format.beq_list_iff.1 hsame]
        rw [Library.find?_withOverload, if_neg hother]
        exact hfind
      · exact hfind
    | setStrategy k s =>
      rw [LibraryCall.apply, Library.overloads_setStrategy]
      exact hfind
  | setStrategy key strategy =>
    obtain ⟨hc, hstrategy⟩ := h
    refine ⟨kept hc, ?_⟩
    cases d with
    | register k s n =>
      rw [LibraryCall.apply, Library.strategy_register]
      exact hstrategy
    | setStrategy k s =>
      have hother : ¬(k == key) = true := by
        intro hk
        exact hd (congrArg (Prod.mk · none) (eq_of_beq hk))
      rw [LibraryCall.apply, Library.strategy_setStrategy, if_neg hother]
      exact hstrategy

end LibraryCall

namespace Library

variable {κ : Type} [BEq κ] {l : Library κ} {calls : List (LibraryCall κ)} {c : LibraryCall κ}

theorem after_of_inForce (h : ∀ c ∈ calls, c.InForce l) : l.after calls = l := by
  induction calls with
  | nil => rfl
  | cons c calls ih =>
    have hstep : l.after (c :: calls) = (c.apply l).after calls := rfl
    rw [hstep, (h c List.mem_cons_self).apply_eq]
    exact ih fun d hd => h d (List.mem_cons_of_mem _ hd)

variable [LawfulBEq κ]

theorem inForce_after_of_ne (h : c.InForce l) (hother : ∀ d ∈ calls, d.slot ≠ c.slot) :
    c.InForce (l.after calls) := by
  induction calls generalizing l with
  | nil => exact h
  | cons d calls ih =>
    exact ih (h.apply (hother d List.mem_cons_self)) fun e he =>
      hother e (List.mem_cons_of_mem _ he)

/-- Of calls that are about different things, all are in force in the end. -/
theorem inForce_after (h : (calls.map LibraryCall.slot).Nodup) (hc : c ∈ calls) :
    c.InForce (l.after calls) := by
  induction calls generalizing l with
  | nil => cases hc
  | cons d calls ih =>
    obtain ⟨hd, hrest⟩ := List.nodup_cons.1 h
    rcases List.mem_cons.1 hc with rfl | hc
    · have hothers : ∀ e ∈ calls, e.slot ≠ c.slot := fun e he hsame =>
        hd (List.mem_map.2 ⟨e, he, hsame⟩)
      have hlater := inForce_after_of_ne (LibraryCall.inForce_apply l c) hothers
      exact hlater
    · exact ih hrest hc

/-- **To make such calls once more changes nothing.** -/
theorem after_after (h : (calls.map LibraryCall.slot).Nodup) (l : Library κ) :
    (l.after calls).after calls = l.after calls :=
  after_of_inForce fun _ hc => inForce_after h hc

end Library

/-! ## The standard library as calls -/

namespace Standard

open LibraryCall (register setStrategy)

/-- The calls that make the standard operators. -/
def operatorCalls : List (LibraryCall Operator) :=
  [register .add numbersToNumber (arithmetic "+" (.combine (· + ·))),
   register .add ⟨[.text, .text], .text⟩ concat,
   register .sub numbersToNumber (arithmetic "-" (.combine (· - ·))),
   register .mul numbersToNumber (arithmetic "*" (.combine (· * ·))),
   register .div numbersToNumber (division "/" (· / ·)),
   register .rem numbersToNumber (division "%" remainder),
   register .pow numbersToNumber power,
   register .neg numberToNumber (onNumber "-" .neg),
   register .not ⟨[.truth], .truth⟩ negation,
   register .and truthsToTruth conjunction,
   setStrategy .and (.shortCircuit false),
   register .or truthsToTruth disjunction,
   setStrategy .or (.shortCircuit true)] ++
  basicFormats.flatMap (fun format =>
    [register .eq ⟨[format, format], .truth⟩ equality,
     register .notEq ⟨[format, format], .truth⟩ inequality]) ++
  [register .lt numbersToTruth (comparison "<" fun a b => a < b),
   register .ltEq numbersToTruth (comparison "<=" fun a b => a ≤ b),
   register .gt numbersToTruth (comparison ">" fun a b => a > b),
   register .gtEq numbersToTruth (comparison ">=" fun a b => a ≥ b)]

theorem installOperators_eq (operators : Library Operator) :
    installOperators operators = operators.after operatorCalls := rfl

theorem nodup_slot_operatorCalls : (operatorCalls.map LibraryCall.slot).Nodup := by decide

/-- The calls that make the standard functions, by the texts of their names. -/
def functionCalls : List (LibraryCall String) :=
  numericFunctions.map (fun (label, signature, native) => register label signature native) ++
  basicFormats.map (fun format => register "if" ⟨[.truth, format, format], format⟩ choice) ++
  [setStrategy "if" .select]

theorem nodup_slot_functionCalls : (functionCalls.map LibraryCall.slot).Nodup := by decide

/-- The texts of the names of the standard functions. -/
def functionLabels : List String := numericFunctions.map Prod.fst ++ ["if"]

theorem mem_functionLabels {c : LibraryCall String} (hc : c ∈ functionCalls) :
    c.key ∈ functionLabels := by
  have hkeys : functionCalls.map LibraryCall.key =
      functionLabels ++ ["if", "if", "if"] := rfl
  have hkey : c.key ∈ functionLabels ++ ["if", "if", "if"] := by
    rw [← hkeys]
    exact List.mem_map_of_mem hc
  refine (List.mem_append.1 hkey).elim id fun hif => ?_
  have hif : c.key = "if" := by simpa using hif
  rw [hif]
  exact List.mem_append_right _ List.mem_cons_self

/-- The calls that make the standard functions, by name. -/
def functionCallsIn (names : Interner) : List (LibraryCall Name) :=
  functionCalls.map (.map names.nameOf)

/-- Functions that are registered one after another, with their names interned on the way, have
the names that their texts have in the end. -/
theorem foldl_register_eq (rows : List (String × Signature × Native)) (l : Library Name)
    (names : Interner) {final : Interner}
    (hfinal : (names.internAll (rows.map Prod.fst)).GrowsTo final) :
    rows.foldl (fun (l, names) (label, signature, native) =>
        let (name, names) := Interner.intern names label
        (Library.register l name signature native, names)) (l, names) =
      (l.after (rows.map fun (label, signature, native) =>
        register (final.nameOf label) signature native),
        names.internAll (rows.map Prod.fst)) := by
  induction rows generalizing l names with
  | nil => rfl
  | cons row rows ih =>
    obtain ⟨label, signature, native⟩ := row
    have hgrows : (names.intern label).2.GrowsTo final :=
      ((names.intern label).2.growsTo_internAll (rows.map Prod.fst)).trans hfinal
    have hname : final.nameOf label = (names.intern label).1 := by
      rw [Interner.nameOf, hgrows.get?_eq_some (names.get?_intern label), Option.getD_some]
    have hrest := ih (l.register (names.intern label).1 signature native)
      (names.intern label).2 hfinal
    simp only [List.foldl_cons, List.map_cons, hname]
    exact hrest

/-- **The standard functions come about by calls,** once their names are interned. -/
theorem installFunctions_eq (functions : Library Name) (names : Interner) :
    installFunctions functions names =
      (functions.after (functionCallsIn (names.internAll functionLabels)),
        names.internAll functionLabels) := by
  -- the names of the numeric functions are interned on the way, and that of choice after them
  obtain ⟨numeric, hnumeric⟩ : ∃ t, names.internAll (numericFunctions.map Prod.fst) = t := ⟨_, rfl⟩
  have hlabels : names.internAll functionLabels = (numeric.intern "if").2 := by
    rw [functionLabels, Interner.internAll_append, hnumeric]
    rfl
  have hchoose : (numeric.intern "if").2.nameOf "if" = (numeric.intern "if").1 := by
    rw [Interner.nameOf, Interner.get?_intern, Option.getD_some]
  have hcalls : functionCallsIn (numeric.intern "if").2 =
      numericFunctions.map (fun (label, signature, native) =>
        register ((numeric.intern "if").2.nameOf label) signature native) ++
      basicFormats.map (fun format =>
        register (numeric.intern "if").1 ⟨[.truth, format, format], format⟩ choice) ++
      [setStrategy (numeric.intern "if").1 .select] := by
    rw [functionCallsIn, functionCalls, List.map_append, List.map_append, List.map_map,
      List.map_map, ← hchoose]
    rfl
  have hgrows : (names.internAll (numericFunctions.map Prod.fst)).GrowsTo
      (numeric.intern "if").2 := by
    rw [hnumeric]
    exact numeric.growsTo_intern "if"
  rw [installFunctions, foldl_register_eq numericFunctions functions names hgrows, hnumeric,
    hlabels, hcalls, Library.after_append, Library.after_append]
  rfl

/-- The calls that make the standard functions are about different things, by name too. -/
theorem nodup_slot_functionCallsIn {names : Interner}
    (h : ∀ label ∈ functionLabels, ∃ n, names.get? label = some n) :
    ((functionCallsIn names).map LibraryCall.slot).Nodup := by
  have hslots : (functionCallsIn names).map LibraryCall.slot =
      (functionCalls.map LibraryCall.slot).map (Prod.map names.nameOf id) := by
    rw [functionCallsIn, List.map_map, List.map_map]
    exact List.map_congr_left fun c _ => c.slot_map names.nameOf
  have hnamed {x : String × Option (List Format.Identity)}
      (hx : x ∈ functionCalls.map LibraryCall.slot) : ∃ n, names.get? x.1 = some n := by
    obtain ⟨c, hc, rfl⟩ := List.mem_map.1 hx
    have hkey : c.slot.1 = c.key := by cases c <;> rfl
    rw [hkey]
    exact h _ (mem_functionLabels hc)
  rw [hslots]
  refine nodup_slot_functionCalls.map_on fun x hx y hy hxy => ?_
  rw [Prod.map_apply, Prod.map_apply, Prod.mk.injEq] at hxy
  exact Prod.ext (Interner.eq_of_nameOf_eq (hnamed hx) (hnamed hy) hxy.1) hxy.2

end Standard

/-- **To install the standard library twice is to install it once,** whatever there was
before. -/
theorem Definitions.installStandard_installStandard (d : Definitions) :
    d.installStandard.installStandard = d.installStandard := by
  have hnamed : ∀ label ∈ Standard.functionLabels,
      ∃ n, (d.names.internAll Standard.functionLabels).get? label = some n :=
    fun _ hlabel => Interner.exists_get?_internAll hlabel
  have hfunctions := Library.after_after (Standard.nodup_slot_functionCallsIn hnamed) d.functions
  have hoperators := Library.after_after Standard.nodup_slot_operatorCalls d.operators
  simp only [installStandard, Standard.installFunctions_eq, Standard.installOperators_eq,
    Interner.internAll_of_get? hnamed, hfunctions, hoperators]

namespace Library

variable {κ : Type} [BEq κ] [LawfulBEq κ]
variable {calls : List (LibraryCall κ)} {key : κ} {args : List Format}

/-- A key is there when a call named it. -/
theorem contains_empty_after_iff :
    (({} : Library κ).after calls).contains key = true ↔ ∃ c ∈ calls, c.key = key := by
  rw [contains_after, Bool.or_eq_true, List.any_eq_true]
  simp only [beq_iff_eq]
  exact or_iff_right nofun

theorem select_after_eq_unknown_iff :
    (({} : Library κ).after calls).select key args = .error .unknown ↔
      ∀ c ∈ calls, c.key ≠ key := by
  rw [select_eq_unknown_iff, ← Bool.not_eq_true, contains_empty_after_iff]
  exact ⟨fun h c hc hkey => h ⟨c, hc, hkey⟩, fun h ⟨c, hc, hkey⟩ => h c hc hkey⟩

/-- The numbers of arguments that were registered are told by being in ascending order. -/
theorem eq_arities_after_iff {arities : List Nat} :
    arities = (({} : Library κ).after calls).arities key ↔ arities.Pairwise (· < ·) ∧
      ∀ k, k ∈ arities ↔ ∃ s n, .register key s n ∈ calls ∧ s.arity = k := by
  simp only [← mem_arities_after]
  constructor
  · rintro rfl
    exact ⟨pairwise_ascending _, fun _ => Iff.rfl⟩
  · rintro ⟨hascending, hmem⟩
    exact hascending.eq_of_mem_iff (pairwise_ascending _) hmem

theorem select_after_eq_wrongArgCount_iff {expected : List Nat} {found : Nat} :
    (({} : Library κ).after calls).select key args = .error (.wrongArgCount expected found) ↔
      ((∃ c ∈ calls, c.key = key) ∧
        ∀ s n, .register key s n ∈ calls → s.arity ≠ args.length) ∧
      found = args.length ∧ expected.Pairwise (· < ·) ∧
        ∀ k, k ∈ expected ↔ ∃ s n, .register key s n ∈ calls ∧ s.arity = k := by
  have hcount : args.length ∉ (({} : Library κ).after calls).arities key ↔
      ∀ s n, .register key s n ∈ calls → s.arity ≠ args.length := by
    rw [mem_arities_after]
    exact ⟨fun h s n hc harity => h ⟨s, n, hc, harity⟩, fun h ⟨s, n, hc, harity⟩ =>
      h s n hc harity⟩
  rw [select_eq_wrongArgCount_iff, contains_empty_after_iff, hcount, eq_arities_after_iff,
    and_comm (b := found = _), and_assoc]

theorem select_after_eq_noMatchingOverload_iff {found : List Format} :
    (({} : Library κ).after calls).select key args = .error (.noMatchingOverload found) ↔
      ((∃ s n, .register key s n ∈ calls ∧ s.arity = args.length) ∧
        ∀ s n, .register key s n ∈ calls → ¬(s.params == args) = true) ∧ found = args := by
  have hsome : (∃ o ∈ (({} : Library κ).after calls).overloads key,
        (o.signature.params == args) = true) ↔
      ∃ s n, .register key s n ∈ calls ∧ (s.params == args) = true :=
    exists_overload_after_iff
  have hformats : (∀ o ∈ (({} : Library κ).after calls).overloads key,
        ¬(o.signature.params == args) = true) ↔
      ∀ s n, .register key s n ∈ calls → ¬(s.params == args) = true := by
    constructor
    · intro h s n hc hargs
      obtain ⟨o, ho, hp⟩ := hsome.2 ⟨s, n, hc, hargs⟩
      exact h o ho hp
    · intro h o ho hp
      obtain ⟨s, n, hc, hargs⟩ := hsome.1 ⟨o, ho, hp⟩
      exact h s n hc hargs
  rw [select_eq_noMatchingOverload_iff, mem_arities_after, hformats, and_assoc]

/-- What the library that some calls made has for a key, and answers for arguments of some
formats. -/
structure KnownBy (calls : List (LibraryCall κ)) (key : κ) (args : List Format) : Prop where
  /-- No two overloads have the same parameters. -/
  distinct : Distinct ((({} : Library κ).after calls).overloads key)
  /-- Of the registrations with the formats of the arguments the last one is chosen. -/
  chosen : ∀ signature native,
    (({} : Library κ).after calls).select key args = .ok ⟨signature, native⟩ ↔
      ∃ earlier later, calls = earlier ++ .register key signature native :: later ∧
        (signature.params == args) = true ∧
        ∀ s n, .register key s n ∈ later → ¬(s.params == args) = true
  /-- The key is unknown when no call named it. -/
  unknown : (({} : Library κ).after calls).select key args = .error .unknown ↔
    ∀ c ∈ calls, c.key ≠ key
  /-- The number of arguments is wrong when the key is there and none was registered with it.
  The numbers that were are named, in ascending order. -/
  wrongArgCount : ∀ expected found,
    (({} : Library κ).after calls).select key args = .error (.wrongArgCount expected found) ↔
      ((∃ c ∈ calls, c.key = key) ∧
        ∀ s n, .register key s n ∈ calls → s.arity ≠ args.length) ∧
      found = args.length ∧ expected.Pairwise (· < ·) ∧
        ∀ k, k ∈ expected ↔ ∃ s n, .register key s n ∈ calls ∧ s.arity = k
  /-- The formats are wrong otherwise. -/
  noMatchingOverload : ∀ found,
    (({} : Library κ).after calls).select key args = .error (.noMatchingOverload found) ↔
      ((∃ s n, .register key s n ∈ calls ∧ s.arity = args.length) ∧
        ∀ s n, .register key s n ∈ calls → ¬(s.params == args) = true) ∧ found = args
  /-- To choose does not fail as a native does. -/
  unfailing : ∀ e, (({} : Library κ).after calls).select key args ≠ .error (.failed e)
  /-- Overloads are in the order in which their parameters first came up, -/
  order : ((({} : Library κ).after calls).overloads key).map Overload.identity =
    ((calls.filterMap (LibraryCall.overload? key)).map Overload.identity).eraseDups
  /-- whatever strategies were set. -/
  overloads : (({} : Library κ).after calls).overloads key =
    (({} : Library κ).after (calls.filter LibraryCall.registers)).overloads key
  /-- The strategy is the last that was set, or to evaluate all arguments. -/
  strategy : ∀ strategy, (({} : Library κ).after calls).strategy key = strategy ↔
    (∃ earlier later, calls = earlier ++ .setStrategy key strategy :: later ∧
      ∀ s, .setStrategy key s ∉ later) ∨
    strategy = .eager ∧ ∀ s, .setStrategy key s ∉ calls

/-- **A library is known by the calls that made it.** And to install the standard library twice
is to install it once. -/
theorem known_by_its_calls (calls : List (LibraryCall κ)) (key : κ) (args : List Format) :
    KnownBy calls key args ∧
      ∀ d : Definitions, d.installStandard.installStandard = d.installStandard := by
  refine ⟨?_, Definitions.installStandard_installStandard⟩
  exact {
    distinct := (Made.empty.after calls).distinct key
    chosen := fun _ _ => select_after_eq_ok_iff
    unknown := select_after_eq_unknown_iff
    wrongArgCount := fun _ _ => select_after_eq_wrongArgCount_iff
    noMatchingOverload := fun _ => select_after_eq_noMatchingOverload_iff
    unfailing := select_ne_failed
    order := identities_overloads_after calls key
    overloads := (overloads_after_filter calls key).symm
    strategy := fun _ => strategy_after_eq_iff }

end Library

namespace Sample

/-- The difference of two numbers. -/
def minus : Native := Standard.arithmetic "-" (.combine (· - ·))

/-- Subtraction, registered for numbers as a sum first, and for a text before that is set
right. -/
def subtraction : List (LibraryCall Operator) :=
  [.register .sub Standard.numbersToNumber (Standard.arithmetic "-" (.combine (· + ·))),
    .register .sub ⟨[.text], .text⟩ Standard.concat, .setStrategy .neg .eager,
    .register .sub Standard.numbersToNumber minus]

end Sample

namespace Library

/-- Two numbers are subtracted as was said last. Subtraction takes one argument or two, a
negation is there and takes none, and an addition is unknown. -/
theorem known_by_its_calls_subtraction :
    (({} : Library Operator).after Sample.subtraction).select .sub [.number, .number] =
        .ok ⟨Standard.numbersToNumber, Sample.minus⟩ ∧
      (({} : Library Operator).after Sample.subtraction).select .sub [] =
        .error (.wrongArgCount [1, 2] 0) ∧
      (({} : Library Operator).after Sample.subtraction).select .neg [.number] =
        .error (.wrongArgCount [] 1) ∧
      (({} : Library Operator).after Sample.subtraction).select .add [.number, .number] =
        .error .unknown := by
  obtain ⟨hsub, -⟩ := known_by_its_calls Sample.subtraction .sub [.number, .number]
  obtain ⟨hadd, -⟩ := known_by_its_calls Sample.subtraction .add [.number, .number]
  refine ⟨(hsub.chosen _ _).2 ⟨Sample.subtraction.take 3, [], rfl, by decide, ?_⟩, by rfl, by rfl,
    hadd.unknown.2 (by decide)⟩
  intro s n hlater
  cases hlater

end Library

end Formulary
