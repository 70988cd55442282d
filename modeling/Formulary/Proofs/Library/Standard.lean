import Formulary.Proofs.Answers
import Formulary.Proofs.Library.Contract
/-!
# The standard library is sound and reliable

Each implementation of the standard library answers with the format that its
signature promises, whatever it is given. Given genuine arguments of the formats
it takes, it never complains about one of them: what it reads in turn is what
they are. What is left to fail is a division by zero and a power that is not
finite.
-/

namespace Formulary

namespace Standard

variable {context : CallContext} {args : List Value} {format : Format}

/-- What is known of a standard overload. -/
structure Proven (o : Overload) : Prop where
  /-- Its answers have the promised format. -/
  faithful : o.Faithful
  /-- It fails only as the numbers given make it fail. -/
  reliable : o.Reliable

/-! ## Arguments that can be read -/

/-- Formats that are equal are equal one by one. -/
theorem forall₂_of_params_beq {params : List Format}
    (h : (params == args.map Value.format) = true) :
    List.Forall₂ (fun p a => p.identity = a.format.identity) params args := by
  have hid := Format.beq_list_iff.1 h
  rw [← List.forall₂_eq_eq_eq, List.forall₂_map_left_iff, List.forall₂_map_right_iff,
    List.forall₂_map_right_iff] at hid
  exact hid

/-- **Genuine arguments of the right formats can be read.** -/
theorem forall₂_isOf {params : List Format} (hg : ∀ a ∈ args, Value.Genuine a)
    (h : (params == args.map Value.format) = true) :
    List.Forall₂ (fun p a => Value.IsOf p a) params args := by
  have hid := forall₂_of_params_beq h
  clear h
  induction hid with
  | nil => exact .nil
  | cons ha _ ih =>
    exact .cons ((hg _ List.mem_cons_self).isOf ha)
      (ih fun a ha => hg a (List.mem_cons_of_mem _ ha))

/-! ## Functions of numbers -/

theorem proven_onNumber (function : String) (f : Number → Number) :
    Proven ⟨numberToNumber, onNumber function f⟩ where
  faithful := by
    intro context args value _ h
    obtain ⟨x, -, h⟩ := bind_eq_ok_iff.1 h
    cases h
    rfl
  reliable := by
    refine ⟨fun context args value _ h => ?_, fun context args e hg hp h => ?_⟩
    · obtain ⟨x, -, h⟩ := bind_eq_ok_iff.1 h
      cases h
      trivial
    · obtain _ | ⟨⟨x, rfl⟩, _ | _⟩ := forall₂_isOf hg hp
      cases h

/-- A function of two numbers is proven if its answers have one of the built-in
formats and its failures could not be foreseen. -/
theorem proven_onNumbers (function : String) {f : Number → Number → Except LibraryError Value}
    (hok : ∀ a b value, f a b = .ok value → value.format = format ∧ value.Genuine)
    (herror : ∀ a b e, f a b = .error e → e.Unforeseeable) :
    Proven ⟨⟨[.number, .number], format⟩, onNumbers function f⟩ where
  faithful := by
    intro context args value _ h
    obtain ⟨a, -, h⟩ := bind_eq_ok_iff.1 h
    obtain ⟨b, -, h⟩ := bind_eq_ok_iff.1 h
    rw [(hok a b value h).1]
    exact BEq.rfl
  reliable := by
    refine ⟨fun context args value _ h => ?_, fun context args e hg hp h => ?_⟩
    · obtain ⟨a, -, h⟩ := bind_eq_ok_iff.1 h
      obtain ⟨b, -, h⟩ := bind_eq_ok_iff.1 h
      exact (hok a b value h).2
    · obtain _ | ⟨⟨x, rfl⟩, _ | ⟨⟨y, rfl⟩, _ | _⟩⟩ := forall₂_isOf hg hp
      exact herror x y e h

theorem proven_arithmetic (function : String) (f : Number → Number → Number) :
    Proven ⟨numbersToNumber, arithmetic function f⟩ := by
  refine proven_onNumbers function (fun a b value h => ?_) fun a b e h => ?_
  · cases h
    exact ⟨rfl, trivial⟩
  · cases h

theorem proven_comparison (function : String) (f : Float → Float → Bool) :
    Proven ⟨numbersToTruth, comparison function f⟩ := by
  refine proven_onNumbers function (fun a b value h => ?_) fun a b e h => ?_
  · cases h
    exact ⟨rfl, trivial⟩
  · cases h

theorem proven_division (function : String) (f : Float → Float → Float) :
    Proven ⟨numbersToNumber, division function f⟩ := by
  refine proven_onNumbers function (fun a b value h => ?_) fun a b e h => ?_
  · split at h
    · cases h
    · cases h
      exact ⟨rfl, trivial⟩
  · split at h
    · cases h
      exact .divisionByZero
    · cases h

theorem proven_power : Proven ⟨numbersToNumber, power⟩ := by
  refine proven_onNumbers "^" (fun a b value h => ?_) fun a b e h => ?_
  · split at h
    · cases h
      exact ⟨rfl, trivial⟩
    · cases h
  · split at h
    · cases h
    · rename_i hnone
      cases h
      exact .power hnone

/-! ## Functions of texts, truth values and what has equality -/

theorem proven_concat : Proven ⟨⟨[.text, .text], .text⟩, concat⟩ where
  faithful := by
    intro context args value _ h
    obtain ⟨a, -, h⟩ := bind_eq_ok_iff.1 h
    obtain ⟨b, -, h⟩ := bind_eq_ok_iff.1 h
    cases h
    rfl
  reliable := by
    refine ⟨fun context args value _ h => ?_, fun context args e hg hp h => ?_⟩
    · obtain ⟨a, -, h⟩ := bind_eq_ok_iff.1 h
      obtain ⟨b, -, h⟩ := bind_eq_ok_iff.1 h
      cases h
      trivial
    · obtain _ | ⟨⟨s, rfl⟩, _ | ⟨⟨r, rfl⟩, _ | _⟩⟩ := forall₂_isOf hg hp
      cases h

theorem proven_negation : Proven ⟨⟨[.truth], .truth⟩, negation⟩ where
  faithful := by
    intro context args value _ h
    obtain ⟨b, -, h⟩ := bind_eq_ok_iff.1 h
    cases h
    rfl
  reliable := by
    refine ⟨fun context args value _ h => ?_, fun context args e hg hp h => ?_⟩
    · obtain ⟨b, -, h⟩ := bind_eq_ok_iff.1 h
      cases h
      trivial
    · obtain _ | ⟨⟨b, rfl⟩, _ | _⟩ := forall₂_isOf hg hp
      cases h

/-- A truth value, if it can be read, is what is answered. -/
theorem exists_of_map_truth {x : Except LibraryError Bool} {value : Value}
    (h : x.map .truth = .ok value) : ∃ b, value = .truth b := by
  cases x with
  | error e => cases h
  | ok b =>
    cases h
    exact ⟨b, rfl⟩

theorem exists_of_conjunction {value : Value} (h : conjunction context args = .ok value) :
    ∃ b, value = .truth b := by
  obtain ⟨a, -, h⟩ := bind_eq_ok_iff.1 h
  split at h
  · exact exists_of_map_truth h
  · cases h
    exact ⟨false, rfl⟩

theorem exists_of_disjunction {value : Value} (h : disjunction context args = .ok value) :
    ∃ b, value = .truth b := by
  obtain ⟨a, -, h⟩ := bind_eq_ok_iff.1 h
  split at h
  · cases h
    exact ⟨true, rfl⟩
  · exact exists_of_map_truth h

/-- What answers with a truth value, and always does to arguments that can be read,
is proven. -/
theorem proven_of_truth {params : List Format} {native : Native}
    (hok : ∀ context args value, native context args = .ok value → ∃ b, value = .truth b)
    (hread : ∀ context args e, List.Forall₂ (fun p a => Value.IsOf p a) params args →
      native context args ≠ .error e) : Proven ⟨⟨params, .truth⟩, native⟩ where
  faithful := by
    intro context args value _ h
    obtain ⟨b, rfl⟩ := hok context args value h
    rfl
  reliable := by
    refine ⟨fun context args value _ h => ?_, fun context args e hg hp h => ?_⟩
    · obtain ⟨b, rfl⟩ := hok context args value h
      trivial
    · exact absurd h (hread context args e (forall₂_isOf hg hp))

theorem proven_conjunction : Proven ⟨truthsToTruth, conjunction⟩ := by
  refine proven_of_truth (fun _ _ _ => exists_of_conjunction) fun context args e h he => ?_
  obtain _ | ⟨⟨a, rfl⟩, _ | ⟨⟨b, rfl⟩, _ | _⟩⟩ := h
  cases a <;> cases he

theorem proven_disjunction : Proven ⟨truthsToTruth, disjunction⟩ := by
  refine proven_of_truth (fun _ _ _ => exists_of_disjunction) fun context args e h he => ?_
  obtain _ | ⟨⟨a, rfl⟩, _ | ⟨⟨b, rfl⟩, _ | _⟩⟩ := h
  cases a <;> cases he

theorem proven_equality (params : List Format) : Proven ⟨⟨params, .truth⟩, equality⟩ := by
  refine proven_of_truth (fun context args value h => ?_) fun context args e _ he => ?_
  · cases h
    exact ⟨_, rfl⟩
  · cases he

theorem proven_inequality (params : List Format) : Proven ⟨⟨params, .truth⟩, inequality⟩ := by
  refine proven_of_truth (fun context args value h => ?_) fun context args e _ he => ?_
  · cases h
    exact ⟨_, rfl⟩
  · cases he

/-- What a choice answers is its second or its third argument. -/
theorem getElem?_of_choice (context : CallContext) {value : Value}
    (h : choice context args = .ok value) :
    args[1]? = some value ∨ args[2]? = some value := by
  obtain ⟨condition, -, h⟩ := bind_eq_ok_iff.1 h
  split at h
  · rename_i branch hbranch
    cases h
    cases condition
    · exact .inr hbranch
    · exact .inl hbranch
  · cases h

theorem proven_choice (format : Format) :
    Proven ⟨⟨[.truth, format, format], format⟩, choice⟩ where
  faithful := by
    intro context args value hp h
    obtain _ | ⟨-, _ | ⟨hb, _ | ⟨hc, _ | _⟩⟩⟩ := forall₂_of_params_beq hp
    rcases getElem?_of_choice context h with hv | hv
    · cases hv
      exact Format.beq_iff.2 hb.symm
    · cases hv
      exact Format.beq_iff.2 hc.symm
  reliable := by
    refine ⟨fun context args value hg h => ?_, fun context args e hg hp h => ?_⟩
    · rcases getElem?_of_choice context h with hv | hv
      · exact hg value (List.mem_of_getElem? hv)
      · exact hg value (List.mem_of_getElem? hv)
    · obtain _ | ⟨⟨a, rfl⟩, _ | ⟨-, _ | ⟨-, _ | _⟩⟩⟩ := forall₂_isOf hg hp
      cases a <;> cases h

/-! ## The standard operators -/

theorem builtOf_installOperators : (installOperators {}).BuiltOf Proven := by
  simp only [installOperators, basicFormats, List.foldl_cons, List.foldl_nil]
  exact Library.BuiltOf.empty
    |>.register (proven_arithmetic "+" (.combine (· + ·)))
    |>.register proven_concat
    |>.register (proven_arithmetic "-" (.combine (· - ·)))
    |>.register (proven_arithmetic "*" (.combine (· * ·)))
    |>.register (proven_division "/" (· / ·))
    |>.register (proven_division "%" remainder)
    |>.register proven_power
    |>.register (proven_onNumber "-" .neg)
    |>.register proven_negation
    |>.register proven_conjunction
    |>.setStrategy
    |>.register proven_disjunction
    |>.setStrategy
    |>.register (proven_equality _)
    |>.register (proven_inequality _)
    |>.register (proven_equality _)
    |>.register (proven_inequality _)
    |>.register (proven_equality _)
    |>.register (proven_inequality _)
    |>.register (proven_comparison "<" _)
    |>.register (proven_comparison "<=" _)
    |>.register (proven_comparison ">" _)
    |>.register (proven_comparison ">=" _)

/-- **Conjunction and disjunction of truth values are truth values,** and all other
operators evaluate all arguments. -/
theorem sound_installOperators : (installOperators {}).Sound where
  made := builtOf_installOperators.made
  faithful := builtOf_installOperators.all.imp fun _ h => h.faithful
  fits op o ho := by
    cases op with
    | and =>
      intro first rest hparams _
      have hand : (installOperators {}).overloads .and = [⟨truthsToTruth, conjunction⟩] := rfl
      rw [hand, List.mem_singleton] at ho
      rw [ho]
      rfl
    | or =>
      intro first rest hparams _
      have hor : (installOperators {}).overloads .or = [⟨truthsToTruth, disjunction⟩] := rfl
      rw [hor, List.mem_singleton] at ho
      rw [ho]
      rfl
    | _ => trivial

/-! ## The standard functions -/

/-- **Each standard function is a function of one number or of two, or a choice,** so what
holds of all of these holds of each overload. -/
theorem builtOf_installFunctions_of {P : Overload → Prop}
    (hone : ∀ function f, P ⟨numberToNumber, onNumber function f⟩)
    (htwo : ∀ function f, P ⟨numbersToNumber, arithmetic function f⟩)
    (hchoice : ∀ format, P ⟨⟨[.truth, format, format], format⟩, choice⟩) (names : Interner) :
    (installFunctions {} names).1.BuiltOf P := by
  simp only [installFunctions, numericFunctions, basicFormats, List.foldl_cons, List.foldl_nil]
  exact Library.BuiltOf.empty
    |>.register (hone "abs" .abs)
    |>.register (hone "ceil" (.map Float.ceil))
    |>.register (hone "floor" (.map Float.floor))
    |>.register (hone "round" (.map Float.round))
    |>.register (htwo "min" .lesser)
    |>.register (htwo "max" .greater)
    |>.register (hchoice _)
    |>.register (hchoice _)
    |>.register (hchoice _)
    |>.setStrategy

/-- A choice takes a truth value and two branches of one format, and no other
standard function takes three arguments. -/
theorem builtOf_installFunctions (names : Interner) :
    (installFunctions {} names).1.BuiltOf fun o => Proven o ∧ o.signature.Fits .select := by
  refine builtOf_installFunctions_of (fun function f => ⟨proven_onNumber function f, ?_⟩)
    (fun function f => ⟨proven_arithmetic function f, ?_⟩)
    (fun format => ⟨proven_choice format, ?_⟩) names
  · intro condition ifTrue ifFalse h
    cases h
  · intro condition ifTrue ifFalse h
    cases h
  · intro condition ifTrue ifFalse h
    cases h
    exact ⟨rfl, BEq.rfl⟩

/-- A standard function is a choice or evaluates all arguments. -/
theorem strategy_installFunctions (names : Interner) (name : Name) :
    (installFunctions {} names).1.strategy name = .select ∨
      (installFunctions {} names).1.strategy name = .eager := by
  simp only [installFunctions, numericFunctions, basicFormats, List.foldl_cons, List.foldl_nil,
    Library.strategy_setStrategy, Library.strategy_register]
  split
  · exact .inl rfl
  · exact .inr rfl

theorem sound_installFunctions (names : Interner) : (installFunctions {} names).1.Sound where
  made := (builtOf_installFunctions names).made
  faithful := (builtOf_installFunctions names).all.imp fun _ h => h.1.faithful
  fits name o ho := by
    rcases strategy_installFunctions names name with h | h
    · rw [h]
      exact ((builtOf_installFunctions names).all name o ho).2
    · rw [h]
      trivial

end Standard

end Formulary
