import Formulary.Proofs.Answers
import Formulary.Proofs.Library.Selection
import Mathlib.Data.List.Induction
/-!
# Libraries and the calls that made them

A library is made by calls (`LibraryCall`), one after another, each of which registers an
overload or sets a strategy (`Library.after`). What it answers can be told from the calls
alone. Of the registrations with some parameters the last one counts
(`select_after_eq_ok_iff`), at the place where the first one was
(`identities_overloads_after`). A key is there as soon as a call names it (`contains_after`),
and its strategy is the one that was set last (`strategy_after_eq_iff`).
-/

namespace Formulary

/-- What tells an overload from the others of its key: its parameters, but for how they are
shown. -/
def Overload.identity (o : Overload) : List Format.Identity :=
  o.signature.params.map Format.identity

/-- What can be done to a library. -/
inductive LibraryCall (κ : Type) where
  | register (key : κ) (signature : Signature) (native : Native)
  | setStrategy (key : κ) (strategy : CallStrategy)

namespace LibraryCall

variable {κ : Type}

/-- The key that a call names. -/
def key : LibraryCall κ → κ
  | register key _ _ => key
  | setStrategy key _ => key

/-- Whether a call registers an overload. -/
def registers : LibraryCall κ → Bool
  | register .. => true
  | setStrategy .. => false

variable [BEq κ]

/-- The overload that a call registers for a key. -/
def overload? (key : κ) : LibraryCall κ → Option Overload
  | register k signature native => if k == key then some ⟨signature, native⟩ else none
  | setStrategy .. => none

/-- The strategy that a call sets for a key. -/
def strategy? (key : κ) : LibraryCall κ → Option CallStrategy
  | register .. => none
  | setStrategy k strategy => if k == key then some strategy else none

/-- The library after a call. -/
def apply (l : Library κ) : LibraryCall κ → Library κ
  | register key signature native => l.register key signature native
  | setStrategy key strategy => l.setStrategy key strategy

variable [LawfulBEq κ] {key : κ} {c : LibraryCall κ} {signature : Signature} {native : Native}

theorem overload?_eq_some_iff :
    c.overload? key = some ⟨signature, native⟩ ↔ c = .register key signature native := by
  cases c with
  | register k s n =>
    rw [overload?]
    split
    · rename_i hk
      rw [eq_of_beq hk, Option.some.injEq, Overload.mk.injEq, register.injEq]
      exact (and_iff_right rfl).symm
    · rename_i hk
      refine iff_of_false nofun fun h => hk ?_
      rw [register.injEq] at h
      rw [h.1]
      exact BEq.rfl
  | setStrategy k strategy => exact iff_of_false nofun nofun

theorem strategy?_eq_some_iff {strategy : CallStrategy} :
    c.strategy? key = some strategy ↔ c = .setStrategy key strategy := by
  cases c with
  | register k s n => exact iff_of_false nofun nofun
  | setStrategy k s =>
    rw [strategy?]
    split
    · rename_i hk
      rw [eq_of_beq hk, Option.some.injEq, setStrategy.injEq]
      exact (and_iff_right rfl).symm
    · rename_i hk
      refine iff_of_false nofun fun h => hk ?_
      rw [setStrategy.injEq] at h
      rw [h.1]
      exact BEq.rfl

end LibraryCall

namespace Library

variable {κ : Type} [BEq κ]

/-- The library after some calls. -/
def after (l : Library κ) (calls : List (LibraryCall κ)) : Library κ :=
  calls.foldl LibraryCall.apply l

variable {l : Library κ} {calls : List (LibraryCall κ)} {key : κ} {o : Overload}
variable {args : List Format} {overloads : List Overload}

theorem after_singleton (l : Library κ) (c : LibraryCall κ) : l.after [c] = c.apply l := rfl

theorem after_append (l : Library κ) (calls more : List (LibraryCall κ)) :
    l.after (calls ++ more) = (l.after calls).after more := List.foldl_append

theorem Made.after (h : l.Made) (calls : List (LibraryCall κ)) : (l.after calls).Made := by
  induction calls generalizing l with
  | nil => exact h
  | cons c calls ih =>
    cases c with
    | register key signature native => exact ih (h.register key signature native)
    | setStrategy key strategy => exact ih (h.setStrategy key strategy)

/-! ## One more overload -/

/-- **The overload that was registered last is the one that is found,** by its parameters. -/
theorem find?_withOverload (o : Overload) (overloads : List Overload) (args : List Format) :
    (withOverload o overloads).find? (fun p => p.signature.accepts args) =
      if o.signature.accepts args then some o
      else overloads.find? fun p => p.signature.accepts args := by
  induction overloads with
  | nil =>
    rw [withOverload, List.find?_cons]
    cases o.signature.accepts args <;> rfl
  | cons p rest ih =>
    rw [withOverload]
    split
    · -- the old overload takes what the new one takes
      rename_i hsame
      have hp : p.signature.accepts args = o.signature.accepts args := BEq.congr_left hsame
      rw [List.find?_cons, List.find?_cons, hp]
      cases o.signature.accepts args <;> rfl
    · rename_i hother
      rw [List.find?_cons, ih, List.find?_cons]
      cases hp : p.signature.accepts args with
      | false => rfl
      | true =>
        have ho : o.signature.accepts args = false := by
          rw [← Bool.not_eq_true]
          exact fun ho => hother (BEq.trans hp (BEq.symm ho))
        rw [ho]
        rfl

/-- An overload goes to the end, unless one with its parameters is there. -/
theorem identities_withOverload (o : Overload) (overloads : List Overload) :
    (withOverload o overloads).map Overload.identity =
      if o.identity ∈ overloads.map Overload.identity then overloads.map Overload.identity
      else overloads.map Overload.identity ++ [o.identity] := by
  induction overloads with
  | nil => rfl
  | cons p rest ih =>
    rw [withOverload]
    by_cases hsame : (p.signature.params == o.signature.params) = true
    · have hid : p.identity = o.identity := Format.beq_list_iff.1 hsame
      rw [if_pos hsame, List.map_cons, List.map_cons, hid, if_pos List.mem_cons_self]
    · have hid : o.identity ≠ p.identity := fun h => hsame (Format.beq_list_iff.2 h.symm)
      rw [if_neg hsame, List.map_cons, List.map_cons, ih]
      by_cases hmem : o.identity ∈ rest.map Overload.identity
      · rw [if_pos hmem, if_pos (List.mem_cons_of_mem _ hmem)]
      · rw [if_neg hmem, if_neg fun h => (List.mem_cons.1 h).elim hid hmem, List.cons_append]

/-! ## What calls come to -/

section

variable [LawfulBEq κ]

theorem overloads_apply (l : Library κ) (c : LibraryCall κ) (key : κ) :
    (c.apply l).overloads key =
      ((c.overload? key).map fun o => withOverload o (l.overloads key)).getD
        (l.overloads key) := by
  cases c with
  | register k signature native =>
    rw [LibraryCall.apply, overloads_register, LibraryCall.overload?]
    split <;> rfl
  | setStrategy k strategy =>
    rw [LibraryCall.apply, overloads_setStrategy]
    rfl

theorem strategy_apply (l : Library κ) (c : LibraryCall κ) (key : κ) :
    (c.apply l).strategy key = (c.strategy? key).getD (l.strategy key) := by
  cases c with
  | register k signature native =>
    rw [LibraryCall.apply, strategy_register]
    rfl
  | setStrategy k strategy =>
    rw [LibraryCall.apply, strategy_setStrategy, LibraryCall.strategy?]
    split <;> rfl

theorem contains_apply (l : Library κ) (c : LibraryCall κ) (key : κ) :
    (c.apply l).contains key = (c.key == key || l.contains key) := by
  cases c with
  | register k signature native => exact contains_register l k key signature native
  | setStrategy k strategy => exact contains_setStrategy l k key strategy

/-- **A key is there as soon as a call names it.** -/
theorem contains_after (l : Library κ) (calls : List (LibraryCall κ)) (key : κ) :
    (l.after calls).contains key = (l.contains key || calls.any fun c => c.key == key) := by
  induction calls generalizing l with
  | nil => exact (Bool.or_false _).symm
  | cons c calls ih =>
    have hstep : l.after (c :: calls) = (c.apply l).after calls := rfl
    rw [hstep, ih, contains_apply, List.any_cons, Bool.or_comm (c.key == key), Bool.or_assoc]

/-- The overloads after some calls: the registrations for the key, one after another. -/
theorem overloads_after (l : Library κ) (calls : List (LibraryCall κ)) (key : κ) :
    (l.after calls).overloads key =
      (calls.filterMap (LibraryCall.overload? key)).foldl (fun os o => withOverload o os)
        (l.overloads key) := by
  induction calls generalizing l with
  | nil => rfl
  | cons c calls ih =>
    have hstep : l.after (c :: calls) = (c.apply l).after calls := rfl
    rw [hstep, ih, overloads_apply, List.filterMap_cons]
    cases c.overload? key <;> rfl

/-- **Of the registrations with some parameters the last one counts.** -/
theorem find?_overloads_after (l : Library κ) (calls : List (LibraryCall κ)) (key : κ)
    (args : List Format) :
    ((l.after calls).overloads key).find? (fun o => o.signature.accepts args) =
      (calls.reverse.findSome? fun c =>
        (c.overload? key).filter fun o => o.signature.accepts args).or
          ((l.overloads key).find? fun o => o.signature.accepts args) := by
  induction calls using List.reverseRecOn with
  | nil => rfl
  | append_singleton calls c ih =>
    rw [after_append, after_singleton, overloads_apply, List.reverse_concat, List.findSome?_cons]
    cases c.overload? key with
    | none => exact ih
    | some o =>
      rw [Option.map_some, Option.getD_some, find?_withOverload, ih, Option.filter_some]
      cases o.signature.accepts args <;> rfl

/-- **The overloads are in the order in which their parameters first came up.** -/
theorem identities_overloads_after (calls : List (LibraryCall κ)) (key : κ) :
    ((({} : Library κ).after calls).overloads key).map Overload.identity =
      ((calls.filterMap (LibraryCall.overload? key)).map Overload.identity).eraseDups := by
  rw [overloads_after]
  induction calls.filterMap (LibraryCall.overload? key) using List.reverseRecOn with
  | nil => rfl
  | append_singleton registered o ih =>
    rw [List.foldl_concat, identities_withOverload, ih, List.map_append, List.map_singleton,
      eraseDups_concat]
    simp only [List.mem_eraseDups]

/-- **The strategy is the one that was set last.** -/
theorem strategy_after (l : Library κ) (calls : List (LibraryCall κ)) (key : κ) :
    (l.after calls).strategy key =
      (calls.reverse.findSome? (LibraryCall.strategy? key)).getD (l.strategy key) := by
  induction calls using List.reverseRecOn with
  | nil => rfl
  | append_singleton calls c ih =>
    rw [after_append, after_singleton, strategy_apply, List.reverse_concat, List.findSome?_cons, ih]
    cases c.strategy? key <;> rfl

/-- The parameters that the overloads of a key have are those that were registered. -/
theorem mem_identities_after {calls : List (LibraryCall κ)} {key : κ}
    {id : List Format.Identity} :
    (∃ o ∈ (({} : Library κ).after calls).overloads key, o.identity = id) ↔
      ∃ signature native, .register key signature native ∈ calls ∧
        signature.params.map Format.identity = id := by
  rw [← List.mem_map, identities_overloads_after, List.mem_eraseDups, List.mem_map]
  constructor
  · rintro ⟨o, ho, hid⟩
    obtain ⟨c, hc, hco⟩ := List.mem_filterMap.1 ho
    obtain ⟨signature, native⟩ := o
    exact ⟨signature, native, LibraryCall.overload?_eq_some_iff.1 hco ▸ hc, hid⟩
  · rintro ⟨signature, native, hc, hid⟩
    exact ⟨⟨signature, native⟩,
      List.mem_filterMap.2 ⟨_, hc, LibraryCall.overload?_eq_some_iff.2 rfl⟩, hid⟩

/-- The numbers of parameters that the overloads of a key have are those that were
registered. -/
theorem mem_arities_after {calls : List (LibraryCall κ)} {key : κ} {n : Nat} :
    n ∈ (({} : Library κ).after calls).arities key ↔
      ∃ signature native, .register key signature native ∈ calls ∧ signature.arity = n := by
  rw [mem_arities]
  constructor
  · rintro ⟨o, ho, hn⟩
    obtain ⟨signature, native, hc, hid⟩ := mem_identities_after.1 ⟨o, ho, rfl⟩
    have hlength := congrArg List.length hid
    rw [Overload.identity, List.length_map, List.length_map] at hlength
    exact ⟨signature, native, hc, hlength.trans hn⟩
  · rintro ⟨signature, native, hc, hn⟩
    obtain ⟨o, ho, hid⟩ := mem_identities_after.2 ⟨signature, native, hc, rfl⟩
    have hlength := congrArg List.length hid
    rw [Overload.identity, List.length_map, List.length_map] at hlength
    exact ⟨o, ho, hlength.trans hn⟩

/-- An overload with some parameters is there when one was registered. -/
theorem exists_overload_after_iff {calls : List (LibraryCall κ)} {key : κ} {args : List Format} :
    (∃ o ∈ (({} : Library κ).after calls).overloads key,
        (o.signature.params == args) = true) ↔
      ∃ signature native, .register key signature native ∈ calls ∧
        (signature.params == args) = true := by
  simp only [Format.beq_list_iff]
  exact mem_identities_after

/-- **The overload that is chosen is the one that was registered last,** of those with these
parameters. -/
theorem select_after_eq_ok_iff {calls : List (LibraryCall κ)} {key : κ} {args : List Format}
    {signature : Signature} {native : Native} :
    (({} : Library κ).after calls).select key args = .ok ⟨signature, native⟩ ↔
      ∃ earlier later, calls = earlier ++ .register key signature native :: later ∧
        (signature.params == args) = true ∧
        ∀ s n, .register key s n ∈ later → ¬(s.params == args) = true := by
  have hstart : (({} : Library κ).overloads key).find? (fun o => o.signature.accepts args) =
      none := rfl
  rw [select_eq_ok_iff, find?_overloads_after, hstart, Option.or_none,
    findSome?_reverse_eq_some_iff]
  simp only [Option.filter_eq_some_iff, Option.filter_eq_none_iff,
    LibraryCall.overload?_eq_some_iff]
  constructor
  · rintro ⟨earlier, c, later, hcalls, ⟨rfl, hargs⟩, hlater⟩
    refine ⟨earlier, later, hcalls, hargs, fun s n hc => ?_⟩
    exact hlater _ hc ⟨s, n⟩ (LibraryCall.overload?_eq_some_iff.2 rfl)
  · rintro ⟨earlier, later, hcalls, hargs, hlater⟩
    refine ⟨earlier, _, later, hcalls, ⟨rfl, hargs⟩, fun c hc o ho => ?_⟩
    obtain ⟨s, n⟩ := o
    exact hlater s n (LibraryCall.overload?_eq_some_iff.1 ho ▸ hc)

/-- **The strategy of a key is the one that was set last,** or to evaluate all arguments. -/
theorem strategy_after_eq_iff {calls : List (LibraryCall κ)} {key : κ}
    {strategy : CallStrategy} :
    (({} : Library κ).after calls).strategy key = strategy ↔
      (∃ earlier later, calls = earlier ++ .setStrategy key strategy :: later ∧
        ∀ s, .setStrategy key s ∉ later) ∨
      strategy = .eager ∧ ∀ s, .setStrategy key s ∉ calls := by
  have hstart : ({} : Library κ).strategy key = .eager := rfl
  have hlast : (∃ earlier later, calls = earlier ++ .setStrategy key strategy :: later ∧
        ∀ s, .setStrategy key s ∉ later) ↔
      calls.reverse.findSome? (LibraryCall.strategy? key) = some strategy := by
    rw [findSome?_reverse_eq_some_iff]
    simp only [LibraryCall.strategy?_eq_some_iff, Option.eq_none_iff_forall_ne_some]
    constructor
    · rintro ⟨earlier, later, hcalls, hlater⟩
      refine ⟨earlier, _, later, hcalls, rfl, fun c hc s hs => ?_⟩
      exact hlater s (LibraryCall.strategy?_eq_some_iff.1 hs ▸ hc)
    · rintro ⟨earlier, c, later, hcalls, rfl, hlater⟩
      exact ⟨earlier, later, hcalls, fun s hc =>
        hlater _ hc s (LibraryCall.strategy?_eq_some_iff.2 rfl)⟩
  have hnever : (∀ s, .setStrategy key s ∉ calls) ↔
      calls.reverse.findSome? (LibraryCall.strategy? key) = none := by
    rw [List.findSome?_eq_none_iff]
    simp only [List.mem_reverse, Option.eq_none_iff_forall_ne_some]
    constructor
    · intro h c hc s hs
      exact h s (LibraryCall.strategy?_eq_some_iff.1 hs ▸ hc)
    · intro h s hc
      exact h _ hc s (LibraryCall.strategy?_eq_some_iff.2 rfl)
  rw [strategy_after, hstart, hlast, hnever]
  cases calls.reverse.findSome? (LibraryCall.strategy? key) with
  | none => simp [eq_comm]
  | some s => simp

/-- Strategies have no part in the overloads. -/
theorem overloads_after_filter (calls : List (LibraryCall κ)) (key : κ) :
    (({} : Library κ).after (calls.filter LibraryCall.registers)).overloads key =
      (({} : Library κ).after calls).overloads key := by
  rw [overloads_after, overloads_after, List.filterMap_filter]
  refine congrArg (List.foldl _ _) (List.filterMap_congr fun c _ => ?_)
  cases c <;> rfl

end

end Library

end Formulary
