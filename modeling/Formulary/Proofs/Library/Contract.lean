import Formulary.Library.Standard
import Formulary.Proofs.Format.Registry
import Formulary.Proofs.Library.Selection
/-!
# What an engine relies on in its libraries

An overload promises a format, and is faithful if all it answers has that format.
A strategy skips arguments, and that is in order for a signature if the call has
the promised format all the same (`Signature.Fits`). A library is sound if both
hold of each of its overloads.

A host extends a library by faithful overloads on keys whose calls evaluate all
arguments (`Library.Extends`). That keeps a library sound.

A host may do more: it may register any faithful overloads and set any strategies. Such
a library is honest (`Library.Honest`), and not always sound. It still keeps its promise
for an overload that is steady under its key (`Library.Steady`): skipping arguments
makes no other overload of the key answer in its place. Those of a sound library are
(`Sound.steady`).

Of an overload it may further be known that it fails only in ways that no check
of formats can foresee (`Overload.Reliable`).
-/

namespace Formulary

/-- Skipping arguments leaves a call with the promised format: a choice takes a
truth value and two branches of one format, and what a truth value settles is a
truth value. -/
def Signature.Fits (s : Signature) : CallStrategy → Prop
  | .eager => True
  | .select => ∀ condition ifTrue ifFalse, s.params = [condition, ifTrue, ifFalse] →
      condition.identity = .truth ∧ (ifTrue == ifFalse) = true
  | .shortCircuit _ => ∀ first rest, s.params = first :: rest →
      first.identity = .truth → s.result.identity = .truth

namespace Standard

/-- What is said of a power that is not finite. -/
def powerError (a b : Number) : LibraryError :=
  .domain "^" s!"{numberText a.toFloat} ^ {numberText b.toFloat} has no finite result"

end Standard

/-- The failures that depend on the numbers given and not on their format. -/
inductive LibraryError.Unforeseeable : LibraryError → Prop
  | divisionByZero : Unforeseeable .divisionByZero
  | power {a b : Number} (h : a.power? b = none) : Unforeseeable (Standard.powerError a b)

namespace Overload

/-- What is answered to arguments of the right formats has the promised format. -/
def Faithful (o : Overload) : Prop :=
  ∀ context args value, (o.signature.params == args.map Value.format) = true →
    o.native context args = .ok value → (value.format == o.signature.result) = true

/-- Genuine arguments of the right formats have a genuine answer, unless the numbers
given have none. -/
structure Reliable (o : Overload) : Prop where
  /-- An answer is genuine. -/
  genuine : ∀ context args value, (∀ a ∈ args, Value.Genuine a) →
    o.native context args = .ok value → value.Genuine
  /-- A failure could not be foreseen. -/
  unforeseeable : ∀ context args e, (∀ a ∈ args, Value.Genuine a) →
    (o.signature.params == args.map Value.format) = true →
    o.native context args = .error e → e.Unforeseeable

end Overload

namespace Library

variable {κ : Type} [BEq κ]

/-- Something holds of each overload of a library. -/
def All (P : Overload → Prop) (l : Library κ) : Prop := ∀ key, ∀ o ∈ l.overloads key, P o

/-- The libraries that come about by registering overloads of which something holds,
and by setting strategies. -/
inductive BuiltOf (P : Overload → Prop) : Library κ → Prop
  | empty : BuiltOf P {}
  | register {l : Library κ} (h : BuiltOf P l) {key : κ} {signature : Signature} {native : Native}
      (ho : P ⟨signature, native⟩) : BuiltOf P (l.register key signature native)
  | setStrategy {l : Library κ} (h : BuiltOf P l) {key : κ} {strategy : CallStrategy} :
      BuiltOf P (l.setStrategy key strategy)

/-- Each overload is faithful, and no two of a key have the same parameters, whatever
the strategies are. -/
structure Honest (l : Library κ) : Prop where
  /-- No two overloads of a key have the same parameters. -/
  made : l.Made
  /-- Answers have the promised formats. -/
  faithful : l.All Overload.Faithful

/-- Skipping arguments leaves a call of an overload with that overload and its format: no
other overload of the key takes a truth value and one of the two branches twice, and what
a truth value settles is a truth value. -/
structure Steady (l : Library κ) (key : κ) (o : Overload) : Prop where
  /-- A choice that comes to an overload comes to this one. -/
  choice : l.strategy key = .select → ∀ condition ifTrue ifFalse,
    o.signature.params = [condition, ifTrue, ifFalse] → condition.identity = .truth →
      ∀ other ∈ l.overloads key, ∀ branch ∈ [ifTrue, ifFalse],
        (other.signature.params == [condition, branch, branch]) = true → other = o
  /-- A call that is settled has the format of this overload. -/
  settled : ∀ stop, l.strategy key = .shortCircuit stop → ∀ first rest,
    o.signature.params = first :: rest → first.identity = .truth →
      o.signature.result.identity = .truth

/-- Each overload is faithful, and fits the strategy of its key. -/
structure Sound (l : Library κ) : Prop where
  /-- No two overloads of a key have the same parameters. -/
  made : l.Made
  /-- Answers have the promised formats. -/
  faithful : l.All Overload.Faithful
  /-- Strategies skip no argument that counts. -/
  fits : ∀ key, ∀ o ∈ l.overloads key, o.signature.Fits (l.strategy key)

/-- The extensions of a library by faithful overloads on keys whose calls evaluate
all arguments. -/
inductive Extends (base : Library κ) : Library κ → Prop
  | refl : Extends base base
  | register {l : Library κ} (h : Extends base l) {key : κ} (hs : l.strategy key = .eager)
      {signature : Signature} {native : Native} (ho : Overload.Faithful ⟨signature, native⟩) :
      Extends base (l.register key signature native)

variable {P : Overload → Prop} {l base : Library κ}

theorem All.imp {Q : Overload → Prop} (h : l.All P) (hpq : ∀ o, P o → Q o) : l.All Q :=
  fun key o ho => hpq o (h key o ho)

theorem BuiltOf.made (h : l.BuiltOf P) : l.Made := by
  induction h with
  | empty => exact .empty
  | register _ _ ih => exact ih.register _ _ _
  | setStrategy _ ih => exact ih.setStrategy _ _

theorem Sound.honest (h : l.Sound) : l.Honest := ⟨h.made, h.faithful⟩

variable [LawfulBEq κ]

theorem All.register (h : l.All P) {key : κ} {signature : Signature} {native : Native}
    (ho : P ⟨signature, native⟩) : (l.register key signature native).All P := by
  intro k p hp
  rw [overloads_register] at hp
  split at hp
  · rcases mem_withOverload hp with rfl | hp
    · exact ho
    · exact h k p hp
  · exact h k p hp

/-- A library is of the overloads it is built of. -/
theorem BuiltOf.all (h : l.BuiltOf P) : l.All P := by
  induction h with
  | empty =>
    intro key o ho
    cases ho
  | register _ ho ih => exact ih.register ho
  | setStrategy _ ih =>
    intro k p hp
    rw [overloads_setStrategy] at hp
    exact ih k p hp

/-- A library built of faithful overloads is honest. -/
theorem BuiltOf.honest (h : l.BuiltOf Overload.Faithful) : l.Honest := ⟨h.made, h.all⟩

/-- Overloads of a key with equal parameters are one. -/
theorem Made.eq_of_params_beq (h : l.Made) {key : κ} {o p : Overload} (ho : o ∈ l.overloads key)
    (hp : p ∈ l.overloads key) (hop : (o.signature.params == p.signature.params) = true) :
    o = p := by
  have hselect := h.select_eq_ok ho hop
  rw [h.select_eq_ok hp BEq.rfl] at hselect
  exact (Except.ok.inj hselect).symm

/-- **The overloads of a sound library are steady.** -/
theorem Sound.steady (h : l.Sound) {key : κ} {o : Overload} (ho : o ∈ l.overloads key) :
    l.Steady key o where
  choice hs condition ifTrue ifFalse hparams _ other hother branch hbranch hp := by
    have hfits := h.fits key o ho
    rw [hs] at hfits
    have hsame : (ifTrue == ifFalse) = true := (hfits condition ifTrue ifFalse hparams).2
    -- the two branches are of one format, so the parameters are those of the overload
    have hbranches : (branch == ifTrue) = true ∧ (branch == ifFalse) = true := by
      rcases List.mem_pair.1 hbranch with rfl | rfl
      · exact ⟨BEq.rfl, hsame⟩
      · exact ⟨BEq.symm hsame, BEq.rfl⟩
    refine h.made.eq_of_params_beq hother ho (BEq.trans hp ?_)
    simp only [hparams, List.cons_beq_cons, hbranches.1, hbranches.2, BEq.rfl, Bool.and_self]
  settled stop hs first rest hparams hfirst := by
    have hfits := h.fits key o ho
    rw [hs] at hfits
    exact hfits first rest hparams hfirst

/-- A faithful overload on a key that skips nothing keeps a library sound. -/
theorem Sound.register (h : l.Sound) {key : κ} (hs : l.strategy key = .eager)
    {signature : Signature} {native : Native} (ho : Overload.Faithful ⟨signature, native⟩) :
    (l.register key signature native).Sound := by
  refine ⟨h.made.register key signature native, h.faithful.register ho, fun k p hp => ?_⟩
  rw [strategy_register]
  rw [overloads_register] at hp
  split at hp
  · rename_i hk
    rw [← eq_of_beq hk, hs]
    trivial
  · exact h.fits k p hp

/-- **What extends a sound library is sound.** -/
theorem Extends.sound (h : base.Extends l) (hb : base.Sound) : l.Sound := by
  induction h with
  | refl => exact hb
  | register _ hs ho ih => exact ih.register hs ho

end Library

end Formulary
