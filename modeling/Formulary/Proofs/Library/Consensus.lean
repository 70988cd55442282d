import Formulary.Proofs.Library.Selection
/-!
# What the overloads of a key agree on

A consensus says a format at a position, or nothing. One more overload that is heard leaves
what it has itself at a position, and takes back what it has not (`saysAt_agree_iff`). What was
taken back is not said again, so whatever the number and the order of the overloads, what is
said at a position is what each of them has there (`saysAt_expectedFormats_iff`). Nothing else
of the loop is needed to tell which arguments can still be taken and which can not
(`expectedFormats_exact`).
-/

namespace Formulary

namespace Library

/-- A list of formats has a format at a position. -/
def HasAt (formats : List Format) (i : Nat) (f : Format) : Prop :=
  ∃ g, formats[i]? = some g ∧ (g == f) = true

/-- A consensus says a format at a position. -/
def SaysAt (slots : List (Option Format)) (i : Nat) (f : Format) : Prop :=
  ∃ g, slots[i]? = some (some g) ∧ (g == f) = true

variable {κ : Type} [BEq κ] {l : Library κ} {key : κ} {o : Overload} {overloads : List Overload}
variable {formats formats' params : List Format} {slots : List (Option Format)} {n i : Nat}
variable {f g : Format}

theorem hasAt_iff : HasAt formats i f ↔ (formats.map Format.identity)[i]? = some f.identity := by
  simp only [HasAt, List.getElem?_map, Option.map_eq_some_iff, Format.beq_iff]

/-- Equal lists have the same at each position. -/
theorem HasAt.congr (h : HasAt formats i f) (hf : (formats == formats') = true) :
    HasAt formats' i f := by
  rw [hasAt_iff] at h ⊢
  rw [← Format.beq_list_iff.1 hf, h]

/-! ## One overload after another -/

/-- The overload that is heard first is believed. -/
theorem saysAt_map_some : SaysAt (params.map some) i f ↔ HasAt params i f := by
  simp only [SaysAt, HasAt, List.getElem?_map, Option.map_eq_some_iff, Option.some.injEq,
    exists_eq_right]

/-- **One more overload** leaves what it has itself, and says nothing new. -/
theorem saysAt_agree_iff :
    SaysAt (agree slots params) i f ↔ SaysAt slots i f ∧ HasAt params i f := by
  unfold SaysAt HasAt agree
  rw [List.getElem?_zipWith]
  cases slots[i]? with
  | none => simp
  | some slot =>
    cases params[i]? with
    | none => simp
    | some param =>
      cases slot with
      | none => simp
      | some g =>
        by_cases hg : (g == param) = true
        · -- the two formats are equal, so either is the one that is asked for
          have hf : (g == f) = (param == f) := BEq.congr_left hg
          simp [hg, hf]
        · have hf (hgf : (g == f) = true) : ¬(param == f) = true := fun hpf =>
            hg (BEq.trans hgf (BEq.symm hpf))
          simpa [hg] using hf

/-- **What is said is what each overload has,** and what was said before. -/
theorem saysAt_consensus_iff : SaysAt (consensus overloads slots) i f ↔
    SaysAt slots i f ∧ ∀ o ∈ overloads, HasAt o.signature.params i f := by
  induction overloads generalizing slots with
  | nil => simp [consensus]
  | cons o rest ih =>
    have hstep :
        consensus (o :: rest) slots = consensus rest (agree slots o.signature.params) := rfl
    rw [hstep, ih, saysAt_agree_iff, List.forall_mem_cons, and_assoc]

/-! ## The overloads of a key -/

/-- **What is expected at a position is what each overload has there,** of those with so many
parameters. -/
theorem saysAt_expectedFormats_iff (h : l.expectedFormats key n = some slots) :
    SaysAt slots i f ↔
      ∀ o ∈ l.overloads key, o.signature.arity = n → HasAt o.signature.params i f := by
  have hheard : (∀ o ∈ l.overloads key, o.signature.arity = n → HasAt o.signature.params i f) ↔
      ∀ o ∈ (l.overloads key).filter fun o => o.signature.arity == n,
        HasAt o.signature.params i f := by
    simp only [List.mem_filter, beq_iff_eq, and_imp]
  unfold expectedFormats at h
  split at h
  · cases h
  · rename_i first rest hfilter
    obtain rfl := Option.some.inj h
    have hfirst : SaysAt (first.signature.params.map some) i f ↔
        HasAt first.signature.params i f := saysAt_map_some
    rw [hheard, hfilter, List.forall_mem_cons, ← hfirst]
    exact saysAt_consensus_iff

/-- **What is expected is exactly what the overloads agree on.** Nothing is expected of a number
of arguments that no overload of the key has. Otherwise something is said of each position: a
format, if every overload with so many parameters has it there, and nothing else. So formats
for which an overload is chosen are as expected, and formats that are not as expected somewhere
are taken by no overload: the call is refused for want of an overload that takes them. -/
theorem expectedFormats_exact (l : Library κ) (key : κ) (n : Nat) :
    (l.expectedFormats key n = none ↔ ∀ o ∈ l.overloads key, o.signature.arity ≠ n) ∧
    ∀ slots, l.expectedFormats key n = some slots →
      slots.length = n ∧
      (∀ i f, SaysAt slots i f ↔
        ∀ o ∈ l.overloads key, o.signature.arity = n → HasAt o.signature.params i f) ∧
      (∀ args o, args.length = n → l.select key args = .ok o →
        ∀ i f, SaysAt slots i f → HasAt args i f) ∧
      ∀ args i f, args.length = n → SaysAt slots i f → ¬HasAt args i f →
        (∀ o ∈ l.overloads key, o.signature.accepts args = false) ∧
          l.select key args = .error (.noMatchingOverload args) := by
  constructor
  · rw [expectedFormats_eq_none_iff, List.any_eq_false]
    simp only [beq_iff_eq, ne_eq]
  intro slots hslots
  have hslot (i : Nat) (f : Format) : SaysAt slots i f ↔
      ∀ o ∈ l.overloads key, o.signature.arity = n → HasAt o.signature.params i f :=
    saysAt_expectedFormats_iff hslots
  -- formats that an overload takes are its parameters, and it is one of those that were heard
  have taken {args : List Format} {o : Overload} {i : Nat} {f : Format} (hlen : args.length = n)
      (ho : o ∈ l.overloads key) (hp : (o.signature.params == args) = true)
      (hs : SaysAt slots i f) : HasAt args i f :=
    ((hslot i f).1 hs o ho ((arity_of_params_beq hp).trans hlen)).congr hp
  refine ⟨length_expectedFormats hslots, hslot, fun args o hlen hselect i f hs => ?_,
    fun args i f hlen hs hnot => ?_⟩
  · obtain ⟨ho, hp⟩ := mem_of_select hselect
    exact taken hlen ho hp hs
  · have hnone (o : Overload) (ho : o ∈ l.overloads key) :
        ¬(o.signature.params == args) = true := fun hp => hnot (taken hlen ho hp hs)
    have harity : args.length ∈ l.arities key := by
      have hsome : ¬ l.expectedFormats key n = none := by simp [hslots]
      rw [expectedFormats_eq_none_iff, Bool.not_eq_false, any_arity_iff] at hsome
      rwa [hlen]
    refine ⟨fun o ho => Bool.eq_false_iff.2 (hnone o ho), ?_⟩
    exact select_eq_noMatchingOverload_iff.2 ⟨harity, hnone, rfl⟩

end Library

namespace Sample

/-- An addition of a pair to a truth value. The overloads differ at the first place and then
have there once more what the first one has. -/
def mixed : Library Operator :=
  let native : Native := fun _ _ => .ok (.truth true)
  ((({} : Library Operator).register .add ⟨[.number, .text, .truth], .truth⟩ native).register
    .add ⟨[.text, .text, .truth], .truth⟩ native).register
    .add ⟨[.number, .number, .truth], .truth⟩ native

end Sample

namespace Library

/-- What the first and the last overload have at the first place is not expected there. That the
third argument is a truth value is: it is one where an overload is chosen, and with a number
instead there is none. -/
theorem expectedFormats_exact_mixed :
    Sample.mixed.expectedFormats .add 3 = some [none, none, some .truth] ∧
      ¬SaysAt [none, none, some .truth] 0 .number ∧
      SaysAt [none, none, some .truth] 2 .truth ∧
      (∃ o, Sample.mixed.select .add [.text, .text, .truth] = .ok o ∧
        HasAt [.text, .text, .truth] 2 .truth) ∧
      ¬HasAt [.number, .text, .number] 2 .truth ∧
      Sample.mixed.select .add [.number, .text, .number] =
        .error (.noMatchingOverload [.number, .text, .number]) := by
  have hslots : Sample.mixed.expectedFormats .add 3 = some [none, none, some .truth] := rfl
  have hfirst : ¬SaysAt [none, none, some .truth] 0 .number := by simp [SaysAt]
  have hthird : SaysAt [none, none, some .truth] 2 .truth := ⟨.truth, rfl, rfl⟩
  have hnumber : ¬HasAt [.number, .text, .number] 2 .truth := by
    rw [hasAt_iff]
    decide
  obtain ⟨o, ho⟩ : ∃ o, Sample.mixed.select .add [.text, .text, .truth] = .ok o := ⟨_, rfl⟩
  obtain ⟨-, -, htaken, hrefused⟩ := (expectedFormats_exact Sample.mixed .add 3).2 _ hslots
  exact ⟨hslots, hfirst, hthird, ⟨o, ho, htaken _ o rfl ho 2 .truth hthird⟩, hnumber,
    (hrefused _ 2 .truth rfl hthird hnumber).2⟩

end Library

end Formulary
