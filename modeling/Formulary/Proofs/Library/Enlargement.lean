import Formulary.Proofs.Library.Selection
/-!
# Libraries that are enlarged

A host may go on registering overloads, under old keys or new ones. As long as none has the
parameters of an overload that its key had to begin with, the library is enlarged
(`Library.Enlarges`): each key has the overloads that it had, then the new ones
(`Enlarges.overloads_eq`), and its strategy. So what was chosen is chosen
(`Enlarges.select_eq_ok`), although less may be expected of arguments than before.
-/

namespace Formulary

namespace Library

variable {κ : Type} [BEq κ]

/-- The libraries that come about from one by registering overloads with parameters that
none of its overloads of their key has. -/
inductive Enlarges (base : Library κ) : Library κ → Prop
  | refl : Enlarges base base
  | register {l : Library κ} (h : Enlarges base l) {key : κ} {signature : Signature}
      {native : Native}
      (hnew : ∀ o ∈ base.overloads key, ¬ (o.signature.params == signature.params) = true) :
      Enlarges base (l.register key signature native)

variable {base l : Library κ} {key : κ} {o : Overload} {formats : List Format} {format : Format}

/-- An overload goes behind those with other parameters. -/
theorem withOverload_append {old new : List Overload}
    (h : ∀ p ∈ old, ¬ (p.signature.params == o.signature.params) = true) :
    withOverload o (old ++ new) = old ++ withOverload o new := by
  induction old with
  | nil => rfl
  | cons p rest ih =>
    rw [List.cons_append, withOverload, if_neg (h p List.mem_cons_self),
      ih fun q hq => h q (List.mem_cons_of_mem _ hq), List.cons_append]

theorem Enlarges.made (h : base.Enlarges l) (hb : base.Made) : l.Made := by
  induction h with
  | refl => exact hb
  | register _ _ ih => exact ih.register _ _ _

variable [LawfulBEq κ]

/-- **An enlarged library skips no other arguments.** -/
theorem Enlarges.strategy_eq (h : base.Enlarges l) (key : κ) :
    l.strategy key = base.strategy key := by
  induction h with
  | refl => rfl
  | register _ _ ih => rw [strategy_register, ih]

/-- **A key has the overloads that it had, and the new ones behind them.** -/
theorem Enlarges.overloads_eq (h : base.Enlarges l) (key : κ) :
    ∃ new, l.overloads key = base.overloads key ++ new := by
  induction h with
  | refl => exact ⟨[], (List.append_nil _).symm⟩
  | @register l h k signature native hnew ih =>
    obtain ⟨new, hl⟩ := ih
    rw [overloads_register, hl]
    split
    · rename_i hk
      rw [eq_of_beq hk] at hnew
      exact ⟨_, withOverload_append hnew⟩
    · exact ⟨new, rfl⟩

/-- **What was chosen is chosen.** -/
theorem Enlarges.select_eq_ok (h : base.Enlarges l) (hs : base.select key formats = .ok o) :
    l.select key formats = .ok o := by
  obtain ⟨new, hl⟩ := h.overloads_eq key
  rw [select_eq_ok_iff] at hs ⊢
  rw [hl, List.find?_append, hs, Option.some_or]

/-- What was given a format is given that format. -/
theorem Enlarges.gives (h : base.Enlarges l) (hg : base.Gives key formats format) :
    l.Gives key formats format := by
  obtain ⟨new, hl⟩ := h.overloads_eq key
  obtain ⟨o, ho, hp, hresult⟩ := hg
  exact ⟨o, hl ▸ List.mem_append_left _ ho, hp, hresult⟩

/-- No key is lost, even one without overloads. -/
theorem Enlarges.contains (h : base.Enlarges l) (hc : base.contains key = true) :
    l.contains key = true := by
  induction h with
  | refl => exact hc
  | register _ _ ih => rw [contains_register, ih, Bool.or_true]

end Library

end Formulary
