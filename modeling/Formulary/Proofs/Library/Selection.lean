import Formulary.Library
import Mathlib.Data.List.Forall2
/-!
# Which overload is chosen, and what is expected before

A library comes about by registering overloads and setting strategies (`Made`).
No two overloads of a key of it have the same parameters, so a call has the
format of any overload whose parameters are the formats of its arguments
(`resultFormat_eq_ok_iff`). Where there is none, it is because the key is unknown, or the
number of the arguments is wrong, or their formats are (`select_cases`).

What the overloads of one arity agree on is what each of them has: expecting it
of the arguments turns no overload away (`respects_of_expectedFormats`).
-/

namespace Formulary

namespace Library

variable {κ : Type} [BEq κ]

/-- The libraries that come about by registering overloads and setting strategies. -/
inductive Made : Library κ → Prop
  | empty : Made {}
  | register {l : Library κ} (h : Made l) (key : κ) (signature : Signature) (native : Native) :
      Made (l.register key signature native)
  | setStrategy {l : Library κ} (h : Made l) (key : κ) (strategy : CallStrategy) :
      Made (l.setStrategy key strategy)

/-- Some overload of a key takes arguments of the given formats and gives the format. -/
def Gives (l : Library κ) (key : κ) (formats : List Format) (format : Format) : Prop :=
  ∃ o ∈ l.overloads key, (o.signature.params == formats) = true ∧ o.signature.result = format

variable {l : Library κ} {key : κ} {formats : List Format} {format : Format} {o : Overload}

/-! ## What is held under a key -/

section

variable [LawfulBEq κ]

theorem entry_register (l : Library κ) (key k : κ) (signature : Signature) (native : Native) :
    (l.register key signature native).entry k =
      if key == k then
        { l.entry k with overloads := withOverload ⟨signature, native⟩ (l.overloads k) }
      else l.entry k := by
  simp only [register, entry, overloads, Table.find?_insert]
  split
  · rename_i h
    rw [eq_of_beq h]
    rfl
  · rfl

theorem entry_setStrategy (l : Library κ) (key k : κ) (strategy : CallStrategy) :
    (l.setStrategy key strategy).entry k =
      if key == k then { l.entry k with strategy } else l.entry k := by
  simp only [setStrategy, entry, Table.find?_insert]
  split
  · rename_i h
    rw [eq_of_beq h]
    rfl
  · rfl

theorem overloads_register (l : Library κ) (key k : κ) (signature : Signature)
    (native : Native) :
    (l.register key signature native).overloads k =
      if key == k then withOverload ⟨signature, native⟩ (l.overloads k) else l.overloads k := by
  rw [overloads, entry_register]
  split <;> rfl

/-- A registration leaves all strategies alone. -/
@[simp] theorem strategy_register (l : Library κ) (key k : κ) (signature : Signature)
    (native : Native) : (l.register key signature native).strategy k = l.strategy k := by
  rw [strategy, entry_register]
  split <;> rfl

/-- A strategy leaves all overloads alone. -/
@[simp] theorem overloads_setStrategy (l : Library κ) (key k : κ) (strategy : CallStrategy) :
    (l.setStrategy key strategy).overloads k = l.overloads k := by
  rw [overloads, entry_setStrategy]
  split <;> rfl

theorem strategy_setStrategy (l : Library κ) (key k : κ) (strategy : CallStrategy) :
    (l.setStrategy key strategy).strategy k = if key == k then strategy else l.strategy k := by
  rw [Library.strategy, entry_setStrategy]
  split <;> rfl

/-- A registration puts its key into the library. -/
theorem contains_register (l : Library κ) (key k : κ) (signature : Signature) (native : Native) :
    (l.register key signature native).contains k = (key == k || l.contains k) := by
  simp only [Library.contains, Table.contains, Library.register, Table.find?_insert]
  cases key == k <;> rfl

/-- So does a strategy. -/
theorem contains_setStrategy (l : Library κ) (key k : κ) (strategy : CallStrategy) :
    (l.setStrategy key strategy).contains k = (key == k || l.contains k) := by
  simp only [Library.contains, Table.contains, Library.setStrategy, Table.find?_insert]
  cases key == k <;> rfl

end

/-- An overload of a key after a registration is the new one or was there before. -/
theorem mem_withOverload {p : Overload} {overloads : List Overload}
    (h : p ∈ withOverload o overloads) : p = o ∨ p ∈ overloads := by
  induction overloads with
  | nil => exact .inl (List.mem_singleton.1 h)
  | cons q rest ih =>
    rw [withOverload] at h
    split at h
    · exact (List.mem_cons.1 h).imp_right (List.mem_cons_of_mem _)
    · rcases List.mem_cons.1 h with rfl | h
      · exact .inr List.mem_cons_self
      · exact (ih h).imp_right (List.mem_cons_of_mem _)

/-! ## Choosing an overload -/

/-- No two overloads have the same parameters. -/
def Distinct (overloads : List Overload) : Prop :=
  overloads.Pairwise fun o p => ¬ (o.signature.params == p.signature.params) = true

/-- An overload takes the place of the one with its parameters, so they stay distinct. -/
theorem Distinct.withOverload {overloads : List Overload} (h : Distinct overloads)
    (o : Overload) : Distinct (withOverload o overloads) := by
  induction overloads with
  | nil => exact List.pairwise_singleton _ o
  | cons p rest ih =>
    obtain ⟨hp, hrest⟩ := List.pairwise_cons.1 h
    rw [Library.withOverload]
    split
    · rename_i hpo
      exact List.pairwise_cons.2 ⟨fun q hq hoq => hp q hq (BEq.trans hpo hoq), hrest⟩
    · rename_i hpo
      -- what comes after `p` is the new overload, or was after it before
      refine List.pairwise_cons.2 ⟨fun q hq => ?_, ih hrest⟩
      rcases mem_withOverload hq with rfl | hq
      · exact hpo
      · exact hp q hq

/-- **The overloads of a key have distinct parameters,** however they came there. -/
theorem Made.distinct [LawfulBEq κ] (h : l.Made) (key : κ) : Distinct (l.overloads key) := by
  induction h with
  | empty => exact List.Pairwise.nil
  | register _ k signature native ih =>
    rw [overloads_register]
    split
    · exact ih.withOverload _
    · exact ih
  | setStrategy _ k strategy ih =>
    rw [overloads_setStrategy]
    exact ih

/-- What is chosen is the first overload whose parameters are the formats. -/
theorem select_eq_ok_iff :
    l.select key formats = .ok o ↔
      (l.overloads key).find? (fun o => o.signature.accepts formats) = some o := by
  unfold select overloads entry
  cases l.entries.find? key with
  | none => simp
  | some e =>
    simp only [Option.getD_some]
    cases e.overloads.find? fun o => o.signature.accepts formats with
    | none => by_cases h : e.overloads.any fun o => o.signature.arity == formats.length <;> simp [h]
    | some p => simp

theorem mem_of_select (h : l.select key formats = .ok o) :
    o ∈ l.overloads key ∧ (o.signature.params == formats) = true := by
  have hfind := select_eq_ok_iff.1 h
  exact ⟨List.mem_of_find?_eq_some hfind, by simpa [Signature.accepts] using List.find?_some hfind⟩

/-- **Any overload that takes the formats is the one that is chosen.** -/
theorem Made.select_eq_ok [LawfulBEq κ] (h : l.Made) (ho : o ∈ l.overloads key)
    (hp : (o.signature.params == formats) = true) : l.select key formats = .ok o := by
  rw [select_eq_ok_iff]
  have hdistinct := h.distinct key
  generalize l.overloads key = overloads at ho hdistinct ⊢
  induction overloads with
  | nil => cases ho
  | cons p rest ih =>
    obtain ⟨hhead, hrest⟩ := List.pairwise_cons.1 hdistinct
    rcases List.mem_cons.1 ho with rfl | ho
    · exact List.find?_cons_of_pos hp
    · -- the first one does not take the formats, or it would have the same parameters
      rw [List.find?_cons_of_neg, ih ho hrest]
      exact fun hpf => hhead o ho (BEq.trans hpf (BEq.symm hp))

/-- **A call has the format of the overload whose parameters are the formats of
its arguments.** -/
theorem resultFormat_eq_ok_iff [LawfulBEq κ] (h : l.Made) :
    l.resultFormat key formats = .ok format ↔ l.Gives key formats format := by
  unfold resultFormat
  constructor
  · intro hr
    cases hs : l.select key formats with
    | error e =>
      rw [hs] at hr
      cases hr
    | ok o =>
      rw [hs] at hr
      cases hr
      obtain ⟨ho, hp⟩ := mem_of_select hs
      exact ⟨o, ho, hp, rfl⟩
  · rintro ⟨o, ho, hp, rfl⟩
    rw [h.select_eq_ok ho hp]
    rfl

/-- A key with an overload is in the library. -/
theorem contains_of_mem_overloads (h : o ∈ l.overloads key) : l.contains key = true := by
  unfold overloads entry at h
  unfold contains Table.contains
  cases hf : l.entries.find? key with
  | none =>
    rw [hf] at h
    cases h
  | some e => rfl

/-- A key whose calls do not evaluate all arguments is in the library. -/
theorem contains_of_strategy_ne (h : l.strategy key ≠ .eager) : l.contains key = true := by
  unfold strategy entry at h
  unfold contains Table.contains
  cases hf : l.entries.find? key with
  | none =>
    rw [hf] at h
    exact absurd rfl h
  | some e => rfl

/-! ## Choosing none -/

/-- The keys that are not in the library are the ones that are unknown. -/
theorem select_eq_unknown_iff :
    l.select key formats = .error .unknown ↔ l.contains key = false := by
  unfold select contains Table.contains
  cases l.entries.find? key with
  | none => exact iff_of_true rfl rfl
  | some e =>
    refine iff_of_false (fun h => ?_) nofun
    dsimp only at h
    split at h
    · cases h
    · split at h <;> cases h

theorem mem_arities {n : Nat} :
    n ∈ l.arities key ↔ ∃ o ∈ l.overloads key, o.signature.arity = n := by
  rw [arities, mem_ascending, List.mem_map]

theorem any_arity_iff {n : Nat} :
    ((l.overloads key).any fun o => o.signature.arity == n) = true ↔ n ∈ l.arities key := by
  rw [mem_arities, List.any_eq_true]
  simp only [beq_iff_eq]

/-- **What no overload is chosen for:** a number of arguments that none has, or else formats
that none has. -/
theorem select_of_contains (hc : l.contains key = true)
    (hnone : ∀ o ∈ l.overloads key, ¬(o.signature.params == formats) = true) :
    l.select key formats = .error (if formats.length ∈ l.arities key
      then .noMatchingOverload formats else .wrongArgCount (l.arities key) formats.length) := by
  have hcount : ((l.overloads key).any fun o => o.signature.arity == formats.length) = true ↔
      formats.length ∈ l.arities key := any_arity_iff
  have hfind : (l.overloads key).find? (fun o => o.signature.accepts formats) = none :=
    List.find?_eq_none.2 hnone
  unfold contains Table.contains at hc
  unfold select
  cases hentry : l.entries.find? key with
  | none =>
    rw [hentry] at hc
    cases hc
  | some e =>
    have he : l.overloads key = e.overloads := by rw [overloads, entry, hentry, Option.getD_some]
    rw [he] at hcount hfind
    dsimp only
    rw [hfind]
    dsimp only
    by_cases hmem : formats.length ∈ l.arities key
    · rw [if_pos hmem, if_pos (hcount.2 hmem)]
    · rw [if_neg hmem, if_neg fun h => hmem (hcount.1 h)]

theorem arity_of_params_beq (hp : (o.signature.params == formats) = true) :
    o.signature.arity = formats.length := by
  have := congrArg List.length (Format.beq_list_iff.1 hp)
  rwa [List.length_map, List.length_map] at this

/-- **How a choice ends**: the key is unknown, or an overload has the formats as its
parameters, or the key is there and none of its overloads has them. -/
theorem select_cases (l : Library κ) (key : κ) (formats : List Format) :
    l.contains key = false ∧ l.select key formats = .error .unknown ∨
      (∃ o ∈ l.overloads key, (o.signature.params == formats) = true ∧
        l.select key formats = .ok o) ∨
      (l.contains key = true ∧ ∀ o ∈ l.overloads key, ¬(o.signature.params == formats) = true) ∧
        l.select key formats = .error (if formats.length ∈ l.arities key
          then .noMatchingOverload formats else .wrongArgCount (l.arities key) formats.length) := by
  cases hc : l.contains key with
  | false => exact .inl ⟨rfl, select_eq_unknown_iff.2 hc⟩
  | true =>
    cases hfind : (l.overloads key).find? fun o => o.signature.accepts formats with
    | some o =>
      have hs := select_eq_ok_iff.2 hfind
      obtain ⟨ho, hp⟩ := mem_of_select hs
      exact .inr (.inl ⟨o, ho, hp, hs⟩)
    | none =>
      have hnone := List.find?_eq_none.1 hfind
      exact .inr (.inr ⟨⟨rfl, hnone⟩, select_of_contains hc hnone⟩)

/-- **The number of arguments is wrong for a key that is there,** when no overload has it. -/
theorem select_eq_wrongArgCount_iff {expected : List Nat} {found : Nat} :
    l.select key formats = .error (.wrongArgCount expected found) ↔
      l.contains key = true ∧ formats.length ∉ l.arities key ∧
        expected = l.arities key ∧ found = formats.length := by
  rcases select_cases l key formats with ⟨hc, hs⟩ | ⟨o, ho, hp, hs⟩ | ⟨⟨hc, -⟩, hs⟩
  · rw [hs, hc]
    exact iff_of_false nofun fun h => Bool.false_ne_true h.1
  · rw [hs]
    refine iff_of_false nofun fun h => h.2.1 (mem_arities.2 ⟨o, ho, ?_⟩)
    exact arity_of_params_beq hp
  · rw [hs]
    by_cases hcount : formats.length ∈ l.arities key
    · rw [if_pos hcount]
      exact iff_of_false nofun fun h => h.2.1 hcount
    · rw [if_neg hcount, Except.error.injEq, CallError.wrongArgCount.injEq, eq_comm,
        eq_comm (b := found)]
      exact ⟨fun h => ⟨hc, hcount, h⟩, fun h => h.2.2⟩

/-- **The formats are wrong,** when only the number of the arguments is right. -/
theorem select_eq_noMatchingOverload_iff {found : List Format} :
    l.select key formats = .error (.noMatchingOverload found) ↔
      formats.length ∈ l.arities key ∧
        (∀ o ∈ l.overloads key, ¬(o.signature.params == formats) = true) ∧ found = formats := by
  rcases select_cases l key formats with ⟨hc, hs⟩ | ⟨o, ho, hp, hs⟩ | ⟨⟨-, hnone⟩, hs⟩
  · rw [hs]
    refine iff_of_false nofun fun h => ?_
    obtain ⟨o, ho, -⟩ := mem_arities.1 h.1
    rw [contains_of_mem_overloads ho] at hc
    cases hc
  · rw [hs]
    exact iff_of_false nofun fun h => h.2.1 o ho hp
  · rw [hs]
    by_cases hcount : formats.length ∈ l.arities key
    · rw [if_pos hcount, Except.error.injEq, CallError.noMatchingOverload.injEq, eq_comm]
      exact ⟨fun h => ⟨hcount, hnone, h⟩, fun h => h.2.2⟩
    · rw [if_neg hcount]
      exact iff_of_false nofun fun h => hcount h.1

/-- Nothing has been tried yet that could fail. -/
theorem select_ne_failed (e : LibraryError) : l.select key formats ≠ .error (.failed e) := by
  rcases select_cases l key formats with ⟨-, hs⟩ | ⟨o, -, -, hs⟩ | ⟨-, hs⟩
  · rw [hs]
    nofun
  · rw [hs]
    nofun
  · rw [hs]
    split <;> nofun

/-! ## What is expected of arguments -/

/-- Formats that are as expected wherever something is expected. -/
def Respects (slots : List (Option Format)) (formats : List Format) : Prop :=
  List.Forall₂ (fun slot format => ∀ e, slot = some e → (e == format) = true) slots formats

/-- One more list of parameters heard leaves less to respect. -/
theorem Respects.agree {slots : List (Option Format)} (h : Respects slots formats)
    {params : List Format} (hlen : params.length = formats.length) :
    Respects (agree slots params) formats := by
  induction h generalizing params with
  | nil => exact .nil
  | @cons slot format slots formats hslot _ ih =>
    cases params with
    | nil => cases hlen
    | cons param params =>
      refine .cons (fun e he => ?_) (ih (Nat.succ.inj hlen))
      dsimp only at he
      split at he
      · exact hslot e he
      · cases he

/-- The parameters that were heard last are respected. -/
theorem respects_agree_self {slots : List (Option Format)} {params : List Format}
    (hlen : slots.length = params.length) : Respects (agree slots params) params := by
  induction slots generalizing params with
  | nil =>
    cases params with
    | nil => exact .nil
    | cons param params => cases hlen
  | cons slot slots ih =>
    cases params with
    | nil => cases hlen
    | cons param params =>
      refine .cons (fun e he => ?_) (ih (Nat.succ.inj hlen))
      dsimp only at he
      split at he
      · rename_i hslot
        rw [he] at hslot
        simpa using hslot
      · cases he

theorem respects_map_some (params : List Format) : Respects (params.map some) params := by
  induction params with
  | nil => exact .nil
  | cons param params ih =>
    refine .cons (fun e he => ?_) ih
    cases he
    exact BEq.rfl

theorem Respects.congr {slots : List (Option Format)} {formats' : List Format}
    (h : Respects slots formats) (hf : (formats == formats') = true) :
    Respects slots formats' := by
  induction h generalizing formats' with
  | nil =>
    cases formats' with
    | nil => exact .nil
    | cons f fs => cases hf
  | @cons slot format slots formats hslot _ ih =>
    cases formats' with
    | nil => cases hf
    | cons f fs =>
      rw [List.cons_beq_cons, Bool.and_eq_true] at hf
      exact .cons (fun e he => BEq.trans (hslot e he) hf.1) (ih hf.2)

/-- Overloads heard of one after another, each with as many parameters. -/
def consensus (overloads : List Overload) (slots : List (Option Format)) :
    List (Option Format) :=
  overloads.foldl (fun slots o => Formulary.agree slots o.signature.params) slots

/-- What is respected stays so, however many overloads are heard. -/
theorem Respects.consensus {overloads : List Overload} {slots : List (Option Format)}
    (h : Respects slots formats) (harity : ∀ o ∈ overloads, o.signature.arity = formats.length) :
    Respects (consensus overloads slots) formats := by
  induction overloads generalizing slots with
  | nil => exact h
  | cons o rest ih =>
    exact ih (h.agree (harity o List.mem_cons_self))
      fun p hp => harity p (List.mem_cons_of_mem _ hp)

/-- The parameters of each overload that was heard are respected. -/
theorem respects_consensus_of_mem {arity : Nat} {overloads : List Overload}
    (harity : ∀ o ∈ overloads, o.signature.arity = arity) {slots : List (Option Format)}
    (hlen : slots.length = arity) (ho : o ∈ overloads) :
    Respects (consensus overloads slots) o.signature.params := by
  induction overloads generalizing slots with
  | nil => cases ho
  | cons p rest ih =>
    have hp : p.signature.params.length = arity := harity p List.mem_cons_self
    have hrest (q : Overload) (hq : q ∈ rest) : q.signature.arity = arity :=
      harity q (List.mem_cons_of_mem _ hq)
    rcases List.mem_cons.1 ho with rfl | ho
    · exact (respects_agree_self (by omega)).consensus fun q hq => (hrest q hq).trans hp.symm
    · exact ih hrest (by simp [Formulary.agree, hlen, hp]) ho

/-- **What is expected turns no overload away**: formats that an overload takes are
as expected. -/
theorem respects_of_expectedFormats {slots : List (Option Format)}
    (h : l.expectedFormats key formats.length = some slots) (ho : o ∈ l.overloads key)
    (hp : (o.signature.params == formats) = true) : Respects slots formats := by
  have hlen : o.signature.arity = formats.length := arity_of_params_beq hp
  have hmem : o ∈ (l.overloads key).filter fun o => o.signature.arity == formats.length :=
    List.mem_filter.2 ⟨ho, by simpa using hlen⟩
  refine Respects.congr ?_ hp
  unfold expectedFormats at h
  split at h
  · cases h
  · next first rest hf =>
    have harity (p : Overload) (hpm : p ∈ first :: rest) : p.signature.arity = formats.length := by
      rw [← hf] at hpm
      simpa using (List.mem_filter.1 hpm).2
    have hrest (p : Overload) (hpm : p ∈ rest) : p.signature.arity = formats.length :=
      harity p (List.mem_cons_of_mem _ hpm)
    have hfirst : first.signature.arity = formats.length := harity first List.mem_cons_self
    cases h
    rw [hf] at hmem
    -- the overload is the one that is heard first, or one of those that are heard later
    rcases List.mem_cons.1 hmem with rfl | hmem
    · exact (respects_map_some _).consensus fun p hpm => (hrest p hpm).trans hlen.symm
    · exact respects_consensus_of_mem hrest (by rwa [List.length_map]) hmem

/-- Where an overload has so many parameters, something is said of each position. -/
theorem exists_expectedFormats {arity : Nat} (ho : o ∈ l.overloads key)
    (harity : o.signature.arity = arity) : ∃ slots, l.expectedFormats key arity = some slots := by
  have hmem : o ∈ (l.overloads key).filter fun o => o.signature.arity == arity :=
    List.mem_filter.2 ⟨ho, by simpa using harity⟩
  unfold expectedFormats
  split
  · next hf =>
    rw [hf] at hmem
    cases hmem
  · exact ⟨_, rfl⟩

/-- Nothing is said where no overload has so many parameters. -/
theorem expectedFormats_eq_none_iff {arity : Nat} : l.expectedFormats key arity = none ↔
    ((l.overloads key).any fun o => o.signature.arity == arity) = false := by
  rw [List.any_eq_false]
  constructor
  · intro h o ho harity
    obtain ⟨slots, hslots⟩ := exists_expectedFormats ho (eq_of_beq harity)
    rw [h] at hslots
    cases hslots
  · intro h
    rw [expectedFormats, List.filter_eq_nil_iff.2 h]

/-- Where an overload has so many parameters, none is chosen only because of the formats. -/
theorem eq_of_select_eq_error {e : CallError} (h : l.select key formats = .error e)
    (harity : ((l.overloads key).any fun o => o.signature.arity == formats.length) = true) :
    e = .noMatchingOverload formats := by
  have hcount : formats.length ∈ l.arities key := any_arity_iff.1 harity
  rcases select_cases l key formats with ⟨hc, -⟩ | ⟨o, -, -, hs⟩ | ⟨-, hs⟩
  · obtain ⟨o, ho, -⟩ := mem_arities.1 hcount
    rw [contains_of_mem_overloads ho] at hc
    cases hc
  · rw [hs] at h
    cases h
  · rw [hs, if_pos hcount] at h
    exact (Except.error.inj h).symm

end Library

end Formulary
