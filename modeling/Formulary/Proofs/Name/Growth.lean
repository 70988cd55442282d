import Formulary.Name
/-!
# Interners, as they grow

An interner is shared by all that give names to strings, and each of them may make it grow at
any time (`GrowsTo`). What it has named it has named for good: a name stays that of its
string (`GrowsTo.get?_eq_some`), and a string that had none gets one that nobody has been
given (`GrowsTo.size_le_raw`).
-/

namespace Formulary

namespace Interner

/-- An interner after more strings were interned: it holds what it held, at the same
places, and the new strings after that. -/
def GrowsTo (t t' : Interner) : Prop := t.strings <+: t'.strings

variable {t t' t'' : Interner} {s : String} {n : Name}

theorem GrowsTo.refl (t : Interner) : t.GrowsTo t := List.prefix_refl _

theorem GrowsTo.trans (h : t.GrowsTo t') (h' : t'.GrowsTo t'') : t.GrowsTo t'' :=
  List.IsPrefix.trans h h'

theorem growsTo_intern (t : Interner) (s : String) : t.GrowsTo (t.intern s).2 := by
  rw [GrowsTo, strings_intern]
  split
  · exact List.prefix_append _ _
  · exact List.prefix_refl _

/-- A string that could be interned has its name, and nothing else has changed. -/
theorem tryIntern_eq_ok (h : t.tryIntern s = .ok (n, t')) : t.GrowsTo t' ∧ t'.get? s = some n := by
  unfold tryIntern at h
  split at h
  · cases h
  · have hpair : t.intern s = (n, t') := Except.ok.inj h
    have hgrown := t.growsTo_intern s
    have hfound := t.get?_intern s
    rw [hpair] at hgrown hfound
    exact ⟨hgrown, hfound⟩

theorem GrowsTo.size_le (h : t.GrowsTo t') : t.size ≤ t'.size := List.IsPrefix.length_le h

/-- **A name stays the name of its string.** -/
theorem GrowsTo.get?_eq_some (h : t.GrowsTo t') (hn : t.get? s = some n) : t'.get? s = some n := by
  rw [get?_eq_some_iff] at hn ⊢
  obtain ⟨more, hmore⟩ := h
  rw [← hmore, List.getElem?_append_left (List.getElem?_eq_some_iff.1 hn).1, hn]

theorem raw_lt_size_of_get? (h : t.get? s = some n) : n.raw < t.size :=
  (List.getElem?_eq_some_iff.1 ((t.get?_eq_some_iff s n).1 h)).1

/-- **A string that had no name gets one that was not given out.** -/
theorem GrowsTo.size_le_raw (h : t.GrowsTo t') (hs : t.get? s = none) (hn : t'.get? s = some n) :
    t.size ≤ n.raw := by
  rcases Nat.lt_or_ge n.raw t.size with hlt | hge
  · rw [get?_eq_some_iff] at hn
    obtain ⟨more, hmore⟩ := h
    rw [← hmore, List.getElem?_append_left hlt, ← get?_eq_some_iff, hs] at hn
    cases hn
  · exact hge

/-! ## Many strings at once -/

/-- The interner after some strings were interned. -/
def internAll (t : Interner) (labels : List String) : Interner :=
  labels.foldl (fun t label => (t.intern label).2) t

/-- The name that a string has. -/
def nameOf (t : Interner) (label : String) : Name := (t.get? label).getD default

variable {labels : List String} {label : String}

theorem internAll_append (t : Interner) (labels more : List String) :
    t.internAll (labels ++ more) = (t.internAll labels).internAll more := List.foldl_append

theorem growsTo_internAll (t : Interner) (labels : List String) :
    t.GrowsTo (t.internAll labels) := by
  induction labels generalizing t with
  | nil => exact .refl t
  | cons label labels ih => exact (t.growsTo_intern label).trans (ih _)

/-- A string that was interned has a name. -/
theorem exists_get?_internAll (h : label ∈ labels) :
    ∃ n, (t.internAll labels).get? label = some n := by
  induction labels generalizing t with
  | nil => cases h
  | cons first labels ih =>
    rcases List.mem_cons.1 h with rfl | h
    · exact ⟨_, (growsTo_internAll _ labels).get?_eq_some (t.get?_intern label)⟩
    · exact ih h

/-- To intern strings that have names changes nothing. -/
theorem internAll_of_get? (h : ∀ label ∈ labels, ∃ n, t.get? label = some n) :
    t.internAll labels = t := by
  induction labels with
  | nil => rfl
  | cons first labels ih =>
    obtain ⟨n, hn⟩ := h first List.mem_cons_self
    have hstep : t.internAll (first :: labels) = (t.intern first).2.internAll labels := rfl
    rw [hstep, intern_of_get?_eq_some hn]
    exact ih fun label hlabel => h label (List.mem_cons_of_mem _ hlabel)

/-- **Two strings have two names.** -/
theorem eq_of_nameOf_eq {a b : String} (ha : ∃ n, t.get? a = some n) (hb : ∃ n, t.get? b = some n)
    (h : t.nameOf a = t.nameOf b) : a = b := by
  obtain ⟨n, hn⟩ := ha
  obtain ⟨m, hm⟩ := hb
  rw [nameOf, nameOf, hn, hm, Option.getD_some, Option.getD_some] at h
  rw [← lookup_of_get? hn, ← lookup_of_get? hm, h]

end Interner

end Formulary
