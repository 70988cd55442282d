/-!
# Tables — one value per key

A table holds at most one value under each key, in the order in which the
keys were first written. Keys are compared with `==`, so a table may be
keyed by a type whose equality looks at part of a value only. The laws say
what a look-up finds after a write (`find?_insert`) and after an erasure
(`find?_erase`).
-/

namespace Formulary

/-- Values under keys, at most one per key. -/
structure Table (κ : Type) (β : Type) where
  /-- The entries, oldest key first. -/
  entries : List (κ × β) := []

namespace Table

variable {κ β : Type} [BEq κ]

/-- The value under a key. -/
def find? (t : Table κ β) (k : κ) : Option β :=
  (t.entries.find? fun e => e.1 == k).map Prod.snd

def contains (t : Table κ β) (k : κ) : Bool :=
  (t.find? k).isSome

/-- The entries after a write: a present key keeps its place, a new one goes
to the end. -/
def write (k : κ) (v : β) : List (κ × β) → List (κ × β)
  | [] => [(k, v)]
  | e :: rest => if e.1 == k then (e.1, v) :: rest else e :: write k v rest

/-- Puts a value under a key, in place of the one there. -/
def insert (t : Table κ β) (k : κ) (v : β) : Table κ β :=
  ⟨write k v t.entries⟩

/-- Removes a key. -/
def erase (t : Table κ β) (k : κ) : Table κ β :=
  ⟨t.entries.filter fun e => !(e.1 == k)⟩

omit [BEq κ] in
def size (t : Table κ β) : Nat :=
  t.entries.length

omit [BEq κ] in
/-- The keys, oldest first. -/
def keys (t : Table κ β) : List κ :=
  t.entries.map Prod.fst

omit [BEq κ] in
/-- The values, in the order of their keys. -/
def values (t : Table κ β) : List β :=
  t.entries.map Prod.snd

/-! ## What a look-up finds -/

@[simp] theorem find?_empty (k : κ) : (⟨[]⟩ : Table κ β).find? k = none := rfl

theorem find?_cons (e : κ × β) (rest : List (κ × β)) (k : κ) :
    (⟨e :: rest⟩ : Table κ β).find? k =
      if e.1 == k then some e.2 else (⟨rest⟩ : Table κ β).find? k := by
  unfold find?
  rw [List.find?_cons]
  cases e.1 == k <;> rfl

/-- What is found is an entry. -/
theorem mem_of_find? {t : Table κ β} {k : κ} {v : β} (h : t.find? k = some v) :
    ∃ e ∈ t.entries, (e.1 == k) = true ∧ e.2 = v := by
  obtain ⟨e, he, hv⟩ := Option.map_eq_some_iff.1 h
  exact ⟨e, List.mem_of_find?_eq_some he, by simpa using List.find?_some he, hv⟩

/-- An entry after a write was there before or has been written. -/
theorem mem_insert [ReflBEq κ] {t : Table κ β} {k : κ} {v : β} {e : κ × β}
    (h : e ∈ (t.insert k v).entries) : e ∈ t.entries ∨ (e.1 == k) = true ∧ e.2 = v := by
  obtain ⟨entries⟩ := t
  simp only [insert] at h ⊢
  induction entries with
  | nil => simp_all [write]
  | cons d rest ih =>
    simp only [write] at h
    split at h
    · rename_i hk
      rcases List.mem_cons.1 h with rfl | h
      · exact .inr ⟨hk, rfl⟩
      · exact .inl (List.mem_cons_of_mem _ h)
    · rcases List.mem_cons.1 h with rfl | h
      · exact .inl List.mem_cons_self
      · exact (ih h).imp_left (List.mem_cons_of_mem _)

/-- A table with other values finds the other value. -/
theorem find?_map {γ : Type} (t : Table κ β) (f : β → γ) (k : κ) :
    (⟨t.entries.map fun e => (e.1, f e.2)⟩ : Table κ γ).find? k = (t.find? k).map f := by
  unfold find?
  rw [List.find?_map, Option.map_map, Option.map_map]
  rfl

/-- A value whose entries are kept is still found. -/
theorem find?_filter {t : Table κ β} {k : κ} {v : β} {p : κ × β → Bool}
    (h : t.find? k = some v) (hp : ∀ l, p (l, v) = true) :
    (⟨t.entries.filter p⟩ : Table κ β).find? k = some v := by
  obtain ⟨entries⟩ := t
  induction entries with
  | nil => cases h
  | cons e rest ih =>
    obtain ⟨l, u⟩ := e
    rw [find?_cons] at h
    rw [List.filter_cons]
    by_cases hl : (l == k) = true
    · rw [if_pos hl, Option.some.injEq] at h
      have hu : u = v := h
      rw [hu, if_pos (hp l), find?_cons, if_pos hl]
    · rw [if_neg hl] at h
      split
      · rw [find?_cons, if_neg hl]
        exact ih h
      · exact ih h

/-- To write what is found changes nothing. -/
theorem insert_of_find? {t : Table κ β} {k : κ} {v : β} (h : t.find? k = some v) :
    t.insert k v = t := by
  obtain ⟨entries⟩ := t
  refine congrArg Table.mk ?_
  induction entries with
  | nil => cases h
  | cons e rest ih =>
    rw [find?_cons] at h
    rw [write]
    split
    · rename_i hk
      rw [if_pos hk, Option.some.injEq] at h
      rw [← h]
    · rename_i hk
      rw [if_neg hk] at h
      rw [ih h]

/-- **A write is read back under its key and leaves every other key alone.** -/
theorem find?_insert [EquivBEq κ] (t : Table κ β) (k l : κ) (v : β) :
    (t.insert k v).find? l = if k == l then some v else t.find? l := by
  obtain ⟨entries⟩ := t
  unfold insert
  induction entries with
  | nil => simp only [write, find?_cons, find?_empty]
  | cons e rest ih =>
    simp only [write]
    cases hek : e.1 == k with
    | true =>
      have hl : (e.1 == l) = (k == l) := BEq.congr_left hek
      simp only [if_true, find?_cons, hl]
      split <;> rfl
    | false =>
      simp only [Bool.false_eq_true, if_false, find?_cons, ih]
      cases hel : e.1 == l with
      | true =>
        have hkl : (k == l) = false := by
          cases h : k == l with
          | false => rfl
          | true => rw [← hek, BEq.trans hel (BEq.symm h)]
        simp [hkl]
      | false => simp

/-- **An erased key is absent and every other key stays.** -/
theorem find?_erase [EquivBEq κ] (t : Table κ β) (k l : κ) :
    (t.erase k).find? l = if k == l then none else t.find? l := by
  obtain ⟨entries⟩ := t
  unfold erase
  induction entries with
  | nil => simp
  | cons e rest ih =>
    simp only at ih ⊢
    rw [List.filter_cons]
    cases hek : e.1 == k with
    | true =>
      have hl : (e.1 == l) = (k == l) := BEq.congr_left hek
      simp only [Bool.not_true, Bool.false_eq_true, if_false, find?_cons, hl, ih]
      split <;> rfl
    | false =>
      simp only [Bool.not_false, if_true, find?_cons, ih]
      cases hel : e.1 == l with
      | true =>
        have hkl : (k == l) = false := by
          cases h : k == l with
          | false => rfl
          | true => rw [← hek, BEq.trans hel (BEq.symm h)]
        simp [hkl]
      | false => simp

end Table

end Formulary
