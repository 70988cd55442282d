import Formulary.Table
/-!
# The keys of a table

A write under a key that is there leaves the keys as they are, and a new key goes to the end
(`keys_insert`). So no key is there twice. The keys are those under which something is found
(`mem_keys_iff`).
-/

namespace Formulary

namespace Table

variable {κ β : Type} [BEq κ] {t : Table κ β} {k : κ} {v : β}

theorem contains_cons (e : κ × β) (rest : List (κ × β)) (k : κ) :
    (⟨e :: rest⟩ : Table κ β).contains k = (e.1 == k || (⟨rest⟩ : Table κ β).contains k) := by
  rw [contains, find?_cons]
  cases e.1 == k <;> rfl

/-- **A new key goes to the end,** and the others stay. -/
theorem keys_insert : (t.insert k v).keys = if t.contains k then t.keys else t.keys ++ [k] := by
  obtain ⟨entries⟩ := t
  induction entries with
  | nil => rfl
  | cons e rest ih =>
    simp only [keys, insert, write, contains_cons] at ih ⊢
    cases e.1 == k with
    | true => rfl
    | false =>
      simp only [Bool.false_eq_true, if_false, Bool.false_or, List.map_cons, ih]
      split <;> rfl

/-- The keys are those under which something is found. -/
theorem mem_keys_iff [LawfulBEq κ] : k ∈ t.keys ↔ (t.find? k).isSome = true := by
  rw [keys, List.mem_map, find?, Option.isSome_map, List.find?_isSome]
  simp only [beq_iff_eq]

/-- No key is there twice, whatever is written. -/
theorem nodup_keys_insert [LawfulBEq κ] (h : t.keys.Nodup) : (t.insert k v).keys.Nodup := by
  rw [keys_insert]
  split
  · exact h
  · rename_i habsent
    refine List.nodup_append.2 ⟨h, List.pairwise_singleton _ k, fun a ha b hb hab => habsent ?_⟩
    rw [← List.mem_singleton.1 hb, ← hab]
    exact mem_keys_iff.1 ha

end Table

end Formulary
