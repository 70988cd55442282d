import Formulary.Scope
/-!
# Trees of scopes, as they grow

A tree comes about by adding scopes to it, each on its own or inside a scope
that the tree has. In such a tree a scope's number is its place
(`WellFormed.numbered`), so a scope of the tree is known by its number
(`eq_of_id_eq`) and by its path (`Grown.eq_of_path_eq`), and the scope around a
scope of the tree is in the tree too (`WellFormed.closed`). The chain of a scope
therefore never leaves its tree, and passes no scope twice, because each scope was
made after the one around it (`Grown.pairwise_ancestors`).
-/

namespace Formulary

namespace ScopeTree

/-- The trees that come about by adding scopes. -/
inductive Grown : ScopeTree → Prop
  | empty : Grown {}
  | root {t t' : ScopeTree} {names names' : Interner} {name : String} {s : LegalScope}
      (h : Grown t) (ht : t.addRoot names name = .ok (s, t', names')) : Grown t'
  | child {t t' : ScopeTree} {names names' : Interner} {parent s : LegalScope} {name : String}
      (h : Grown t) (hp : parent ∈ t.scopes)
      (ht : t.addChild names parent name = .ok (s, t', names')) : Grown t'

/-- What holds of the numbers and the chains in a tree. -/
structure WellFormed (t : ScopeTree) : Prop where
  /-- The number of a scope is its place. -/
  numbered : ∀ (k : Nat) (s : LegalScope), t.scopes[k]? = some s → s.id = k
  /-- The scope around a scope of the tree is a scope of the tree. -/
  closed : ∀ s ∈ t.scopes, ∀ p : LegalScope, s.parent? = some p → p ∈ t.scopes

variable {t t' : ScopeTree} {names names' : Interner} {s r : LegalScope}

/-- **What an addition does**: the path was free and there was room, and the
scope is put last, under the next number. -/
theorem insert_eq_ok {name path : String} {enclosing : List ScopeLink}
    (h : t.insert names name path enclosing = .ok (s, t', names')) :
    (t.find? path = none ∧ t.size < capacity ∧ names.tryIntern name = .ok (s.name, names')) ∧
      s = ⟨⟨t.size, s.name, path⟩, enclosing⟩ ∧ t'.scopes = t.scopes ++ [s] := by
  unfold insert at h
  split at h
  · cases h
  · rename_i hpath
    split at h
    · cases h
    · rename_i hroom
      split at h
      · cases h
      · rename_i interned names₁ hintern
        cases h
        refine ⟨⟨?_, by omega, hintern⟩, rfl, rfl⟩
        simpa using hpath

theorem wellFormed_empty : WellFormed {} where
  numbered := by intro k s h; simp at h
  closed := by intro s h; simp at h

/-- One more scope keeps a tree well formed, if the scope around it is there. -/
theorem WellFormed.insert {name path : String} {enclosing : List ScopeLink} (hw : t.WellFormed)
    (hp : ∀ link rest, enclosing = link :: rest → (⟨link, rest⟩ : LegalScope) ∈ t.scopes)
    (h : t.insert names name path enclosing = .ok (s, t', names')) : t'.WellFormed := by
  obtain ⟨-, hs, ht⟩ := insert_eq_ok h
  refine ⟨fun k r hk => ?_, fun r hr p hpar => ?_⟩
  · rw [ht] at hk
    rcases Nat.lt_or_ge k t.scopes.length with hlt | hge
    · rw [List.getElem?_append_left hlt] at hk
      exact hw.numbered k r hk
    · rw [List.getElem?_append_right hge] at hk
      obtain ⟨hlt, hr⟩ := List.getElem?_eq_some_iff.1 hk
      have hkt : k = t.scopes.length := by
        rw [List.length_singleton] at hlt
        omega
      have hrs : r = s := by simpa using hr.symm
      rw [hrs, hs, hkt]
      rfl
  · rw [ht] at hr ⊢
    refine List.mem_append_left _ ?_
    rcases List.mem_append.1 hr with hr | hr
    · exact hw.closed r hr p hpar
    · rw [List.mem_singleton.1 hr, hs] at hpar
      unfold LegalScope.parent? at hpar
      split at hpar
      · cases hpar
      · rename_i link rest henc
        cases hpar
        exact hp link rest henc

/-- **A tree that grew is well formed.** -/
theorem Grown.wellFormed (h : t.Grown) : t.WellFormed := by
  induction h with
  | empty => exact wellFormed_empty
  | root _ ht ih => exact ih.insert (by intro link rest h; cases h) ht
  | child _ hp ht ih =>
    refine ih.insert (fun link rest h => ?_) ht
    cases h
    exact hp

theorem WellFormed.id_lt_size (h : t.WellFormed) (hs : s ∈ t.scopes) : s.id < t.size := by
  obtain ⟨k, hk⟩ := List.getElem?_of_mem hs
  obtain ⟨hlt, -⟩ := List.getElem?_eq_some_iff.1 hk
  rw [h.numbered k s hk]
  exact hlt

/-- **The scope around a scope was made before it.** -/
theorem Grown.id_parent_lt (h : t.Grown) (hs : s ∈ t.scopes) {p : LegalScope}
    (hp : s.parent? = some p) : p.id < s.id := by
  induction h with
  | empty => simp at hs
  | root _ ht ih =>
    obtain ⟨-, hnew, hscopes⟩ := insert_eq_ok ht
    rw [hscopes, List.mem_append, List.mem_singleton] at hs
    rcases hs with hs | rfl
    · exact ih hs
    · rw [hnew] at hp
      simp [LegalScope.parent?] at hp
  | @child t _ _ _ parent _ _ hgrown hparent ht ih =>
    obtain ⟨-, hnew, hscopes⟩ := insert_eq_ok ht
    rw [hscopes, List.mem_append, List.mem_singleton] at hs
    rcases hs with hs | rfl
    · exact ih hs
    · -- the new scope has the next number, and its parent one that was given out
      rw [hnew] at hp ⊢
      have hpp : parent = p := Option.some.inj hp
      rw [← hpp]
      exact hgrown.wellFormed.id_lt_size hparent

/-- Outwards along the chain of a scope the numbers go down. -/
theorem Grown.pairwise_ancestors (h : t.Grown) (hs : s ∈ t.scopes) :
    s.ancestors.Pairwise fun inner outer => outer.id < inner.id := by
  obtain ⟨link, enclosing⟩ := s
  induction enclosing generalizing link with
  | nil => exact List.pairwise_singleton _ _
  | cons next rest ih =>
    have hp : (⟨next, rest⟩ : LegalScope) ∈ t.scopes := h.wellFormed.closed _ hs _ rfl
    have hlt : (⟨next, rest⟩ : LegalScope).id < (⟨link, next :: rest⟩ : LegalScope).id :=
      h.id_parent_lt hs rfl
    have houter := ih next hp
    refine List.Pairwise.cons (fun outer hmem => ?_) houter
    -- the chain of the parent starts at the parent, and goes down from there
    have hmem : outer ∈ (⟨next, rest⟩ : LegalScope).ancestors := hmem
    rw [LegalScope.ancestors_eq] at houter hmem
    rcases List.mem_cons.1 hmem with rfl | hmem
    · exact hlt
    · exact Nat.lt_trans ((List.pairwise_cons.1 houter).1 outer hmem) hlt

/-- **A scope of a tree is known by its number.** -/
theorem eq_of_id_eq (h : t.WellFormed) (hs : s ∈ t.scopes) (hr : r ∈ t.scopes)
    (hid : s.id = r.id) : s = r := by
  obtain ⟨j, hj⟩ := List.getElem?_of_mem hs
  obtain ⟨k, hk⟩ := List.getElem?_of_mem hr
  have hjk : j = k := by rw [← h.numbered j s hj, ← h.numbered k r hk, hid]
  rw [hjk, hk] at hj
  exact (Option.some.inj hj).symm

/-- **And by its path,** since a path that is taken is refused. -/
theorem Grown.eq_of_path_eq (h : t.Grown) (hs : s ∈ t.scopes) (hr : r ∈ t.scopes)
    (hpath : s.path = r.path) : s = r := by
  have hnext {t t' : ScopeTree} {new : LegalScope} {names names' : Interner} {name path : String}
      {enclosing : List ScopeLink}
      (ih : ∀ s ∈ t.scopes, ∀ r ∈ t.scopes, s.path = r.path → s = r)
      (ht : t.insert names name path enclosing = .ok (new, t', names')) :
      ∀ s ∈ t'.scopes, ∀ r ∈ t'.scopes, s.path = r.path → s = r := by
    obtain ⟨⟨hfree, -, -⟩, hnew, hscopes⟩ := insert_eq_ok ht
    have hother (q : LegalScope) (hq : q ∈ t.scopes) : q.path ≠ new.path := by
      intro hpath
      rw [hnew] at hpath
      exact List.find?_eq_none.1 hfree q hq (beq_iff_eq.2 hpath)
    intro s hs r hr hpath
    rw [hscopes, List.mem_append, List.mem_singleton] at hs hr
    rcases hs with hs | rfl
    · rcases hr with hr | rfl
      · exact ih s hs r hr hpath
      · exact absurd hpath (hother s hs)
    · rcases hr with hr | rfl
      · exact absurd hpath.symm (hother r hr)
      · rfl
  induction h generalizing s r with
  | empty => simp at hs
  | root _ ht ih => exact hnext (fun _ hs _ hr => ih hs hr) ht s hs r hr hpath
  | child _ _ ht ih => exact hnext (fun _ hs _ hr => ih hs hr) ht s hs r hr hpath

end ScopeTree

end Formulary
