import Formulary.Proofs.Answers
import Formulary.Proofs.Name.Growth
import Formulary.Proofs.Scope.Tree
import Formulary.Scope.Registry
/-!
# Scope registries, as they grow

A registry comes about by asking it for scopes, which it grants or refuses, over an interner
that others use too (`Reached`). Three things are kept side by side in it, and they fit
together at any time (`Consistent`): the index has the path of each scope at the place of that
scope, and nothing else, the tree is one that grew scope by scope, and each path is spelled as
the names say. So a path leads to its scope, and to nothing if there is none
(`Consistent.find?_eq_some_iff`), and a tree without an index answers in the same way
(`Consistent.tree_insert_eq`).

A request that is refused leaves all three as they were (`insert_of_error`).
-/

namespace Formulary

/-- The chain of a scope ends at a scope with no scope around it. -/
theorem LegalScope.exists_root (s : LegalScope) :
    ∃ inner root, s.ancestors = inner ++ [root] ∧ root.parent? = none := by
  obtain ⟨link, enclosing⟩ := s
  induction enclosing generalizing link with
  | nil => exact ⟨[], ⟨link, []⟩, rfl, rfl⟩
  | cons next rest ih =>
    obtain ⟨inner, root, hchain, hroot⟩ := ih next
    exact ⟨⟨link, next :: rest⟩ :: inner, root, congrArg (List.cons _) hchain, hroot⟩

/-- What is at a place after one more member: what was there, or the new one at the end. -/
theorem getElem?_concat_eq_some_iff {α : Type} {l : List α} {a b : α} {k : Nat} :
    (l ++ [a])[k]? = some b ↔ l[k]? = some b ∨ k = l.length ∧ a = b := by
  rw [getElem?_concat]
  split
  · rename_i hlast
    simp [hlast]
  · rename_i hbefore
    simp [hbefore]

namespace ScopeTree

variable {t : ScopeTree} {s a : LegalScope}

/-- The chain of a scope of a tree stays in the tree. -/
theorem WellFormed.mem_of_mem_ancestors (h : t.WellFormed) (hs : s ∈ t.scopes)
    (ha : a ∈ s.ancestors) : a ∈ t.scopes := by
  obtain ⟨link, enclosing⟩ := s
  induction enclosing generalizing link with
  | nil =>
    rw [List.mem_singleton.1 ha]
    exact hs
  | cons next rest ih =>
    rcases List.mem_cons.1 ha with rfl | ha
    · exact hs
    · exact ih next (h.closed _ hs _ rfl) ha

/-- The path of a scope of a given name, inside another scope or on its own. -/
def pathIn : Option LegalScope → String → String
  | none, name => name
  | some parent, name => childPath parent name

/-- The links around a scope inside another, or on its own. -/
def linksIn : Option LegalScope → List ScopeLink
  | none => []
  | some parent => parent.link :: parent.enclosing

theorem parent?_of_linksIn (link : ScopeLink) (parent : Option LegalScope) :
    (⟨link, linksIn parent⟩ : LegalScope).parent? = parent := by
  cases parent <;> rfl

/-- A tree refuses a path that it has. -/
theorem insert_eq_duplicateScope_iff {names : Interner} {name path found : String}
    {enclosing : List ScopeLink} :
    t.insert names name path enclosing = .error (.duplicateScope found) ↔
      found = path ∧ (t.find? path).isSome = true := by
  unfold insert
  split
  · rename_i htaken
    simp only [Except.error.injEq, ConfigError.duplicateScope.injEq, htaken, and_true, eq_comm]
  · rename_i hfree
    refine iff_of_false (fun h => ?_) fun h => hfree h.2
    split at h
    · cases h
    · split at h
      · rename_i e _
        cases e
        cases h
      · cases h

end ScopeTree

namespace ScopeRegistry

/-- The registries that come about by asking for scopes, whether these are granted or not. A
parent is a scope of the registry. The interner may grow at any time. -/
inductive Reached : ScopeRegistry → Prop
  | start (names : Interner) : Reached { names }
  | root {r : ScopeRegistry} (h : Reached r) (name : String) : Reached (r.addRoot name).2
  | child {r : ScopeRegistry} (h : Reached r) {parent : LegalScope}
      (hp : parent ∈ r.tree.scopes) (name : String) : Reached (r.addChild parent name).2
  | grow {r : ScopeRegistry} (h : Reached r) {names : Interner} (hg : r.names.GrowsTo names) :
      Reached { r with names }

/-- How the tree, the index and the names of a registry fit together. -/
structure Consistent (r : ScopeRegistry) : Prop where
  /-- The scopes were added one by one. -/
  grown : r.tree.Grown
  /-- The index has the path of each scope, at its place, and no other path. -/
  indexed : ∀ path k, r.index.find? path = some k ↔
    ∃ s, r.tree.scopes[k]? = some s ∧ s.path = path
  /-- A path is the text of the name, behind that of the scope around. -/
  spelled : ∀ s ∈ r.tree.scopes, ∃ text, r.names.get? text = some s.name ∧
    s.path = ScopeTree.pathIn s.parent? text

variable {r : ScopeRegistry} {s s' : LegalScope} {name path : String}
variable {enclosing : List ScopeLink} {e : ConfigError}

/-! ## What a request does -/

/-- **What a request does**: it is refused and changes nothing, or the path was free, and the
scope is put last, with the next number, and into the index. -/
theorem insert_cases (r : ScopeRegistry) (name path : String) (enclosing : List ScopeLink) :
    (∃ e, r.insert name path enclosing = (.error e, r)) ∨
      ∃ s names, (r.index.find? path = none ∧ r.tree.size < ScopeTree.capacity ∧
          r.names.tryIntern name = .ok (s.name, names)) ∧
        s = ⟨⟨r.tree.size, s.name, path⟩, enclosing⟩ ∧
        r.insert name path enclosing =
          (.ok s, ⟨names, ⟨r.tree.scopes ++ [s]⟩, r.index.insert path r.tree.size⟩) := by
  unfold insert
  split
  · exact .inl ⟨_, rfl⟩
  · rename_i hfree
    split
    · exact .inl ⟨_, rfl⟩
    · rename_i hroom
      split
      · exact .inl ⟨_, rfl⟩
      · rename_i interned names hintern
        have hnone : r.index.find? path = none := by simpa [Table.contains] using hfree
        exact .inr ⟨⟨⟨r.tree.size, interned, path⟩, enclosing⟩, names,
          ⟨hnone, Nat.lt_of_not_le hroom, hintern⟩, rfl, rfl⟩

/-- **A request that is refused changes nothing,** for whatever reason. -/
theorem insert_of_error (h : (r.insert name path enclosing).1 = .error e) :
    (r.insert name path enclosing).2 = r := by
  rcases insert_cases r name path enclosing with ⟨e', hrefused⟩ | ⟨s, names, -, -, hgranted⟩
  · rw [hrefused]
  · rw [hgranted] at h
    cases h

/-! ## Names, places and paths -/

theorem consistent_start (names : Interner) : Consistent { names } where
  grown := .empty
  indexed path k := iff_of_false nofun (by simp)
  spelled s hs := absurd hs List.not_mem_nil

/-- Names that are added by others spell what was there before. -/
theorem Consistent.grow (h : r.Consistent) {names : Interner} (hg : r.names.GrowsTo names) :
    Consistent { r with names } where
  grown := h.grown
  indexed := h.indexed
  spelled s hs := by
    obtain ⟨text, htext, hpath⟩ := h.spelled s hs
    exact ⟨text, hg.get?_eq_some htext, hpath⟩

/-- The text of the name of a scope is what its path ends with. -/
theorem Consistent.path_eq (h : r.Consistent) (hs : s ∈ r.tree.scopes) :
    s.path = ScopeTree.pathIn s.parent? (r.names.lookup s.name) := by
  obtain ⟨text, htext, hpath⟩ := h.spelled s hs
  rw [Interner.lookup_of_get? htext]
  exact hpath

/-- **A path leads to the scope that has it,** and no other leads to a scope. -/
theorem Consistent.find?_eq_some_iff (h : r.Consistent) :
    r.find? path = some s ↔ s ∈ r.tree.scopes ∧ s.path = path := by
  rw [find?, Option.bind_eq_some_iff]
  constructor
  · rintro ⟨k, hk, hs⟩
    obtain ⟨s', hs', hpath⟩ := (h.indexed path k).1 hk
    rw [hs, Option.some.injEq] at hs'
    exact ⟨List.mem_of_getElem? hs, hs' ▸ hpath⟩
  · rintro ⟨hs, hpath⟩
    obtain ⟨k, hk⟩ := List.getElem?_of_mem hs
    exact ⟨k, (h.indexed path k).2 ⟨s, hk, hpath⟩, hk⟩

theorem Consistent.find?_eq_none_iff (h : r.Consistent) :
    r.find? path = none ↔ path ∉ r.tree.paths := by
  rw [Option.eq_none_iff_forall_ne_some]
  constructor
  · intro hnone hmem
    obtain ⟨s, hs, hpath⟩ := List.mem_map.1 hmem
    exact hnone s (h.find?_eq_some_iff.2 ⟨hs, hpath⟩)
  · intro hmem s hs
    obtain ⟨hs, hpath⟩ := h.find?_eq_some_iff.1 hs
    exact hmem (List.mem_map.2 ⟨s, hs, hpath⟩)

/-- **No two scopes have one path.** -/
theorem Consistent.eq_of_path_eq (h : r.Consistent) (hs : s ∈ r.tree.scopes)
    (hs' : s' ∈ r.tree.scopes) (hpath : s.path = s'.path) : s = s' := by
  have hfound := h.find?_eq_some_iff.2 ⟨hs, rfl⟩
  rw [h.find?_eq_some_iff.2 ⟨hs', hpath.symm⟩] at hfound
  exact (Option.some.inj hfound).symm

theorem Consistent.nodup_paths (h : r.Consistent) : r.tree.paths.Nodup := by
  refine List.pairwise_map.2 (List.pairwise_iff_getElem.2 fun j k hj hk hlt hpath => ?_)
  have hplace := (h.indexed _ j).2 ⟨_, List.getElem?_eq_getElem hj, rfl⟩
  rw [hpath, (h.indexed _ k).2 ⟨_, List.getElem?_eq_getElem hk, rfl⟩] at hplace
  exact Nat.ne_of_gt hlt (Option.some.inj hplace)

/-! ## A tree without an index -/

/-- Going through the scopes finds what the index finds. -/
theorem Consistent.tree_find?_eq (h : r.Consistent) (path : String) :
    r.tree.find? path = r.find? path := by
  cases hfound : r.tree.find? path with
  | some s =>
    have hs : s ∈ r.tree.scopes := List.mem_of_find?_eq_some hfound
    have hpath : s.path = path := by simpa using List.find?_some hfound
    exact (h.find?_eq_some_iff.2 ⟨hs, hpath⟩).symm
  | none =>
    refine (h.find?_eq_none_iff.2 fun hmem => ?_).symm
    obtain ⟨s, hs, hpath⟩ := List.mem_map.1 hmem
    exact absurd hpath (by simpa using List.find?_eq_none.1 hfound s hs)

theorem Consistent.contains_eq (h : r.Consistent) (path : String) :
    r.index.contains path = (r.tree.find? path).isSome := by
  rw [h.tree_find?_eq, Table.contains, find?]
  cases hplace : r.index.find? path with
  | none => rfl
  | some k =>
    obtain ⟨s, hs, -⟩ := (h.indexed path k).1 hplace
    rw [Option.bind_some, hs]
    rfl

/-- **A tree that looks through its scopes grants and refuses what the registry does.** -/
theorem Consistent.tree_insert_eq (h : r.Consistent) (name path : String)
    (enclosing : List ScopeLink) : r.tree.insert r.names name path enclosing =
      (r.insert name path enclosing).1.map fun s =>
        (s, (r.insert name path enclosing).2.tree, (r.insert name path enclosing).2.names) := by
  unfold ScopeTree.insert insert
  rw [← h.contains_eq path]
  split
  · rfl
  · split
    · rfl
    · cases r.names.tryIntern name <;> rfl

/-! ## Runs -/

/-- **A request keeps the three together.** -/
theorem Consistent.insert (h : r.Consistent) (parent : Option LegalScope)
    (hp : ∀ p, parent = some p → p ∈ r.tree.scopes) (name : String) :
    (r.insert name (ScopeTree.pathIn parent name) (ScopeTree.linksIn parent)).2.Consistent := by
  have hagree := h.tree_insert_eq name (ScopeTree.pathIn parent name) (ScopeTree.linksIn parent)
  rcases insert_cases r name (ScopeTree.pathIn parent name) (ScopeTree.linksIn parent) with
    ⟨e, hrefused⟩ | ⟨s, names, ⟨hfree, -, hintern⟩, hs, hgranted⟩
  · rw [hrefused]
    exact h
  rw [hgranted] at hagree ⊢
  have hpath : s.path = ScopeTree.pathIn parent name := by
    rw [hs]
    rfl
  have hparent : s.parent? = parent := by
    rw [hs]
    exact ScopeTree.parent?_of_linksIn _ parent
  obtain ⟨hgrows, hname⟩ := Interner.tryIntern_eq_ok hintern
  refine ⟨?_, fun path k => ?_, fun s' hs' => ?_⟩
  · cases parent with
    | none => exact .root h.grown hagree
    | some p => exact .child h.grown (hp p rfl) hagree
  · rw [Table.find?_insert]
    simp only [getElem?_concat_eq_some_iff]
    split
    · -- the new path was free, so only the new scope has it
      rename_i hsame
      have hsame : ScopeTree.pathIn parent name = path := eq_of_beq hsame
      constructor
      · intro hk
        exact ⟨s, .inr ⟨(Option.some.inj hk).symm, rfl⟩, hpath.trans hsame⟩
      · rintro ⟨s', hold | ⟨hlast, -⟩, hpath'⟩
        · rw [hsame, (h.indexed path k).2 ⟨s', hold, hpath'⟩] at hfree
          cases hfree
        · rw [hlast]
          rfl
    · rename_i hother
      rw [h.indexed]
      constructor
      · rintro ⟨s', hold, hpath'⟩
        exact ⟨s', .inl hold, hpath'⟩
      · rintro ⟨s', hold | ⟨-, rfl⟩, hpath'⟩
        · exact ⟨s', hold, hpath'⟩
        · rw [← hpath, hpath'] at hother
          exact absurd BEq.rfl hother
  · rcases List.mem_append.1 hs' with hold | hnew
    · obtain ⟨text, htext, hspelled⟩ := h.spelled s' hold
      exact ⟨text, hgrows.get?_eq_some htext, hspelled⟩
    · obtain rfl := List.mem_singleton.1 hnew
      exact ⟨name, hname, by rw [hparent, hpath]⟩

/-- **Whatever is asked of a registry, the three stay together.** -/
theorem Reached.consistent (h : r.Reached) : r.Consistent := by
  induction h with
  | start names => exact consistent_start names
  | root _ name ih => exact ih.insert none nofun name
  | @child r _ parent hp name ih =>
    refine ih.insert (some parent) (fun p hsame => ?_) name
    rw [← Option.some.inj hsame]
    exact hp
  | grow _ hg ih => exact ih.grow hg

end ScopeRegistry

namespace Sample

/-- A scope with no scope around it. -/
def plant : LegalScope := ⟨⟨0, ⟨1⟩, "plant"⟩, []⟩

/-- A scope inside it. -/
def line : LegalScope := ⟨⟨1, ⟨2⟩, "plant.line"⟩, [plant.link]⟩

/-- The registry that was asked for the two scopes, and for the inner one twice. -/
def works : ScopeRegistry :=
  (((({} : ScopeRegistry).addRoot "plant").2.addChild plant "line").2.addChild plant "line").2

theorem reached_works : works.Reached :=
  (((ScopeRegistry.Reached.start .fresh).root "plant").child List.mem_cons_self "line").child
    List.mem_cons_self "line"

end Sample

namespace ScopeRegistry

variable {r : ScopeRegistry}

/-- What is so of a scope of a registry. -/
structure Placed (r : ScopeRegistry) (s : LegalScope) : Prop where
  /-- A root has its name as its path. -/
  root : s.parent? = none → s.path = r.names.lookup s.name
  /-- Any other scope has its name behind the path of the scope around it, which was made
  before it. -/
  child : ∀ p, s.parent? = some p → s.path = p.path ++ "." ++ r.names.lookup s.name ∧
    p ∈ r.tree.scopes ∧ p.id < s.id
  /-- Outwards one comes to a root, -/
  rooted : ∃ inner root, s.ancestors = inner ++ [root] ∧ root.parent? = none
  /-- and does not leave the tree. -/
  inside : ∀ a ∈ s.ancestors, a ∈ r.tree.scopes
  length : s.ancestors.length = s.depth + 1
  /-- A scope is known by its handle, and by its path. -/
  alone : ∀ s' ∈ r.tree.scopes, ((s == s') = true ↔ s = s') ∧ (s.path = s'.path ↔ s = s')

/-- The scopes of a registry are known by their numbers and by their paths. -/
structure Known (r : ScopeRegistry) : Prop where
  /-- The number of a scope is its place. -/
  numbered : ∀ (k : Nat) (s : LegalScope), r.tree.scopes[k]? = some s → s.id = k
  unique : r.tree.paths.Nodup
  /-- A path leads to the scope that has it, -/
  found : ∀ path s, r.find? path = some s ↔ s ∈ r.tree.scopes ∧ s.path = path
  /-- and nowhere if no scope has it. -/
  missed : ∀ path, r.find? path = none ↔ path ∉ r.tree.paths
  /-- It leads there without the index as well. -/
  searched : ∀ path, r.tree.find? path = r.find? path
  placed : ∀ s ∈ r.tree.scopes, r.Placed s
  /-- A request that is refused leaves the scopes, the index and the names as they were. -/
  root_refused : ∀ name e, (r.addRoot name).1 = .error e → (r.addRoot name).2 = r
  child_refused : ∀ name parent e, (r.addChild parent name).1 = .error e →
    (r.addChild parent name).2 = r
  /-- A tree without an index refuses and grants the same. -/
  root_searched : ∀ name, r.tree.addRoot r.names name = (r.addRoot name).1.map fun s =>
    (s, (r.addRoot name).2.tree, (r.addRoot name).2.names)
  child_searched : ∀ name parent, r.tree.addChild r.names parent name =
    (r.addChild parent name).1.map fun s =>
      (s, (r.addChild parent name).2.tree, (r.addChild parent name).2.names)

/-- A scope of a registry that keeps its three parts together is placed. -/
theorem Consistent.placed (hc : r.Consistent) {s : LegalScope} (hs : s ∈ r.tree.scopes) :
    r.Placed s := by
  have ht : r.tree.WellFormed := hc.grown.wellFormed
  have hpath := hc.path_eq hs
  refine ⟨fun hroot => by rwa [hroot] at hpath, fun p hp => ?_, s.exists_root,
    fun a => ht.mem_of_mem_ancestors hs, s.length_ancestors, fun s' hs' => ⟨⟨?_, ?_⟩, ?_, ?_⟩⟩
  · rw [hp] at hpath
    exact ⟨hpath, ht.closed s hs p hp, hc.grown.id_parent_lt hs hp⟩
  · exact fun hsame => ScopeTree.eq_of_id_eq ht hs hs' (LegalScope.beq_iff.1 hsame)
  · rintro rfl
    exact BEq.rfl
  · exact hc.eq_of_path_eq hs hs'
  · rintro rfl
    rfl

/-- **A scope is known by its number, by its path, and by its handle,** whatever was asked of
the registry, granted or refused. -/
theorem Reached.known_by_number_and_path (h : r.Reached) : r.Known where
  numbered := h.consistent.grown.wellFormed.numbered
  unique := h.consistent.nodup_paths
  found _ _ := h.consistent.find?_eq_some_iff
  missed _ := h.consistent.find?_eq_none_iff
  searched := h.consistent.tree_find?_eq
  placed _ hs := h.consistent.placed hs
  root_refused _ _ := insert_of_error
  child_refused _ _ _ := insert_of_error
  root_searched name := h.consistent.tree_insert_eq name name []
  child_searched name _ := h.consistent.tree_insert_eq name _ _

/-- The line is found by its path, and an office is not. A second line is refused, and nothing
comes of the request. -/
theorem Reached.known_by_number_and_path_works :
    Sample.works.Reached ∧ Sample.works.find? "plant.line" = some Sample.line ∧
      Sample.works.find? "plant.office" = none ∧
      (Sample.works.addChild Sample.plant "line").1 = .error (.duplicateScope "plant.line") ∧
      (Sample.works.addChild Sample.plant "line").2 = Sample.works := by
  have hknown := known_by_number_and_path Sample.reached_works
  have hrefused : (Sample.works.addChild Sample.plant "line").1 =
      .error (.duplicateScope "plant.line") := rfl
  refine ⟨Sample.reached_works, ?_, ?_, hrefused, hknown.child_refused _ _ _ hrefused⟩
  · exact (hknown.found "plant.line" _).2 ⟨List.mem_cons_of_mem _ List.mem_cons_self, rfl⟩
  · exact (hknown.missed "plant.office").2 (by decide)

end ScopeRegistry

end Formulary
