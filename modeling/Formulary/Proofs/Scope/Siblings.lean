import Formulary.Proofs.Scope.Registry
/-!
# When a scope is already there

A request for a scope is refused as a duplicate when its path is taken. The path is a text,
with points between the names, so it does not tell by itself where the scope is. In most
registries it does: a scope of the same path is a sibling of the same name (`Sibling`). But a
name may have points of its own, and then a scope elsewhere is spelled as the new one would be
(`Clash`). It takes such a name: without points, the text before the last point is the path of
the scope around (`pathIn_inj`).
-/

namespace Formulary

/-- What is before the last separator of a text, and what is behind it, can be told apart. -/
theorem append_separator_inj {sep : Char} {a b m n : List Char} (hm : sep ∉ m) (hn : sep ∉ n)
    (h : a ++ sep :: m = b ++ sep :: n) : a = b ∧ m = n := by
  -- the longer of the two fronts would have a separator of the other text behind its own
  have key : ∀ {c x y : List Char}, sep ∉ x → sep :: x = c ++ sep :: y → c = [] ∧ x = y := by
    intro c x y hx hsame
    cases c with
    | nil => exact ⟨rfl, (List.cons.inj hsame).2⟩
    | cons head c =>
      have htail : x = c ++ sep :: y := (List.cons.inj hsame).2
      exact absurd (htail ▸ List.mem_append_right c List.mem_cons_self) hx
  rcases List.append_eq_append_iff.1 h with ⟨c, hfront, hback⟩ | ⟨c, hfront, hback⟩
  · obtain ⟨rfl, hsame⟩ := key hm hback
    exact ⟨by rw [hfront, List.append_nil], hsame⟩
  · obtain ⟨rfl, hsame⟩ := key hn hback
    exact ⟨by rw [hfront, List.append_nil], hsame.symm⟩

/-- So can what is before the first separator, and what is behind it. -/
theorem append_separator_inj_left {sep : Char} {a b m n : List Char} (ha : sep ∉ a)
    (hb : sep ∉ b) (h : a ++ sep :: m = b ++ sep :: n) : a = b ∧ m = n := by
  have hreverse := congrArg List.reverse h
  simp only [List.reverse_append, List.reverse_cons, List.append_assoc, List.singleton_append]
    at hreverse
  have ha' : sep ∉ a.reverse := fun hmem => ha (List.mem_reverse.1 hmem)
  have hb' : sep ∉ b.reverse := fun hmem => hb (List.mem_reverse.1 hmem)
  obtain ⟨hback, hfront⟩ := append_separator_inj ha' hb' hreverse
  exact ⟨List.reverse_inj.1 hfront, List.reverse_inj.1 hback⟩

namespace ScopeTree

variable {p q : LegalScope} {name other : String}

theorem toList_childPath (p : LegalScope) (name : String) :
    (childPath p name).toList = p.path.toList ++ '.' :: name.toList := by
  have htext : childPath p name = p.path ++ "." ++ name := rfl
  rw [htext, String.toList_append, String.toList_append, List.append_assoc]
  rfl

/-- **A path is that of one scope and one name,** if no name has a point. -/
theorem childPath_inj (hname : '.' ∉ name.toList) (hother : '.' ∉ other.toList)
    (h : childPath p name = childPath q other) : p.path = q.path ∧ name = other := by
  have hchars := congrArg String.toList h
  rw [toList_childPath, toList_childPath] at hchars
  obtain ⟨hpath, hsame⟩ := append_separator_inj hname hother hchars
  exact ⟨String.toList_inj.1 hpath, String.toList_inj.1 hsame⟩

/-- A tree refuses the path of a scope that it has. -/
theorem insert_eq_duplicateScope_iff_exists {t : ScopeTree} {names : Interner}
    {name path found : String} {enclosing : List ScopeLink} :
    t.insert names name path enclosing = .error (.duplicateScope found) ↔
      found = path ∧ ∃ s ∈ t.scopes, s.path = path := by
  rw [insert_eq_duplicateScope_iff, find?, List.find?_isSome]
  simp only [beq_iff_eq]

/-- The path of a scope inside another has a point. -/
theorem point_mem_childPath (p : LegalScope) (name : String) :
    '.' ∈ (childPath p name).toList := by
  rw [toList_childPath]
  exact List.mem_append_right _ List.mem_cons_self

end ScopeTree

namespace ScopeRegistry

/-- A scope called `name` inside `parent`, or with no scope around it. -/
def Sibling (r : ScopeRegistry) (parent : Option LegalScope) (name : String)
    (s : LegalScope) : Prop :=
  s ∈ r.tree.scopes ∧ s.parent? = parent ∧ r.names.lookup s.name = name

/-- A scope elsewhere that is spelled as one called `name` inside `parent` would be. -/
def Clash (r : ScopeRegistry) (parent : Option LegalScope) (name : String)
    (s : LegalScope) : Prop :=
  s ∈ r.tree.scopes ∧ s.parent? ≠ parent ∧ s.path = ScopeTree.pathIn parent name

variable {r : ScopeRegistry} {parent : Option LegalScope} {s p : LegalScope} {name path : String}

/-- Who has the path of a new scope is a sibling of its name or clashes with it. -/
theorem Consistent.path_eq_pathIn_iff (h : r.Consistent) (hs : s ∈ r.tree.scopes) :
    s.path = ScopeTree.pathIn parent name ↔ r.Sibling parent name s ∨ r.Clash parent name s := by
  constructor
  · intro hpath
    by_cases hparent : s.parent? = parent
    · refine .inl ⟨hs, hparent, ?_⟩
      have hspelled := h.path_eq hs
      rw [hpath, hparent] at hspelled
      cases parent with
      | none => exact hspelled.symm
      | some p =>
        have hchars := congrArg String.toList hspelled
        simp only [ScopeTree.pathIn, ScopeTree.toList_childPath] at hchars
        have htail := List.append_cancel_left hchars
        exact (String.toList_inj.1 (List.cons.inj htail).2).symm
    · exact .inr ⟨hs, hparent, hpath⟩
  · rintro (⟨-, hparent, hname⟩ | ⟨-, -, hpath⟩)
    · rw [h.path_eq hs, hparent, hname]
    · exact hpath

/-- **A request is refused as a duplicate for a sibling, or for a clash.** -/
theorem Consistent.insert_eq_duplicateScope_iff (h : r.Consistent)
    (parent : Option LegalScope) :
    r.tree.insert r.names name (ScopeTree.pathIn parent name) (ScopeTree.linksIn parent) =
        .error (.duplicateScope path) ↔
      path = ScopeTree.pathIn parent name ∧
        ((∃ s, r.Sibling parent name s) ∨ ∃ s, r.Clash parent name s) := by
  rw [ScopeTree.insert_eq_duplicateScope_iff_exists, ← exists_or]
  refine and_congr_right fun _ => exists_congr fun s => ⟨?_, ?_⟩
  · rintro ⟨hs, hpath⟩
    exact (h.path_eq_pathIn_iff hs).1 hpath
  · intro hwho
    have hs : s ∈ r.tree.scopes := hwho.elim And.left And.left
    exact ⟨hs, (h.path_eq_pathIn_iff hs).2 hwho⟩

/-- Where nothing clashes, it is for a sibling. -/
theorem Consistent.exists_duplicateScope_iff (h : r.Consistent) (parent : Option LegalScope)
    (hclear : ∀ s, ¬r.Clash parent name s) :
    (∃ path, r.tree.insert r.names name (ScopeTree.pathIn parent name)
        (ScopeTree.linksIn parent) = .error (.duplicateScope path)) ↔
      ∃ s, r.Sibling parent name s := by
  constructor
  · rintro ⟨path, hrefused⟩
    obtain ⟨-, hsibling | ⟨s, hs⟩⟩ := (h.insert_eq_duplicateScope_iff parent).1 hrefused
    · exact hsibling
    · exact absurd hs (hclear s)
  · intro hsibling
    exact ⟨_, (h.insert_eq_duplicateScope_iff parent).2 ⟨rfl, .inl hsibling⟩⟩

/-- A root clashes with a scope inside another, and then its name has a point. -/
theorem Clash.point_mem_of_none (h : r.Consistent) (hc : r.Clash none name s) :
    '.' ∈ name.toList := by
  obtain ⟨hs, hparent, hpath⟩ := hc
  obtain ⟨q, hq⟩ := Option.ne_none_iff_exists'.1 hparent
  have hspelled := h.path_eq hs
  rw [hpath, hq] at hspelled
  have hname : name = ScopeTree.childPath q (r.names.lookup s.name) := hspelled
  rw [hname]
  exact ScopeTree.point_mem_childPath q _

/-- **A clash is due to a point in one of the two names.** -/
theorem Clash.point_mem (h : r.Consistent) (hp : p ∈ r.tree.scopes)
    (hc : r.Clash (some p) name s) :
    '.' ∈ name.toList ∨ '.' ∈ (r.names.lookup s.name).toList := by
  obtain ⟨hs, hparent, hpath⟩ := hc
  have hspelled := h.path_eq hs
  rw [hpath] at hspelled
  refine Classical.byContradiction fun hplain => ?_
  obtain ⟨hname, hother⟩ := not_or.1 hplain
  cases hq : s.parent? with
  | none =>
    rw [hq] at hspelled
    have htext : ScopeTree.childPath p name = r.names.lookup s.name := hspelled
    exact hother (htext ▸ ScopeTree.point_mem_childPath p name)
  | some q =>
    rw [hq] at hspelled
    have hsame : p.path = q.path := (ScopeTree.childPath_inj hname hother hspelled).1
    have hq' : q ∈ r.tree.scopes := h.grown.wellFormed.closed s hs q hq
    have hpq : p = q := h.eq_of_path_eq hp hq' hsame
    exact hparent (by rw [hq, hpq])

end ScopeRegistry

namespace Sample

/-- A scope with no scope around it. -/
def museum : LegalScope := ⟨⟨0, ⟨1⟩, "museum"⟩, []⟩

/-- A second scope with no scope around it, with a point in its name. -/
def museumHall : LegalScope := ⟨⟨1, ⟨2⟩, "museum.hall"⟩, []⟩

/-- The registry of the two. -/
def twoRoots : ScopeRegistry :=
  ((({} : ScopeRegistry).addRoot "museum").2.addRoot "museum.hall").2

theorem scopes_works : works.tree.scopes = [plant, line] := rfl

theorem scopes_twoRoots : twoRoots.tree.scopes = [museum, museumHall] := rfl

theorem reached_twoRoots : twoRoots.Reached :=
  ((ScopeRegistry.Reached.start .fresh).root "museum").root "museum.hall"

end Sample

namespace ScopeRegistry

variable {r : ScopeRegistry}

/-- **When a scope is refused as a duplicate.** It is for a sibling of its name, or for a scope
elsewhere that is spelled in the same way, and the path it is refused with is its own. The
latter takes a point: in the name of a root that is asked for, or else in one of the two names.
Where there are no points, it is the siblings alone. -/
theorem Reached.duplicateScope_iff (h : r.Reached) (name : String) :
    ((∀ path, r.tree.addRoot r.names name = .error (.duplicateScope path) ↔
        path = name ∧ ((∃ s, r.Sibling none name s) ∨ ∃ s, r.Clash none name s)) ∧
      (∀ s, r.Clash none name s → '.' ∈ name.toList) ∧
      ('.' ∉ name.toList → ((∃ path, r.tree.addRoot r.names name = .error (.duplicateScope path)) ↔
        ∃ s, r.Sibling none name s))) ∧
    ∀ parent ∈ r.tree.scopes,
      (∀ path, r.tree.addChild r.names parent name = .error (.duplicateScope path) ↔
        path = parent.path ++ "." ++ name ∧
          ((∃ s, r.Sibling (some parent) name s) ∨ ∃ s, r.Clash (some parent) name s)) ∧
      (∀ s, r.Clash (some parent) name s →
        '.' ∈ name.toList ∨ '.' ∈ (r.names.lookup s.name).toList) ∧
      ('.' ∉ name.toList → (∀ s ∈ r.tree.scopes, '.' ∉ (r.names.lookup s.name).toList) →
        ((∃ path, r.tree.addChild r.names parent name = .error (.duplicateScope path)) ↔
          ∃ s, r.Sibling (some parent) name s)) := by
  have hc := h.consistent
  constructor
  · have hpoint : ∀ s, r.Clash none name s → '.' ∈ name.toList :=
      fun s hs => hs.point_mem_of_none hc
    refine ⟨fun path => hc.insert_eq_duplicateScope_iff none, hpoint, fun hname => ?_⟩
    exact hc.exists_duplicateScope_iff none fun s hs => hname (hpoint s hs)
  · intro parent hp
    have hpoint : ∀ s, r.Clash (some parent) name s →
        '.' ∈ name.toList ∨ '.' ∈ (r.names.lookup s.name).toList :=
      fun s hs => hs.point_mem hc hp
    refine ⟨fun path => hc.insert_eq_duplicateScope_iff (some parent), hpoint,
      fun hname hnames => ?_⟩
    exact hc.exists_duplicateScope_iff (some parent) fun s hs =>
      (hpoint s hs).elim hname (hnames s hs.1)

/-- A second line in the plant is refused for the first one, and nothing clashes with it. -/
theorem Reached.duplicateScope_iff_works :
    Sample.works.Reached ∧ Sample.plant ∈ Sample.works.tree.scopes ∧
      (∃ s, Sample.works.Sibling (some Sample.plant) "line" s) ∧
      ∃ path, Sample.works.tree.addChild Sample.works.names Sample.plant "line" =
        .error (.duplicateScope path) := by
  have hplant : Sample.plant ∈ Sample.works.tree.scopes := List.mem_cons_self
  have hsibling : ∃ s, Sample.works.Sibling (some Sample.plant) "line" s :=
    ⟨Sample.line, List.mem_cons_of_mem _ List.mem_cons_self, rfl, by decide⟩
  have hline := ((duplicateScope_iff Sample.reached_works "line").2 Sample.plant hplant).2.2
  refine ⟨Sample.reached_works, hplant, hsibling, (hline (by decide) ?_).2 hsibling⟩
  intro s hs
  rw [Sample.scopes_works, List.mem_cons, List.mem_singleton] at hs
  rcases hs with rfl | rfl <;> decide

/-- **A museum with no scope inside is refused its first hall,** when there is a scope called
"museum.hall" beside it. -/
theorem childless_of_duplicateScope :
    Sample.twoRoots.Reached ∧ Sample.museum ∈ Sample.twoRoots.tree.scopes ∧
      Sample.twoRoots.tree.addChild Sample.twoRoots.names Sample.museum "hall" =
        .error (.duplicateScope "museum.hall") ∧
      ¬∃ s, Sample.twoRoots.Sibling (some Sample.museum) "hall" s := by
  refine ⟨Sample.reached_twoRoots, List.mem_cons_self, rfl, ?_⟩
  rintro ⟨s, hs, hparent, -⟩
  rw [Sample.scopes_twoRoots, List.mem_cons, List.mem_singleton] at hs
  rcases hs with rfl | rfl <;> cases hparent

end ScopeRegistry

end Formulary
