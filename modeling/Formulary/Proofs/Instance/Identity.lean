import Formulary.Proofs.Variable.Agreement
/-!
# Which requests come to the same instance

A factory is told to hand out instances and to release them, in any order (`Request`). A
number that it has given out, it gives to no other instance, whatever it is told next
(`Given.afterAll`), and what it has cached under the key of a request stays there until
the instance or one around it is released (`find?_afterAll`); then it is gone for good
(`given_afterAll_of_release`). So two requests come to the same instance exactly when
they ask for the same and nothing between them has released it (`beq_iff_of_get`).

Nothing is assumed of what is asked for and released in between: parents may have been
released, or be none of the factory's own.
-/

namespace Formulary

namespace Sample

/-- The factory that has made the outer and the inner instance. -/
def staffed : InstanceFactory := ⟨⟨[(⟨0, none, "acme"⟩, acme), (⟨1, some 0, "sales"⟩, sales)]⟩, 2⟩

/-- An inner instance made later. -/
def salesAgain : ScopeInstance := ⟨⟨3, team, "sales"⟩, [acme.link]⟩

/-- The factory that has forgotten both and made them again, the inner one inside the outer
one that is forgotten. -/
def restaffed : InstanceFactory :=
  ⟨⟨[(⟨0, none, "acme"⟩, ⟨⟨2, company, "acme"⟩, []⟩), (⟨1, some 0, "sales"⟩, salesAgain)]⟩, 4⟩

end Sample

namespace InstanceFactory

/-- What a factory may be told. -/
inductive Request where
  /-- To hand out the instance of a scope for a subject inside a parent. -/
  | get (scope : LegalScope) (subject : String) (parent : Option ScopeInstance)
  /-- To forget an instance and those inside it. -/
  | release (i : ScopeInstance)

/-- The factory after a request. One that is refused leaves it as it was. -/
def after (f : InstanceFactory) : Request → InstanceFactory
  | .get scope subject parent =>
    match f.get scope subject parent with
    | .error _ => f
    | .ok (_, f') => f'
  | .release i => f.release i

/-- The factory after requests, one after the other. -/
def afterAll (f : InstanceFactory) (requests : List Request) : InstanceFactory :=
  requests.foldl after f

/-- The number of an instance is given out, and a cached instance with this number has a
property. -/
structure Given (f : InstanceFactory) (i : ScopeInstance) (P : ScopeInstance → Prop) : Prop where
  /-- The next number is a later one. -/
  taken : i.id < f.nextId
  /-- What is cached under the number has the property. -/
  cached : ∀ e ∈ f.cached.entries, e.2.id = i.id → P e.2

/-- Instances are cached under their own keys, and each alone has its number. -/
structure Ordered (f : InstanceFactory) : Prop where
  /-- The key of an entry is that of its instance. -/
  keyed : ∀ e ∈ f.cached.entries, e.1 = e.2.key
  /-- No other cached instance has the number. -/
  own : ∀ e ∈ f.cached.entries, f.Given e.2 (· = e.2)

variable {f f' : InstanceFactory} {i : ScopeInstance} {P : ScopeInstance → Prop}
variable {scope : LegalScope} {subject : String} {parent : Option ScopeInstance}

/-! ## One request -/

/-- **What a request may do**: nothing, or cache an instance under the next number and a
key that was free, or release. -/
theorem after_cases (f : InstanceFactory) (request : Request) :
    f.after request = f ∨
      (∃ i, i.id = f.nextId ∧ f.cached.find? i.key = none ∧ f.after request = f.remember i) ∨
        ∃ j, request = .release j ∧ f.after request = f.release j := by
  cases request with
  | release j => exact .inr (.inr ⟨j, rfl, rfl⟩)
  | get scope subject parent =>
    cases hget : f.get scope subject parent with
    | error e => exact .inl (by simp only [after, hget])
    | ok answer =>
      obtain ⟨i, f'⟩ := answer
      have hafter : f.after (.get scope subject parent) = f' := by simp only [after, hget]
      obtain ⟨-, ⟨-, rfl⟩ | ⟨hfree, hi, rfl⟩⟩ := get_eq_ok hget
      · exact .inl hafter
      · refine .inr (.inl ⟨i, ?_, ?_, hafter⟩)
        · rw [hi]
          rfl
        · have hkey : i.key = requestKey scope subject parent := by rw [hi, key_made]
          rw [hkey]
          exact hfree

/-- A release leaves cached instances only that were cached. -/
theorem mem_of_mem_release {j : ScopeInstance} {e : InstanceKey × ScopeInstance}
    (he : e ∈ (f.release j).cached.entries) : e ∈ f.cached.entries :=
  (List.mem_filter.1 he).1

theorem Given.remember (h : f.Given i P) {made : ScopeInstance} (hnew : made.id = f.nextId) :
    (f.remember made).Given i P := by
  refine ⟨Nat.lt_succ_of_lt h.taken, fun e he hsame => ?_⟩
  rcases Table.mem_insert he with he | ⟨-, hmade⟩
  · exact h.cached e he hsame
  · -- the new instance has a later number
    have htaken := h.taken
    rw [hmade] at hsame
    omega

/-- **A number that was given out goes to no instance afterwards.** -/
theorem Given.after (h : f.Given i P) (request : Request) : (f.after request).Given i P := by
  rcases after_cases f request with hsame | ⟨made, hnew, -, hmade⟩ | ⟨j, -, hreleased⟩
  · rw [hsame]
    exact h
  · rw [hmade]
    exact h.remember hnew
  · rw [hreleased]
    exact ⟨h.taken, fun e he => h.cached e (mem_of_mem_release he)⟩

/-- An instance that is made has a number to itself. -/
theorem Ordered.given_remember (h : f.Ordered) {made : ScopeInstance}
    (hnew : made.id = f.nextId) : (f.remember made).Given made (· = made) := by
  refine ⟨by rw [hnew]; exact Nat.lt_succ_self _, fun e he hsame => ?_⟩
  rcases Table.mem_insert he with he | ⟨-, hmade⟩
  · -- what was cached before has an earlier number
    have htaken := (h.own e he).taken
    omega
  · exact hmade

theorem Ordered.remember (h : f.Ordered) {made : ScopeInstance} (hnew : made.id = f.nextId) :
    (f.remember made).Ordered := by
  refine ⟨fun e he => ?_, fun e he => ?_⟩
  · rcases Table.mem_insert he with he | ⟨hkey, hmade⟩
    · exact h.keyed e he
    · rw [hmade]
      exact eq_of_beq hkey
  · rcases Table.mem_insert he with he | ⟨-, hmade⟩
    · exact (h.own e he).remember hnew
    · rw [hmade]
      exact h.given_remember hnew

/-- **A request leaves instances under their own keys,** with numbers of their own. -/
theorem Ordered.after (h : f.Ordered) (request : Request) : (f.after request).Ordered := by
  rcases after_cases f request with hsame | ⟨made, hnew, -, hmade⟩ | ⟨j, -, hreleased⟩
  · rw [hsame]
    exact h
  · rw [hmade]
    exact h.remember hnew
  · rw [hreleased]
    refine ⟨fun e he => h.keyed e (mem_of_mem_release he), fun e he => ?_⟩
    have hown := h.own e (mem_of_mem_release he)
    exact ⟨hown.taken, fun d hd => hown.cached d (mem_of_mem_release hd)⟩

/-- **What is cached stays so** unless it or an instance around it is released. -/
theorem find?_after (h : f.cached.find? i.key = some i) {request : Request}
    (hkept : ∀ j, request = .release j → ∀ a ∈ i.ancestors, (a == j) = false) :
    (f.after request).cached.find? i.key = some i := by
  rcases after_cases f request with hsame | ⟨made, -, hfree, hmade⟩ | ⟨j, hj, hreleased⟩
  · rw [hsame]
    exact h
  · rw [hmade, remember, Table.find?_insert]
    split
    · -- the key of the new instance was free, and this one is not
      rename_i hkey
      rw [eq_of_beq hkey, h] at hfree
      cases hfree
    · exact h
  · rw [hreleased]
    refine Table.find?_filter h fun _ => ?_
    rw [List.all_eq_true]
    intro a ha
    have hother : (a == j) = false := hkept j hj a ha
    exact bne_iff_ne.2 fun hid => absurd (ScopeInstance.beq_iff.2 hid) (by simp [hother])

/-- A release of an instance, or of one around it, leaves nothing under its number. -/
theorem given_release (h : f.Given i (· = i)) {a j : ScopeInstance} (ha : a ∈ i.ancestors)
    (haj : (a == j) = true) : (f.release j).Given i fun _ => False := by
  refine ⟨h.taken, fun e he hid => ?_⟩
  obtain ⟨hmem, hkept⟩ := List.mem_filter.1 he
  have hi : e.2 = i := h.cached e hmem hid
  rw [hi, List.all_eq_true] at hkept
  exact absurd (ScopeInstance.beq_iff.1 haj) (bne_iff_ne.1 (hkept a ha))

/-! ## Any number of requests -/

theorem afterAll_append (f : InstanceFactory) (requests later : List Request) :
    f.afterAll (requests ++ later) = (f.afterAll requests).afterAll later :=
  List.foldl_append

theorem Given.afterAll (h : f.Given i P) (requests : List Request) :
    (f.afterAll requests).Given i P := by
  induction requests generalizing f with
  | nil => exact h
  | cons request rest ih => exact ih (h.after request)

theorem Ordered.afterAll (h : f.Ordered) (requests : List Request) :
    (f.afterAll requests).Ordered := by
  induction requests generalizing f with
  | nil => exact h
  | cons request rest ih => exact ih (h.after request)

theorem ordered_empty : ({} : InstanceFactory).Ordered :=
  ⟨fun _ he => absurd he List.not_mem_nil, fun _ he => absurd he List.not_mem_nil⟩

theorem find?_afterAll (h : f.cached.find? i.key = some i) {requests : List Request}
    (hkept : ∀ j, .release j ∈ requests → ∀ a ∈ i.ancestors, (a == j) = false) :
    (f.afterAll requests).cached.find? i.key = some i := by
  induction requests generalizing f with
  | nil => exact h
  | cons request rest ih =>
    have hfirst : (f.after request).cached.find? i.key = some i :=
      find?_after h fun j hj => hkept j (hj ▸ List.mem_cons_self)
    exact ih hfirst fun j hj => hkept j (List.mem_cons_of_mem _ hj)

/-- **What was released once is gone,** whatever is asked for before and after. -/
theorem given_afterAll_of_release (h : f.Given i (· = i)) {requests : List Request}
    {a j : ScopeInstance} (hj : .release j ∈ requests) (ha : a ∈ i.ancestors)
    (haj : (a == j) = true) : (f.afterAll requests).Given i fun _ => False := by
  obtain ⟨earlier, later, rfl⟩ := List.append_of_mem hj
  rw [afterAll_append]
  exact (given_release (h.afterAll earlier) ha haj).afterAll later

/-! ## Two requests -/

/-- What is handed out has the key of its request, is cached under it, and alone has its
number. -/
theorem Ordered.get (hf : f.Ordered) (h : f.get scope subject parent = .ok (i, f')) :
    i.key = requestKey scope subject parent ∧ f'.cached.find? i.key = some i ∧
      f'.Given i (· = i) := by
  obtain ⟨-, ⟨hfind, rfl⟩ | ⟨-, hi, rfl⟩⟩ := get_eq_ok h
  · obtain ⟨e, he, hkey, rfl⟩ := Table.mem_of_find? hfind
    have hsame : e.2.key = requestKey scope subject parent := by
      rw [← hf.keyed e he]
      exact eq_of_beq hkey
    exact ⟨hsame, hsame ▸ hfind, hf.own e he⟩
  · have hnew : i.id = f.nextId := by
      rw [hi]
      rfl
    refine ⟨by rw [hi, key_made], ?_, hf.given_remember hnew⟩
    rw [InstanceFactory.remember, Table.find?_insert, if_pos BEq.rfl]

/-- A request that comes to a number given out before comes to what is cached under it. -/
theorem Given.get (hgiven : f.Given i P) {i' : ScopeInstance}
    (h : f.get scope subject parent = .ok (i', f')) : f' = f ∧ (i'.id = i.id → P i') ∨
      i.id < i'.id := by
  obtain ⟨-, ⟨hfind, rfl⟩ | ⟨-, hi, -⟩⟩ := get_eq_ok h
  · obtain ⟨e, he, -, rfl⟩ := Table.mem_of_find? hfind
    exact .inl ⟨rfl, hgiven.cached e he⟩
  · refine .inr ?_
    rw [hi]
    exact hgiven.taken

/-- A request that comes to an equal instance comes to what is cached under its number. -/
theorem Given.of_get_beq (hgiven : f.Given i P) {i' : ScopeInstance}
    (h : f.get scope subject parent = .ok (i', f')) (hsame : (i == i') = true) : P i' := by
  have hid : i.id = i'.id := ScopeInstance.beq_iff.1 hsame
  rcases hgiven.get h with ⟨-, hcached⟩ | hlater
  · exact hcached hid.symm
  · omega

/-- A request whose key is taken comes to what is cached under it. -/
theorem eq_of_find? (hfind : f.cached.find? (requestKey scope subject parent) = some i)
    {i' : ScopeInstance} (h : f.get scope subject parent = .ok (i', f')) : i' = i := by
  obtain ⟨-, ⟨hcached, -⟩ | ⟨hfree, -⟩⟩ := get_eq_ok h
  · rw [hfind] at hcached
    exact (Option.some.inj hcached).symm
  · rw [hfind] at hfree
    cases hfree

/-- Parents are equal when they have equal numbers, or are both absent. -/
theorem beq_parent_iff {p q : Option ScopeInstance} :
    (p == q) = true ↔ p.map ScopeInstance.id = q.map ScopeInstance.id := by
  cases p with
  | none => cases q <;> simp
  | some p =>
    cases q with
    | none => simp
    | some q =>
      rw [Option.some_beq_some, ScopeInstance.beq_iff, Option.map_some, Option.map_some,
        Option.some.injEq]

/-- Requests for scopes of one tree have one key exactly when they ask for the same. -/
theorem requestKey_eq_iff {t : ScopeTree} (ht : t.Grown) {scope' : LegalScope}
    (hs : scope ∈ t.scopes) (hs' : scope' ∈ t.scopes) {subject' : String}
    {parent' : Option ScopeInstance} :
    requestKey scope subject parent = requestKey scope' subject' parent' ↔
      scope = scope' ∧ subject = subject' ∧ (parent == parent') = true := by
  rw [beq_parent_iff, requestKey, requestKey, InstanceKey.mk.injEq]
  constructor
  · rintro ⟨hid, hparent, hsubject⟩
    exact ⟨ScopeTree.eq_of_id_eq ht.wellFormed hs hs' hid, hsubject, hparent⟩
  · rintro ⟨rfl, hsubject, hparent⟩
    exact ⟨rfl, hparent, hsubject⟩

/-- **Two requests come to equal instances exactly when they ask for the same,** a scope of
a tree for a subject inside a parent, and nothing told in between releases the instance or
one around it. Equal instances are then one and the same, and an instance that is made has
a later number than any before. At any point each instance is cached under its own key; and
a request that is refused changes nothing. -/
theorem beq_iff_of_get {t : ScopeTree} (ht : t.Grown) {s₁ s₂ : LegalScope}
    (hs₁ : s₁ ∈ t.scopes) (hs₂ : s₂ ∈ t.scopes) {u₁ u₂ : String} {p₁ p₂ : Option ScopeInstance}
    {i₁ i₂ : ScopeInstance} {f₁ f₂ : InstanceFactory} {before between : List Request}
    (h₁ : (({} : InstanceFactory).afterAll before).get s₁ u₁ p₁ = .ok (i₁, f₁))
    (h₂ : (f₁.afterAll between).get s₂ u₂ p₂ = .ok (i₂, f₂)) :
    ((i₁ == i₂) = true ↔ s₁ = s₂ ∧ u₁ = u₂ ∧ (p₁ == p₂) = true ∧
      ∀ j, .release j ∈ between → ∀ a ∈ i₁.ancestors, (a == j) = false) ∧
    ((i₁ == i₂) = true → i₁ = i₂) ∧
    (f₂ = f₁.afterAll between ∨ i₁.id < i₂.id) ∧
    (∀ requests, ∀ e ∈ (({} : InstanceFactory).afterAll requests).cached.entries,
      e.1 = e.2.key) ∧
    ∀ requests s u p e, (({} : InstanceFactory).afterAll requests).get s u p = .error e →
      e = .instanceParentMismatch s.path (s.parent?.map LegalScope.path)
        ((p.map ScopeInstance.scope).map LegalScope.path) ∧
      ({} : InstanceFactory).afterAll (requests ++ [.get s u p]) =
        ({} : InstanceFactory).afterAll requests := by
  have hordered := ordered_empty.afterAll before
  obtain ⟨hkey₁, hfind, hgiven⟩ := hordered.get h₁
  have hordered₁ : f₁.Ordered := by
    have hafter := hordered.after (.get s₁ u₁ p₁)
    simpa only [after, h₁] using hafter
  obtain ⟨hkey₂, -, -⟩ := (hordered₁.afterAll between).get h₂
  have hsame (h : (i₁ == i₂) = true) : i₁ = i₂ :=
    ((hgiven.afterAll between).of_get_beq h₂ h).symm
  refine ⟨⟨fun h => ?_, ?_⟩, hsame, ?_, ?_, ?_⟩
  · have hkeys : requestKey s₁ u₁ p₁ = requestKey s₂ u₂ p₂ := by rw [← hkey₁, ← hkey₂, hsame h]
    obtain ⟨hscope, hsubject, hparent⟩ := (requestKey_eq_iff ht hs₁ hs₂).1 hkeys
    refine ⟨hscope, hsubject, hparent, fun j hj a ha => ?_⟩
    -- after a release nothing is cached under the number, and a new number is a later one
    rw [Bool.eq_false_iff]
    intro haj
    exact (given_afterAll_of_release hgiven hj ha haj).of_get_beq h₂ h
  · rintro ⟨hscope, hsubject, hparent, hkept⟩
    have hkeys := (requestKey_eq_iff ht hs₁ hs₂).2 ⟨hscope, hsubject, hparent⟩
    have hfound := find?_afterAll hfind hkept
    rw [hkey₁, hkeys] at hfound
    rw [eq_of_find? hfound h₂]
    exact BEq.rfl
  · exact ((hgiven.afterAll between).get h₂).imp And.left id
  · exact fun requests => (ordered_empty.afterAll requests).keyed
  · intro requests s u p e hrefused
    refine ⟨(get_eq_error hrefused).2, ?_⟩
    rw [afterAll_append, afterAll, List.foldl_cons, List.foldl_nil]
    simp only [after, hrefused]

/-- The inner instance is asked for again inside an outer one that was released, and made
anew although the outer one is the same. -/
theorem beq_sales_again :
    (({} : InstanceFactory).afterAll [.get Sample.company "acme" none]).get Sample.team "sales"
        (some Sample.acme) = .ok (Sample.sales, Sample.staffed) ∧
      (Sample.staffed.afterAll [.release Sample.acme, .get Sample.company "acme" none]).get
        Sample.team "sales" (some Sample.acme) = .ok (Sample.salesAgain, Sample.restaffed) ∧
      (Sample.sales == Sample.salesAgain) = false ∧ Sample.sales.id < Sample.salesAgain.id := by
  have hfirst : (({} : InstanceFactory).afterAll [.get Sample.company "acme" none]).get
      Sample.team "sales" (some Sample.acme) = .ok (Sample.sales, Sample.staffed) := rfl
  have hagain : (Sample.staffed.afterAll
      [.release Sample.acme, .get Sample.company "acme" none]).get Sample.team "sales"
        (some Sample.acme) = .ok (Sample.salesAgain, Sample.restaffed) := rfl
  have hteam : Sample.team ∈ [Sample.company, Sample.team] := by simp
  obtain ⟨hiff, -, hlater, -, -⟩ :=
    beq_iff_of_get Sample.history.grown hteam hteam hfirst hagain
  refine ⟨hfirst, hagain, ?_, ?_⟩
  · rw [Bool.eq_false_iff]
    intro hsame
    -- the outer instance is released in between
    obtain ⟨-, -, -, hkept⟩ := hiff.1 hsame
    have hreleased : (Sample.acme == Sample.acme) = false :=
      hkept Sample.acme List.mem_cons_self Sample.acme (List.mem_cons_of_mem _ List.mem_cons_self)
    exact absurd hreleased (by simp)
  · refine hlater.resolve_left fun hunchanged => ?_
    have hnext := congrArg InstanceFactory.nextId hunchanged
    exact absurd hnext (by decide)

end InstanceFactory

end Formulary
