import Formulary.CheckedFormula
import Formulary.Proofs.Manager
/-!
# For which instances a checked formula is worked out

A checked formula is worked out for the instances whose scope has the number of the scope
of the check, and refused for all others (`expectScope_eq_ok_iff`). The number of a scope
is its place in its tree (`samePlace_iff`). It tells the scopes of one tree apart, but not
those of two trees, which both count from zero: an instance that another manager handed
out for a scope at the same place is accepted (`answers_of_samePlace`). What is then worked
out need not have the format of the check (`evaluates_stranger`).
-/

namespace Formulary

/-! ## Two managers to go by -/

namespace Sample

/-- A scope with no scope around it. -/
def rules : LegalScope := ⟨⟨0, ⟨1⟩, "rules"⟩, []⟩

/-- A scope of another tree, with no scope around it. -/
def others : LegalScope := ⟨⟨0, ⟨2⟩, "others"⟩, []⟩

/-- An instance of the scope of the other tree. -/
def visitor : ScopeInstance := ⟨⟨0, others, "visitor"⟩, []⟩

/-- A variable that is declared in both scopes. -/
def price : Name := ⟨3⟩

/-- The names of the two scopes and of the variable. -/
def vocabulary : Interner :=
  (((Interner.fresh.intern "rules").2.intern "others").2.intern "price").2

/-- For one manager the variable is a number. -/
def home : FormulaManager where
  names := vocabulary
  declarations := ⟨⟨[((0, price), .number)]⟩⟩
  scopes := ⟨[rules]⟩

/-- For the other manager the variable is a text. -/
def abroad : FormulaManager where
  names := vocabulary
  declarations := ⟨⟨[((0, price), .text)]⟩⟩
  scopes := ⟨[others]⟩
  instances := ⟨⟨[(⟨0, none, "visitor"⟩, visitor)]⟩, 1⟩

/-- The two managers side by side. -/
def neighbours : Workspace where
  vocabularies := #[vocabulary]
  engines := #[{ vocabulary := ⟨0⟩, stage := .made home },
    { vocabulary := ⟨0⟩, stage := .made abroad }]

/-- The formula `price`. -/
def priced : FormulaTree where
  nodes := #[⟨.var price, .dummy⟩]
  args := #[]
  root := ⟨0⟩

/-- The formula, checked in the scope of the first manager. -/
def checked : CheckedFormula := ⟨priced, rules, none, .number⟩

theorem reached_home : home.Reached [] := by
  have hadd : ({} : ScopeTree).addRoot .fresh "rules" =
      .ok (rules, home.scopes, (Interner.fresh.intern "rules").2) := rfl
  exact ⟨.root .empty hadd, .empty, .start⟩

theorem reached_abroad : abroad.Reached [visitor] := by
  have hadd : ({} : ScopeTree).addRoot (Interner.fresh.intern "rules").2 "others" =
      .ok (others, abroad.scopes,
        ((Interner.fresh.intern "rules").2.intern "others").2) := rfl
  have hget : ({} : InstanceFactory).get others "visitor" none =
      .ok (visitor, abroad.instances) := rfl
  have hgrown : abroad.scopes.Grown := .root .empty hadd
  exact ⟨hgrown, .empty, .get .start List.mem_cons_self (by simp) hget⟩

end Sample

/-! ## Places in trees -/

namespace ScopeTree

variable {t t' : ScopeTree} {s s' : LegalScope}

/-- Two scopes have the same place in their trees. -/
def SamePlace (t t' : ScopeTree) (s s' : LegalScope) : Prop :=
  ∃ k : Nat, t.scopes[k]? = some s ∧ t'.scopes[k]? = some s'

/-- A scope of a tree is at the place that its number says. -/
theorem WellFormed.getElem?_id (ht : t.WellFormed) (hs : s ∈ t.scopes) :
    t.scopes[s.id]? = some s := by
  obtain ⟨k, hk⟩ := List.getElem?_of_mem hs
  rw [ht.numbered k s hk]
  exact hk

/-- **Scopes have the same place when they have the same number.** -/
theorem samePlace_iff (ht : t.WellFormed) (ht' : t'.WellFormed) (hs : s ∈ t.scopes)
    (hs' : s' ∈ t'.scopes) : SamePlace t t' s s' ↔ s'.id = s.id := by
  constructor
  · rintro ⟨k, hk, hk'⟩
    rw [ht.numbered k s hk, ht'.numbered k s' hk']
  · intro hid
    exact ⟨s.id, ht.getElem?_id hs, hid ▸ ht'.getElem?_id hs'⟩

/-- In one tree, a place has one scope. -/
theorem samePlace_self_iff (hs : s ∈ t.scopes) : SamePlace t t s s' ↔ s' = s := by
  constructor
  · rintro ⟨k, hk, hk'⟩
    rw [hk] at hk'
    exact (Option.some.inj hk').symm
  · rintro rfl
    obtain ⟨k, hk⟩ := List.getElem?_of_mem hs
    exact ⟨k, hk, hk⟩

end ScopeTree

/-! ## The guard -/

variable {c : CheckedFormula} {i : ScopeInstance}

/-- **The guard compares numbers of scopes.** -/
theorem CheckedFormula.expectScope_eq_ok_iff :
    c.expectScope i = .ok () ↔ i.scope.id = c.scope.id := by
  rw [← LegalScope.beq_iff]
  unfold expectScope
  split
  · rename_i h
    simp [h]
  · rename_i h
    simp [h]

theorem CheckedFormula.expectScope_of_id_ne (h : i.scope.id ≠ c.scope.id) :
    c.expectScope i = .error (.instanceScopeMismatch c.scope.path i.scope.path) :=
  if_neg fun hs => h (LegalScope.beq_iff.1 hs)

namespace Workspace

variable {w : Workspace} {factory : ContextFactory} {fm : ManagerId} {t : FormulaTree}
variable {scope : LegalScope} {asserted : Option Format}

/-- What is known of a checked formula: it is the one that was checked. -/
theorem eq_of_checkFormula (h : w.checkFormula factory fm t scope asserted = .ok c) :
    c.tree = t ∧ c.scope = scope ∧ c.asserted = asserted := by
  obtain ⟨format, -, hc⟩ := map_eq_ok_iff.1 h
  rw [← hc]
  exact ⟨rfl, rfl, rfl⟩

/-- **A checked formula is worked out for the instances of the scopes at the place of the
scope of its check,** and for no others, whichever manager handed them out. In the tree of
the check that is the scope of the check. -/
theorem answers_of_samePlace {a b : FormulaManager} {handed handed' : List ScopeInstance}
    (ha : a.Reached handed) (hb : b.Reached handed') (hs : scope ∈ a.scopes.scopes)
    (hi : i ∈ handed') (hc : w.checkFormula factory fm t scope asserted = .ok c)
    (w' : Workspace) (factory' : ContextFactory) (fm' : ManagerId) :
    (ScopeTree.SamePlace a.scopes b.scopes scope i.scope →
      w'.dependencies factory' fm' c i = w'.captureFormula factory' fm' t i asserted ∧
        w'.evaluate factory' fm' c i =
          w'.runEvaluation (factory'.evaluation fm' i asserted) t) ∧
    (¬ ScopeTree.SamePlace a.scopes b.scopes scope i.scope →
      w'.dependencies factory' fm' c i =
          (.error (.config (.instanceScopeMismatch scope.path i.scope.path)), w') ∧
        w'.evaluate factory' fm' c i =
          .error (.config (.instanceScopeMismatch scope.path i.scope.path))) ∧
    ∀ s, ScopeTree.SamePlace a.scopes a.scopes scope s ↔ s = scope := by
  obtain ⟨htree, hscope, hasserted⟩ := eq_of_checkFormula hc
  have hia : i.scope ∈ b.scopes.scopes := (hb.instances.mirrors hb.scopes.wellFormed hi).1
  have hplace := ScopeTree.samePlace_iff ha.scopes.wellFormed hb.scopes.wellFormed hs hia
  rw [hplace]
  refine ⟨fun hid => ?_, fun hid => ?_, fun s => ScopeTree.samePlace_self_iff hs⟩
  · have hok : c.expectScope i = .ok () :=
      CheckedFormula.expectScope_eq_ok_iff.2 (hscope ▸ hid)
    simp only [dependencies, evaluate, hok, htree, hasserted, and_self]
  · have herror := CheckedFormula.expectScope_of_id_ne (hscope.symm ▸ hid)
    simp only [dependencies, evaluate, herror, hscope, and_self]

/-- The two scopes are the first of their trees. -/
theorem answers_visitor :
    ScopeTree.SamePlace Sample.home.scopes Sample.abroad.scopes Sample.rules Sample.visitor.scope ∧
      Sample.neighbours.evaluate .plain ⟨1⟩ Sample.checked Sample.visitor =
        Sample.neighbours.runEvaluation
          (ContextFactory.plain.evaluation ⟨1⟩ Sample.visitor none) Sample.priced := by
  have hplace : ScopeTree.SamePlace Sample.home.scopes Sample.abroad.scopes Sample.rules
      Sample.visitor.scope := ⟨0, rfl, rfl⟩
  have hc : Sample.neighbours.checkFormula .plain ⟨0⟩ Sample.priced Sample.rules none =
      .ok Sample.checked := rfl
  exact ⟨hplace, ((answers_of_samePlace Sample.reached_home Sample.reached_abroad
    List.mem_cons_self List.mem_cons_self hc Sample.neighbours .plain ⟨1⟩).1 hplace).2⟩

/-- **Scopes of two trees are taken for one.** The formula is a number in the scope in which
it was checked. The instance of another manager is accepted, what the formula needs is
a variable of that manager, and its value is a text. -/
theorem evaluates_stranger :
    Sample.home.Reached [] ∧ Sample.abroad.Reached [Sample.visitor] ∧
    Sample.neighbours.manager? ⟨0⟩ = some { Sample.home with stored := ({} : VariableStore).get? } ∧
    Sample.neighbours.manager? ⟨1⟩ =
      some { Sample.abroad with stored := ({} : VariableStore).get? } ∧
    Sample.visitor.scope.path ≠ Sample.rules.path ∧
    Sample.neighbours.checkFormula .plain ⟨0⟩ Sample.priced Sample.rules none =
      .ok Sample.checked ∧ Sample.checked.format = .number ∧
    (Sample.neighbours.dependencies .plain ⟨1⟩ Sample.checked Sample.visitor).1 =
      .ok ⟨[⟨Sample.visitor, Sample.price, .text, "price"⟩]⟩ ∧
    Sample.neighbours.evaluate .plain ⟨1⟩ Sample.checked Sample.visitor = .ok (.text "") :=
  ⟨Sample.reached_home, Sample.reached_abroad, rfl, rfl, by decide, rfl, rfl, rfl, rfl⟩

end Workspace

end Formulary
