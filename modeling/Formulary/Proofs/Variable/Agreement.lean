import Formulary.Proofs.Variable.Resolution
import Mathlib.Data.List.Nodup
/-!
# A name seen from a scope and from its instances

Scopes may still be added while instances of others are asked for and released
(`History`). However the steps follow one another, an instance that was ever
handed out sees along its chain the scopes that its scope sees along its own
(`History.mirrors`), and no scope twice (`History.eq_of_scope_beq`). So a name means
the same from both, and fails alike from both, whatever is declared and however far a
look may go. A check, which looks from a scope, can therefore be relied on by a capture
and an evaluation, which look from an instance.
-/

namespace Formulary

/-- A tree of scopes, a factory that serves it, and what the factory handed out, latest
first, after any number of additions, requests and releases in any order. -/
inductive History : ScopeTree → InstanceFactory → List ScopeInstance → Prop
  | start : History {} {} []
  | root {t t' : ScopeTree} {f : InstanceFactory} {handed : List ScopeInstance}
      {names names' : Interner} {name : String} {s : LegalScope} (h : History t f handed)
      (ht : t.addRoot names name = .ok (s, t', names')) : History t' f handed
  | child {t t' : ScopeTree} {f : InstanceFactory} {handed : List ScopeInstance}
      {names names' : Interner} {name : String} {parent s : LegalScope} (h : History t f handed)
      (hp : parent ∈ t.scopes) (ht : t.addChild names parent name = .ok (s, t', names')) :
      History t' f handed
  | get {t : ScopeTree} {f f' : InstanceFactory} {handed : List ScopeInstance}
      {scope : LegalScope} {subject : String} {parent : Option ScopeInstance} {i : ScopeInstance}
      (h : History t f handed) (hs : scope ∈ t.scopes) (hp : ∀ p, parent = some p → p ∈ handed)
      (hi : f.get scope subject parent = .ok (i, f')) : History t f' (i :: handed)
  | release {t : ScopeTree} {f : InstanceFactory} {handed : List ScopeInstance}
      (h : History t f handed) (i : ScopeInstance) : History t (f.release i) handed

/-! ## A history to go by -/

namespace Sample

/-- A scope with no scope around it. -/
def company : LegalScope := ⟨⟨0, ⟨1⟩, "company"⟩, []⟩

/-- A scope inside it. -/
def team : LegalScope := ⟨⟨1, ⟨2⟩, "company.team"⟩, [company.link]⟩

/-- An instance of the outer scope. -/
def acme : ScopeInstance := ⟨⟨0, company, "acme"⟩, []⟩

/-- An instance of the inner scope, made when the one around it had been released. -/
def sales : ScopeInstance := ⟨⟨1, team, "sales"⟩, [acme.link]⟩

/-- The factory that has forgotten the outer instance, and made the inner one. -/
def factory : InstanceFactory := ⟨⟨[(⟨1, some 0, "sales"⟩, sales)]⟩, 2⟩

/-- A number of the outer scope. -/
def budget : Name := ⟨3⟩

/-- The names of the two scopes and of the number. -/
def words : Interner :=
  (((Interner.fresh.intern "company").2.intern "team").2.intern "budget").2

/-- The one declaration. -/
def budgets : VariableLibrary := ⟨⟨[((0, budget), .number)]⟩⟩

/-- The inner scope was added when the outer one had an instance already. -/
theorem history : History ⟨[company, team]⟩ factory [sales, acme] := by
  have hroot : ({} : ScopeTree).addRoot .fresh "company" =
      .ok (company, ⟨[company]⟩, (Interner.fresh.intern "company").2) := rfl
  have hacme : ({} : InstanceFactory).get company "acme" none =
      .ok (acme, ⟨⟨[(⟨0, none, "acme"⟩, acme)]⟩, 1⟩) := rfl
  have hchild : (⟨[company]⟩ : ScopeTree).addChild (Interner.fresh.intern "company").2 company
      "team" = .ok (team, ⟨[company, team]⟩,
        ((Interner.fresh.intern "company").2.intern "team").2) := rfl
  have hsales : ((⟨⟨[(⟨0, none, "acme"⟩, acme)]⟩, 1⟩ : InstanceFactory).release acme).get team
      "sales" (some acme) = .ok (sales, factory) := rfl
  have hstart : History ⟨[company]⟩ {} [] := .root .start hroot
  have hmade : History ⟨[company]⟩ ⟨⟨[(⟨0, none, "acme"⟩, acme)]⟩, 1⟩ [acme] :=
    hstart.get List.mem_cons_self (by simp) hacme
  exact ((hmade.child List.mem_cons_self hchild).release acme).get (by simp) (by simp) hsales

end Sample

namespace History

variable {t : ScopeTree} {f : InstanceFactory} {handed : List ScopeInstance}
variable {i : ScopeInstance}

/-- An addition takes no scope away. -/
theorem mem_scopes_of_insert {t' : ScopeTree} {names names' : Interner} {s r : LegalScope}
    {name path : String} {enclosing : List ScopeLink}
    (ht : t.insert names name path enclosing = .ok (s, t', names')) (hr : r ∈ t.scopes) :
    r ∈ t'.scopes := by
  obtain ⟨-, -, hscopes⟩ := ScopeTree.insert_eq_ok ht
  rw [hscopes]
  exact List.mem_append_left _ hr

/-- The scopes were added one by one. -/
theorem grown (h : History t f handed) : t.Grown := by
  induction h with
  | start => exact .empty
  | root _ ht ih => exact ih.root ht
  | child _ hp ht ih => exact ih.child hp ht
  | get _ _ _ _ ih => exact ih
  | release _ _ ih => exact ih

/-- **What served the tree as it was then serves the tree as it is now.** -/
theorem served (h : History t f handed) : f.Served t handed := by
  induction h with
  | start => exact .start
  | root _ ht ih => exact ih.mono fun _ => mem_scopes_of_insert ht
  | child _ _ ht ih => exact ih.mono fun _ => mem_scopes_of_insert ht
  | get _ hs hp hi ih => exact ih.get hs hp hi
  | release _ i ih => exact ih.release i

/-- An instance that was ever handed out is of a scope of the tree, and mirrors it. -/
theorem mirrors (h : History t f handed) (hi : i ∈ handed) : i.scope ∈ t.scopes ∧ i.Mirrors :=
  h.served.mirrors h.grown.wellFormed hi

/-- **The instances around an instance are of different scopes.** -/
theorem eq_of_scope_beq (h : History t f handed) (hi : i ∈ handed) {j k : ScopeInstance}
    (hj : j ∈ i.ancestors) (hk : k ∈ i.ancestors) (hjk : (j.scope == k.scope) = true) : j = k := by
  obtain ⟨hscope, hmirrors⟩ := h.mirrors hi
  have hids : i.scope.ancestors.Pairwise fun inner outer => outer.id < inner.id :=
    h.grown.pairwise_ancestors hscope
  rw [← hmirrors, List.pairwise_map] at hids
  have hnodup : (i.ancestors.map fun j => j.scope.id).Nodup :=
    List.pairwise_map.2 (hids.imp Nat.ne_of_gt)
  exact List.inj_on_of_nodup_map hnodup hj hk (LegalScope.beq_iff.1 hjk)

/-- **A name means the same from an instance as from its scope.** The instance's chain is
that of its scope, scope by scope; a name resolves from one if and only if it resolves
from the other, with the same format; it belongs to the only instance of the chain
that is of the declaring scope; and where it does not resolve, the same is wrong. -/
theorem resolve_agrees (h : History t f handed) (hi : i ∈ handed) (l : VariableLibrary)
    (names : Interner) (name : Name) (limit : Nat) :
    i.ancestors.map ScopeInstance.scope = i.scope.ancestors ∧
      l.resolveInScope names i.scope name limit =
        (l.resolve names i name limit).map (fun v => (v.owner.scope, v.format)) ∧
      ∀ v, l.resolve names i name limit = .ok v → v.owner ∈ i.ancestors ∧
        ∀ j ∈ i.ancestors, (j.scope == v.owner.scope) = true → j = v.owner := by
  have hmirrors : i.Mirrors := (h.mirrors hi).2
  refine ⟨hmirrors, VariableLibrary.resolveInScope_eq_map_resolve hmirrors, fun v hv => ?_⟩
  obtain ⟨-, before, after, hsplit, -⟩ := VariableLibrary.resolve_eq_ok_iff.1 hv
  have howner : v.owner ∈ i.ancestors := by
    rw [hsplit]
    exact List.mem_append_right _ List.mem_cons_self
  exact ⟨howner, fun j hj hscope => h.eq_of_scope_beq hi hj howner hscope⟩

/-- The budget of the sales team is that of the company, although the company's instance
was released before the team's was made. -/
theorem resolve_agrees_sales :
    History ⟨[Sample.company, Sample.team]⟩ Sample.factory [Sample.sales, Sample.acme] ∧
      Sample.sales.ancestors.map ScopeInstance.scope = Sample.team.ancestors ∧
      Sample.budgets.resolveInScope Sample.words Sample.team Sample.budget 2 =
        .ok (Sample.company, .number) ∧
      ∀ j ∈ Sample.sales.ancestors, (j.scope == Sample.company) = true → j = Sample.acme := by
  have hresolve : Sample.budgets.resolve Sample.words Sample.sales Sample.budget 2 =
      .ok ⟨Sample.acme, Sample.budget, .number, "budget"⟩ := rfl
  obtain ⟨hchain, hagree, howner⟩ :=
    resolve_agrees Sample.history List.mem_cons_self Sample.budgets Sample.words Sample.budget 2
  refine ⟨Sample.history, hchain, ?_, (howner _ hresolve).2⟩
  rw [hresolve] at hagree
  exact hagree

end History

end Formulary
