import Formulary.Instance
import Formulary.Proofs.Scope.Tree
/-!
# Runs of an instance factory

A factory serves the scopes of one tree: it is asked for instances of them,
inside instances that it handed out before, and told to release instances, in
any order. `Served` lists what it handed out, released or not. Every such
instance mirrors its scope: along the chain of instances around it run the
scopes around its own (`Served.mirrors`). So a look outwards from an instance
passes the scopes that a look outwards from its scope passes.
-/

namespace Formulary

/-- The chain of an instance is the chain of its scope, seen from subjects. -/
def ScopeInstance.Mirrors (i : ScopeInstance) : Prop :=
  i.ancestors.map ScopeInstance.scope = i.scope.ancestors

namespace InstanceFactory

/-- What a factory has come to that served the scopes of a tree, and what it
handed out on the way, latest first. -/
inductive Served (t : ScopeTree) : InstanceFactory → List ScopeInstance → Prop
  | start : Served t {} []
  | get {f f' : InstanceFactory} {handed : List ScopeInstance} {scope : LegalScope}
      {subject : String} {parent : Option ScopeInstance} {i : ScopeInstance}
      (h : Served t f handed) (hs : scope ∈ t.scopes) (hp : ∀ p, parent = some p → p ∈ handed)
      (hi : f.get scope subject parent = .ok (i, f')) : Served t f' (i :: handed)
  | release {f : InstanceFactory} {handed : List ScopeInstance} (h : Served t f handed)
      (i : ScopeInstance) : Served t (f.release i) handed

variable {t : ScopeTree} {f f' : InstanceFactory} {handed : List ScopeInstance}
variable {scope : LegalScope} {subject : String} {parent : Option ScopeInstance}
variable {i : ScopeInstance}

/-- The links of the instances around one that is made inside a parent. -/
def enclosingOf : Option ScopeInstance → List InstanceLink
  | none => []
  | some p => p.link :: p.enclosing

/-- What a request is looked up by. -/
def requestKey (scope : LegalScope) (subject : String) (parent : Option ScopeInstance) :
    InstanceKey := ⟨scope.id, parent.map ScopeInstance.id, subject⟩

/-- The factory that has made an instance, and cached it under its own key. -/
def remember (f : InstanceFactory) (i : ScopeInstance) : InstanceFactory :=
  ⟨f.cached.insert i.key i, f.nextId + 1⟩

/-- An instance made for a request has the key of the request. -/
theorem key_made (id : Nat) :
    (⟨⟨id, scope, subject⟩, enclosingOf parent⟩ : ScopeInstance).key =
      requestKey scope subject parent := by
  cases parent <;> rfl

/-- Around an instance that is made are the instances of the chain of its parent. -/
theorem ancestors_made {id : Nat} {a : ScopeInstance}
    (ha : a ∈ (⟨⟨id, scope, subject⟩, enclosingOf parent⟩ : ScopeInstance).ancestors) :
    a = ⟨⟨id, scope, subject⟩, enclosingOf parent⟩ ∨ ∃ p, parent = some p ∧ a ∈ p.ancestors := by
  rw [ScopeInstance.ancestors_eq] at ha
  refine (List.mem_cons.1 ha).imp_right fun ha => ?_
  cases parent with
  | none => exact absurd ha List.not_mem_nil
  | some p => exact ⟨p, rfl, ha⟩

/-- **What a request does**: the parent fits the scope, and the instance is one
that is cached, or a new one under the next number, which is then cached. -/
theorem get_eq_ok (h : f.get scope subject parent = .ok (i, f')) :
    (scope.parent? == parent.map ScopeInstance.scope) = true ∧
      (f.cached.find? (requestKey scope subject parent) = some i ∧ f' = f ∨
        f.cached.find? (requestKey scope subject parent) = none ∧
          i = ⟨⟨f.nextId, scope, subject⟩, enclosingOf parent⟩ ∧ f' = f.remember i) := by
  simp only [get] at h
  split at h
  · cases h
  · rename_i hfit
    refine ⟨by simpa [bne] using hfit, ?_⟩
    split at h
    · rename_i cached hfind
      cases h
      exact .inl ⟨hfind, rfl⟩
    · rename_i hfind
      cases h
      refine .inr ⟨hfind, ?_, ?_⟩
      · cases parent <;> rfl
      · cases parent <;> rfl

/-- A request is refused when the parent does not fit the scope, and for nothing else. -/
theorem get_eq_error {e : ConfigError} (h : f.get scope subject parent = .error e) :
    (scope.parent? == parent.map ScopeInstance.scope) = false ∧
      e = .instanceParentMismatch scope.path (scope.parent?.map LegalScope.path)
        ((parent.map ScopeInstance.scope).map LegalScope.path) := by
  simp only [get] at h
  split at h
  · rename_i hfit
    cases h
    exact ⟨by simpa [bne] using hfit, rfl⟩
  · split at h
    · cases h
    · cases h

/-- An instance made inside one that mirrors its scope mirrors its own. -/
theorem mirrors_of_parent (ht : t.WellFormed) (hs : scope ∈ t.scopes)
    (hfit : (scope.parent? == parent.map ScopeInstance.scope) = true)
    (hp : ∀ p, parent = some p → p.scope ∈ t.scopes ∧ p.Mirrors) (id : Nat) :
    (⟨⟨id, scope, subject⟩, enclosingOf parent⟩ : ScopeInstance).Mirrors := by
  unfold ScopeInstance.Mirrors
  rw [ScopeInstance.ancestors_eq, LegalScope.ancestors_eq, List.map_cons]
  refine congrArg (scope :: ·) ?_
  cases parent with
  | none =>
    cases hpar : scope.parent? with
    | none =>
      have hroot : (⟨⟨id, scope, subject⟩, []⟩ : ScopeInstance).scope.parent? = none := hpar
      rw [enclosingOf, hroot]
      rfl
    | some q => rw [hpar] at hfit; cases hfit
  | some p =>
    obtain ⟨hpt, hpm⟩ := hp p rfl
    cases hpar : scope.parent? with
    | none => rw [hpar] at hfit; cases hfit
    | some q =>
      rw [hpar] at hfit
      -- the parent's scope has the number of the scope around, and the tree has one such scope
      have hq : q = p.scope :=
        ScopeTree.eq_of_id_eq ht (ht.closed scope hs q hpar) hpt (LegalScope.beq_iff.1 hfit)
      have hinner : (⟨⟨id, scope, subject⟩, enclosingOf (some p)⟩ : ScopeInstance).scope.parent? =
          some q := hpar
      rw [hinner, hq]
      exact hpm

/-- **Every instance a factory handed out is of a scope of the tree and mirrors
it,** and what is cached has been handed out. -/
theorem Served.invariant (ht : t.WellFormed) (h : Served t f handed) :
    (∀ i ∈ handed, i.scope ∈ t.scopes ∧ i.Mirrors) ∧ ∀ e ∈ f.cached.entries, e.2 ∈ handed := by
  induction h with
  | start => exact ⟨by simp, by simp⟩
  | @get f f' handed scope subject parent i _ hs hp hi ih =>
    obtain ⟨hhanded, hcached⟩ := ih
    obtain ⟨hfit, ⟨hfind, rfl⟩ | ⟨-, hnew, rfl⟩⟩ := get_eq_ok hi
    · -- a cached instance was handed out before
      obtain ⟨e, he, -, rfl⟩ := Table.mem_of_find? hfind
      have hmem : e.2 ∈ handed := hcached e he
      refine ⟨fun j hj => ?_, fun d hd => List.mem_cons_of_mem _ (hcached d hd)⟩
      rcases List.mem_cons.1 hj with rfl | hj
      · exact hhanded _ hmem
      · exact hhanded j hj
    · refine ⟨fun j hj => ?_, fun d hd => ?_⟩
      · rcases List.mem_cons.1 hj with rfl | hj
        · rw [hnew]
          exact ⟨hs, mirrors_of_parent ht hs hfit (fun p hpp => hhanded p (hp p hpp)) _⟩
        · exact hhanded j hj
      · rcases Table.mem_insert hd with hd | ⟨-, rfl⟩
        · exact List.mem_cons_of_mem _ (hcached d hd)
        · exact List.mem_cons_self
  | release _ i ih =>
    exact ⟨ih.1, fun e he => ih.2 e (List.mem_filter.1 he).1⟩

/-- What served the scopes of a tree also served those of a larger one. -/
theorem Served.mono (h : Served t f handed) {t' : ScopeTree}
    (hsub : ∀ s ∈ t.scopes, s ∈ t'.scopes) : Served t' f handed := by
  induction h with
  | start => exact .start
  | get _ hs hp hi ih => exact ih.get (hsub _ hs) hp hi
  | release _ i ih => exact ih.release i

/-- **An instance that was handed out mirrors its scope.** -/
theorem Served.mirrors (ht : t.WellFormed) (h : Served t f handed) (hi : i ∈ handed) :
    i.scope ∈ t.scopes ∧ i.Mirrors :=
  (h.invariant ht).1 i hi

end InstanceFactory

end Formulary
