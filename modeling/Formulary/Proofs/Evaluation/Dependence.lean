import Formulary.Proofs.Dependency.Capture
import Formulary.Proofs.Evaluation.Operands
import Formulary.Proofs.Semantics.Typing
/-!
# An evaluation depends on what a capture records

A capture visits every argument, an evaluation only those that it needs, so a
capture that goes through has recorded every variable that an evaluation could ask
the store for. Two stores that agree on what is recorded give a formula the same
value, or the same failure (`eval_eq_of_visit`), whether the formula was checked or
not. Changes of any other variable can be left aside.
-/

namespace Formulary

namespace Sample

/-- A workspace with the manager of the sample, and nothing stored. -/
def workspace : Workspace where
  vocabularies := #[.fresh]
  engines := #[{ vocabulary := ⟨0⟩, stage := .made manager }]

/-- The two variables of the formula. -/
def needed : DependencySet := ⟨[⟨someone, flag, .truth, ""⟩, ⟨someone, amount, .number, ""⟩]⟩

end Sample

/-! ## Captures that go through -/

/-- **A capture of a list goes through every member,** and records what each records. -/
theorem Capture.of_each {α : Type} {capture : α → Capture} {as : List α}
    (h : (each capture as).failure? = none) {a : α} (ha : a ∈ as) :
    (capture a).failure? = none ∧
      ∀ v ∈ (capture a).recorded.toList, v ∈ (each capture as).recorded.toList := by
  have hall := failure?_each_eq_none_iff.1 h
  refine ⟨hall a ha, fun v hv => ?_⟩
  rw [recorded_each hall]
  exact List.mem_flatMap.2 ⟨a, ha, hv⟩

/-- **A set contains what is put in,** and what it contained. -/
theorem DependencySet.contains_insertAll_iff {d : DependencySet} {vs : List VariableId}
    {v : VariableId} :
    (d.insertAll vs).contains v = true ↔ d.contains v = true ∨ ∃ u ∈ vs, (u == v) = true := by
  induction vs generalizing d with
  | nil => simp [insertAll]
  | cons w rest ih =>
    show ((d.insert w).insertAll rest).contains v = true ↔ _
    rw [ih, contains_insert, Bool.or_eq_true, List.exists_mem_cons_iff, or_comm (a := _ = true),
      or_assoc]

/-- A set contains all that is put in. -/
theorem DependencySet.contains_insertAll {d : DependencySet} {vs : List VariableId}
    {v : VariableId} (h : d.contains v = true ∨ v ∈ vs) : (d.insertAll vs).contains v = true :=
  contains_insertAll_iff.2 (h.imp_right fun hv => ⟨v, hv, BEq.rfl⟩)

namespace Evaluation

/-! ## Stores that agree on what is recorded -/

variable {m : FormulaManager} {i : ScopeInstance} {t : FormulaTree} {cx : ContextMap}
variable {s₁ s₂ : VariableId → Option Value}

/-- A variable is looked up alike, and asked for in the store where it is recorded. -/
theorem evalVariable_eq_of_visit {name : Name} {span : Span}
    (h : (Dependency.visitVariable m i cx name span).failure? = none)
    (hs : ∀ v ∈ (Dependency.visitVariable m i cx name span).recorded.toList, s₁ v = s₂ v) :
    evalVariable { m with stored := s₁ } i name span =
      evalVariable { m with stored := s₂ } i name span := by
  have hresolve (s : VariableId → Option Value) :
      ({ m with stored := s } : FormulaManager).resolveName i name = m.resolveName i name := rfl
  simp only [evalVariable, hresolve]
  unfold Dependency.visitVariable at h hs
  cases hv : m.resolveName i name with
  | error e =>
    rw [hv] at h
    cases e <;> cases h
  | ok v =>
    simp only [hv] at h hs
    split at hs
    · rename_i e he
      rw [he] at h
      cases h
    · simp only [FormulaManager.valueOf, hs v List.mem_cons_self]

/-- **Stores that agree on what a capture records give a part the same value, or the
same failure.** -/
theorem eval_eq_of_visit {levels : Nat} {cx cx' : ContextMap} {id : NodeId}
    (h : (Dependency.visit m i t levels cx id).failure? = none)
    (hs : ∀ v ∈ (Dependency.visit m i t levels cx id).recorded.toList, s₁ v = s₂ v) :
    eval { m with stored := s₁ } i t levels cx' id =
      eval { m with stored := s₂ } i t levels cx' id := by
  induction levels generalizing cx cx' id with
  | zero =>
    unfold Dependency.visit at h
    split at h <;> cases h
  | succ levels ih =>
    cases hn : t.node? id with
    | none =>
      simp only [Dependency.visit, hn] at h
      cases h
    | some node =>
      obtain ⟨kind, span⟩ := node
      simp only [Dependency.visit, hn] at h hs
      have hcall {κ : Type} [BEq κ] {c : Callee κ} {r : ArgRange}
          (h : (Dependency.visitArguments (Dependency.visit m i t levels) cx c
            (t.args? r)).failure? = none)
          (hs : ∀ v ∈ (Dependency.visitArguments (Dependency.visit m i t levels) cx c
            (t.args? r)).recorded.toList, s₁ v = s₂ v) :
          evalCall (eval { m with stored := s₁ } i t levels) cx' c (t.args? r) =
            evalCall (eval { m with stored := s₂ } i t levels) cx' c (t.args? r) := by
        -- whichever arguments are evaluated, the capture went through all of them
        cases ha : t.args? r with
        | none => rfl
        | some args =>
          simp only [ha, Dependency.visitArguments] at h hs
          refine (sameUnless_evalCall (List.forall₂_same.2 fun arg harg slot => .inl ?_) c.node
            fun _ => .inl rfl).eq.symm
          rw [← c.map_fst_withExpected args] at harg
          obtain ⟨p, hp, rfl⟩ := List.mem_map.1 harg
          obtain ⟨hfail, hmem⟩ := Capture.of_each h hp
          exact (ih hfail fun v hv => hs v (hmem v hv)).symm
      simp only [eval, hn]
      cases kind with
      | literal value => rfl
      | var name => exact evalVariable_eq_of_visit h hs
      | call function r => exact hcall h hs
      | operator op r => exact hcall h hs

/-! ## Captures with a collector of their own -/

/-- A capture that answers went through, and answers what it recorded. -/
theorem exists_of_captureFormula {w : Workspace} {id : ManagerId} (hm : w.manager? id = some m)
    {asserted : Option Format} {d : DependencySet}
    (hd : (w.captureFormula .plain id t i asserted).1 = .ok d) :
    ∃ cx, (Dependency.run m i cx t).failure? = none ∧
      d = .ofList (Dependency.run m i cx t).recorded.toList := by
  obtain ⟨cx, -, -, hcapture⟩ := Workspace.captureFormula_eq hm t i asserted
  rw [hcapture] at hd
  split at hd
  · cases hd
  · rename_i hnone
    exact ⟨cx, hnone, (Except.ok.inj hd).symm⟩

/-- **An evaluation depends only on what its capture collected.** A capture with a
collector of its own went through, and two stores agree on what it collected; then a
formula, checked or not, has the same value in both, or fails in the same way, whatever
the context of the evaluation says. -/
theorem run_eq_of_captureFormula {w : Workspace} {id : ManagerId} (hm : w.manager? id = some m)
    {asserted : Option Format} {d : DependencySet}
    (hd : (w.captureFormula .plain id t i asserted).1 = .ok d)
    (hs : ∀ v, d.contains v = true → s₁ v = s₂ v) (cx : ContextMap) :
    run { m with stored := s₁ } i cx t = run { m with stored := s₂ } i cx t := by
  obtain ⟨cx', hnone, rfl⟩ := exists_of_captureFormula hm hd
  exact eval_eq_of_visit hnone fun v hv => hs v (DependencySet.contains_insertAll (.inr hv))

/-- The sample's amount is recorded, although its evaluation need not ask for it. What
is stored for other variables makes no difference. -/
theorem run_eq_guarded :
    (Sample.workspace.captureFormula .plain ⟨0⟩ Sample.guarded Sample.someone none).1 =
        .ok Sample.needed ∧
      run { Sample.manager with stored := fun _ => none } Sample.someone {} Sample.guarded =
        run { Sample.manager with
            stored := fun v => if Sample.needed.contains v then none else some (.truth true) }
          Sample.someone {} Sample.guarded := by
  have hm : Sample.workspace.manager? ⟨0⟩ =
      some { Sample.manager with stored := ({} : VariableStore).get? } := rfl
  have hd : (Sample.workspace.captureFormula .plain ⟨0⟩ Sample.guarded Sample.someone none).1 =
      .ok Sample.needed := rfl
  refine ⟨hd, run_eq_of_captureFormula hm hd (fun v hv => ?_) {}⟩
  rw [if_pos hv]

end Evaluation

end Formulary
