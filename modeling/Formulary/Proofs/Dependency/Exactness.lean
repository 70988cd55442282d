import Formulary.Proofs.Dependency.Capture
import Formulary.Proofs.Evaluation.Dependence
import Formulary.Proofs.Tree.Unfolding
import Formulary.Proofs.Variable.Resolution
/-!
# What a capture collects

A capture goes through exactly when the unfolding of the formula is in order and not
too deep, and every name in it stands for a variable (`failure?_visit_eq_none_iff`).
It then records the variables that the names stand for and no others
(`mem_recorded_visit_iff`), behind calls and branches of all kinds: what the
libraries hold makes no difference. The set that is answered has each of them once
(`DependencySet.Distinct.insertAll`).
-/

namespace Formulary

/-- The application of a conjunction to `flag`, to a call of no registered function with
`amount` twice, and to `flag` again. No argument leads to the last node. -/
def Sample.scattered : FormulaTree where
  nodes := #[⟨.var flag, .dummy⟩, ⟨.var amount, .dummy⟩, ⟨.call ⟨77⟩ ⟨0, 2⟩, .dummy⟩,
    ⟨.operator .and ⟨2, 3⟩, .dummy⟩, ⟨.var ⟨50⟩, .dummy⟩]
  args := #[⟨1⟩, ⟨1⟩, ⟨0⟩, ⟨2⟩, ⟨0⟩]
  root := ⟨3⟩

/-! ## Sets without repetition -/

namespace DependencySet

variable {d : DependencySet} {v w : VariableId} {vs : List VariableId}

/-- No variable of a set equals another. -/
def Distinct (d : DependencySet) : Prop := d.members.Pairwise fun v w => ¬ (v == w) = true

/-- A variable is put in only if it is new. -/
theorem Distinct.insert (h : d.Distinct) (v : VariableId) : (d.insert v).Distinct := by
  unfold DependencySet.insert
  split
  · exact h
  · rename_i hnew
    refine List.pairwise_append.2 ⟨h, List.pairwise_singleton _ _, fun w hw u hu hwu => hnew ?_⟩
    rw [List.mem_singleton.1 hu] at hwu
    exact contains_iff.2 ⟨w, hw, hwu⟩

theorem Distinct.insertAll (h : d.Distinct) (vs : List VariableId) :
    (d.insertAll vs).Distinct := by
  induction vs generalizing d with
  | nil => exact h
  | cons v rest ih => exact ih (h.insert v)

/-- **A set has what was put in and what it had,** where equal variables are the same. -/
theorem mem_members_insertAll_iff {P : VariableId → Prop}
    (hP : ∀ v w, P v → P w → (v == w) = true → v = w) (hd : ∀ v ∈ d.members, P v)
    (hvs : ∀ v ∈ vs, P v) : v ∈ (d.insertAll vs).members ↔ v ∈ d.members ∨ v ∈ vs := by
  induction vs generalizing d with
  | nil => simp [insertAll]
  | cons u rest ih =>
    have hu : P u := hvs u List.mem_cons_self
    have hinsert (v : VariableId) : v ∈ (d.insert u).members ↔ v ∈ d.members ∨ v = u := by
      unfold DependencySet.insert
      split
      · rename_i hold
        -- an equal variable is in the set already, and it is the same
        obtain ⟨w, hw, hwu⟩ := contains_iff.1 hold
        have hwu : w = u := hP w u (hd w hw) hu hwu
        refine ⟨.inl, fun h => h.elim id ?_⟩
        rintro rfl
        exact hwu ▸ hw
      · rw [List.mem_append, List.mem_singleton]
    have hmembers (v : VariableId) (hv : v ∈ (d.insert u).members) : P v := by
      rcases (hinsert v).1 hv with hv | rfl
      · exact hd v hv
      · exact hu
    show v ∈ ((d.insert u).insertAll rest).members ↔ _
    rw [ih hmembers fun v hv => hvs v (List.mem_cons_of_mem _ hv), hinsert, List.mem_cons,
      or_assoc]

end DependencySet

namespace FormulaManager

variable {m : FormulaManager} {i : ScopeInstance} {name name' : Name} {v w : VariableId}

/-- A name stands for one variable at most. -/
theorem StandsFor.unique (hv : m.StandsFor i name v) (hw : m.StandsFor i name w) : v = w :=
  Except.ok.inj ((resolveName_eq_ok_iff.2 hv).symm.trans (resolveName_eq_ok_iff.2 hw))

/-- Variables that names stand for, seen from one instance, are the same if they are equal. -/
theorem StandsFor.eq_of_beq (hv : m.StandsFor i name v) (hw : m.StandsFor i name' w)
    (hvw : (v == w) = true) : v = w := by
  have hname : name = name' := by
    rw [← hv.name_eq, ← hw.name_eq]
    exact (VariableId.beq_iff.1 hvw).2.1
  rw [← hname] at hw
  exact hv.unique hw

end FormulaManager

namespace Dependency

variable {m : FormulaManager} {i : ScopeInstance} {t : FormulaTree} {cx : ContextMap}
variable {id : NodeId} {name : Name} {span : Span} {v : VariableId}

/-! ## Variables -/

/-- A variable is recorded if its name stands for one. -/
theorem visitVariable_of_standsFor {collector : CollectorId}
    (hc : cx.get Key.collector = .ok collector) (h : m.StandsFor i name v) :
    visitVariable m i cx name span = .record v := by
  simp only [visitVariable, FormulaManager.resolveName_eq_ok_iff.2 h, hc]

theorem failure?_visitVariable_eq_none_iff {collector : CollectorId}
    (hc : cx.get Key.collector = .ok collector) :
    (visitVariable m i cx name span).failure? = none ↔ ∃ v, m.StandsFor i name v := by
  constructor
  · intro h
    unfold visitVariable at h
    split at h
    · exact absurd h (by simp [Capture.fail])
    · exact absurd h (by simp [Capture.fail])
    · rename_i v hv
      exact ⟨v, FormulaManager.resolveName_eq_ok_iff.1 hv⟩
  · rintro ⟨v, hv⟩
    rw [visitVariable_of_standsFor hc hv]
    rfl

/-! ## Formulas -/

/-- The parts of a formula can be captured if its unfolding is in order and its names
stand for variables. -/
def Capturable (m : FormulaManager) (i : ScopeInstance) (t : FormulaTree) (levels : Nat)
    (id : NodeId) : Prop :=
  t.Unfolds levels id ∧ ∀ name, t.Uses id name → ∃ v, m.StandsFor i name v

/-- A call can be captured if its arguments can. -/
theorem capturable_succ_iff_of_range {levels : Nat} {node : Node} {r : ArgRange}
    (hn : t.node? id = some node) (hr : node.kind.range? = some r) :
    Capturable m i t (levels + 1) id ↔
      ∃ args, t.args? r = some args ∧ ∀ arg ∈ args, Capturable m i t levels arg := by
  unfold Capturable
  rw [FormulaTree.unfolds_succ_iff_of_node hn]
  constructor
  · rintro ⟨hunfold, hnames⟩
    obtain ⟨args, ha, hargs⟩ := hunfold r hr
    refine ⟨args, ha, fun arg harg => ⟨hargs arg harg, fun name huse => hnames name ?_⟩⟩
    exact (FormulaTree.uses_iff_of_args hn hr ha).2 ⟨arg, harg, huse⟩
  · rintro ⟨args, ha, hargs⟩
    refine ⟨fun r' hr' => ?_, fun name huse => ?_⟩
    · rw [hr, Option.some.injEq] at hr'
      exact ⟨args, hr' ▸ ha, fun arg harg => (hargs arg harg).1⟩
    · obtain ⟨arg, harg, huse⟩ := (FormulaTree.uses_iff_of_args hn hr ha).1 huse
      exact (hargs arg harg).2 name huse

/-- **A capture goes through exactly when** the unfolding is in order and every name in it
stands for a variable. -/
theorem failure?_visit_eq_none_iff {levels : Nat} {collector : CollectorId}
    (hc : cx.get Key.collector = .ok collector) :
    (visit m i t levels cx id).failure? = none ↔ Capturable m i t levels id := by
  induction levels generalizing id with
  | zero =>
    refine iff_of_false ?_ fun h => FormulaTree.not_unfolds_zero h.1
    unfold visit
    split <;> simp [Capture.fail]
  | succ levels ih =>
    rcases hn : t.node? id with _ | node
    · refine iff_of_false (by simp [visit, hn, Capture.fail]) fun h => ?_
      have hnode := h.1.nodes 0 id .here
      rw [hn] at hnode
      exact absurd hnode (by simp)
    rcases hr : node.kind.range? with _ | r
    · have hunfold : t.Unfolds (levels + 1) id := by
        rw [FormulaTree.unfolds_succ_iff_of_node hn, hr]
        simp
      obtain ⟨kind, span⟩ := node
      simp only [visit, hn]
      cases kind with
      | literal value =>
        exact iff_of_true rfl ⟨hunfold, fun name h => absurd h (FormulaTree.not_uses_of_literal hn)⟩
      | var n =>
        rw [failure?_visitVariable_eq_none_iff hc]
        simp [Capturable, hunfold, FormulaTree.uses_iff_of_var hn]
      | call function r | operator op r => exact absurd hr (by simp [NodeKind.range?])
    · rw [visit_succ_of_range hn hr, capturable_succ_iff_of_range hn hr]
      cases t.args? r with
      | none => simp [Capture.fail]
      | some args => simp only [Capture.failure?_each_eq_none_iff, ih, Option.some.injEq,
          exists_eq_left']

/-- **A capture that goes through records the variables that the names stand for,** and
nothing else. -/
theorem mem_recorded_visit_iff {levels : Nat} {collector : CollectorId}
    (hc : cx.get Key.collector = .ok collector) (h : Capturable m i t levels id) :
    v ∈ (visit m i t levels cx id).recorded.toList ↔
      ∃ name, t.Uses id name ∧ m.StandsFor i name v := by
  induction levels generalizing id with
  | zero => exact absurd h.1 FormulaTree.not_unfolds_zero
  | succ levels ih =>
    obtain ⟨node, hn, -⟩ := FormulaTree.unfolds_succ_iff.1 h.1
    rcases hr : node.kind.range? with _ | r
    · obtain ⟨kind, span⟩ := node
      cases kind with
      | literal value =>
        refine iff_of_false (by simp [visit, hn]) ?_
        rintro ⟨name, huse, -⟩
        exact FormulaTree.not_uses_of_literal hn huse
      | var n =>
        obtain ⟨w, hw⟩ := h.2 n ((FormulaTree.uses_iff_of_var hn).2 rfl)
        have hrecorded : v ∈ (visit m i t (levels + 1) cx id).recorded.toList ↔ v = w := by
          simp [visit, hn, visitVariable_of_standsFor hc hw, Capture.record]
        rw [hrecorded]
        simp only [FormulaTree.uses_iff_of_var hn, exists_eq_left']
        constructor
        · rintro rfl
          exact hw
        · exact fun hv => hv.unique hw
      | call function r | operator op r => exact absurd hr (by simp [NodeKind.range?])
    · obtain ⟨args, ha, hargs⟩ := (capturable_succ_iff_of_range hn hr).1 h
      have hgoes (arg : NodeId) (harg : arg ∈ args) :
          (visit m i t levels cx arg).failure? = none :=
        (failure?_visit_eq_none_iff hc).2 (hargs arg harg)
      have hrecorded : (visit m i t (levels + 1) cx id).recorded.toList =
          args.flatMap fun arg => (visit m i t levels cx arg).recorded.toList := by
        rw [visit_succ_of_range hn hr, ha]
        exact Capture.recorded_each hgoes
      simp only [hrecorded, List.mem_flatMap, FormulaTree.uses_iff_of_args hn hr ha]
      constructor
      · rintro ⟨arg, harg, hv⟩
        obtain ⟨name, huse, hstands⟩ := (ih (hargs arg harg)).1 hv
        exact ⟨name, ⟨arg, harg, huse⟩, hstands⟩
      · rintro ⟨name, ⟨arg, harg, huse⟩, hstands⟩
        exact ⟨arg, harg, (ih (hargs arg harg)).2 ⟨name, huse, hstands⟩⟩

/-- **A capture is exact.** With a collector of its own it answers if and only if, from
the root down, every id has a node, every range lies inside the array, no chain of
arguments is longer than the limit, and every name stands for a variable. Then the answer
has the variables that the names stand for, each once, and no others. What the libraries
hold makes no difference, nor what is asked of the formula. -/
theorem captureFormula_exact {w : Workspace} {fm : ManagerId} (hm : w.manager? fm = some m)
    (t : FormulaTree) (i : ScopeInstance) (asserted : Option Format) :
    ((∃ d, (w.captureFormula .plain fm t i asserted).1 = .ok d) ↔
      t.Unfolds m.config.maxTreeDepth t.root ∧
        ∀ name, t.Uses t.root name → ∃ v, m.StandsFor i name v) ∧
      ∀ d, (w.captureFormula .plain fm t i asserted).1 = .ok d →
        (∀ v, v ∈ d.members ↔ ∃ name, t.Uses t.root name ∧ m.StandsFor i name v) ∧
          d.members.Pairwise fun v w => ¬ (v == w) = true := by
  obtain ⟨cx, collector, hc, hcapture⟩ := Workspace.captureFormula_eq hm t i asserted
  have hnone : (run m i cx t).failure? = none ↔ Capturable m i t m.config.maxTreeDepth t.root :=
    failure?_visit_eq_none_iff hc
  rw [hcapture]
  refine ⟨Iff.trans ⟨?_, fun h => ?_⟩ hnone, fun d hd => ?_⟩
  · rintro ⟨d, hd⟩
    split at hd
    · exact absurd hd (by simp)
    · rename_i hgoes
      exact hgoes
  · exact ⟨_, by rw [h]⟩
  · split at hd
    · exact absurd hd (by simp)
    · rename_i hgoes
      have hrecorded (v : VariableId) : v ∈ (run m i cx t).recorded.toList ↔
          ∃ name, t.Uses t.root name ∧ m.StandsFor i name v :=
        mem_recorded_visit_iff hc (hnone.1 hgoes)
      rw [← Except.ok.inj hd]
      refine ⟨fun v => ?_, DependencySet.Distinct.insertAll List.Pairwise.nil _⟩
      rw [← hrecorded, DependencySet.ofList, DependencySet.mem_members_insertAll_iff
        (P := fun v => ∃ name, m.StandsFor i name v) ?_ (by simp) ?_]
      · simp
      · rintro v w ⟨_, hv⟩ ⟨_, hw⟩
        exact hv.eq_of_beq hw
      · intro v hv
        obtain ⟨name, -, hstands⟩ := (hrecorded v).1 hv
        exact ⟨name, hstands⟩

/-- Two variables are needed: behind a function that nobody registered, in a conjunction
of three, and twice each. The name that no argument leads to stands for nothing and is
not needed. -/
theorem captureFormula_exact_scattered :
    (Sample.workspace.captureFormula .plain ⟨0⟩ Sample.scattered Sample.someone none).1 =
        .ok Sample.needed ∧
      (∀ v, v ∈ Sample.needed.members ↔ ∃ name,
        Sample.scattered.Uses Sample.scattered.root name ∧
          FormulaManager.StandsFor { Sample.manager with stored := ({} : VariableStore).get? }
            Sample.someone name v) ∧
      Sample.needed.members.Pairwise fun v w => ¬ (v == w) = true := by
  have hm : Sample.workspace.manager? ⟨0⟩ =
      some { Sample.manager with stored := ({} : VariableStore).get? } := rfl
  have hd : (Sample.workspace.captureFormula .plain ⟨0⟩ Sample.scattered Sample.someone none).1 =
      .ok Sample.needed := rfl
  exact ⟨hd, (captureFormula_exact hm Sample.scattered Sample.someone none).2 _ hd⟩

end Dependency

end Formulary
