import Formulary.Proofs.Dependency.Capture
import Formulary.Proofs.Evaluation.Operands
import Formulary.Proofs.Semantics.Blame
import Formulary.Proofs.Tree.Likeness
import Formulary.Proofs.Workspace
/-!
# Passes see only the unfolding

Formulas that are alike are checked, captured and evaluated alike, in whatever way their
trees are made. The passes walk two such trees side by side, from the roots down, and what
they meet at one position matches. So they come to the same there (`check_eq_of_met`,
`visit_eq_of_met`, `eval_eq_of_met`), by induction on the levels that may be walked.

Only a check looks at an id for more than its node: a part that has the wrong format is
blamed in another way if it is the root. In a tree with a cycle the root may be met below
itself, where in a tree that is alike some other node is. But a part is compared with what is
asked of it only when its arguments have formats, and then it is no part of itself.
-/

namespace Formulary

open FormulaTree (Met)

variable {m : FormulaManager} {scope : LegalScope} {i : ScopeInstance} {t t' : FormulaTree}
variable {cx : ContextMap} {levels : Nat} {id id' : NodeId}

/-! ## Checks -/

namespace Semantics

/-- What is asked of parts that come to the same is asked of them alike, if one is the root
when the other is. That is of interest where there is a format to compare. -/
theorem checkAsserted_congr {span : Span} {v : Verdict}
    (h : ∀ format, v.format? = some format → (id = t.root ↔ id' = t'.root)) :
    checkAsserted t cx id span v = checkAsserted t' cx id' span v := by
  unfold checkAsserted
  cases hformat : v.format? with
  | none => rfl
  | some found => simp only [h found hformat]

/-- Of the list of its arguments, a call counts only how long it is. -/
theorem judgeCall_congr {κ : Type} [BEq κ] {c : Callee κ} (node : NodeId)
    {unknown : SemanticsError} {args args' : List NodeId} (h : args.length = args'.length)
    (verdicts : List Verdict) : judgeCall c unknown (some args) verdicts =
      judgeCall { c with node } unknown (some args') verdicts := by
  simp only [judgeCall, h]

/-- A call has a format only if its arguments have. -/
theorem allFormats_of_judgeCall {κ : Type} [BEq κ] {c : Callee κ} {unknown : SemanticsError}
    {args : List NodeId} {verdicts : List Verdict} {format : Format}
    (h : (judgeCall c unknown (some args) verdicts).format? = some format) :
    ∃ formats, Verdict.allFormats verdicts = some formats := by
  unfold judgeCall at h
  dsimp only at h
  split at h
  · split at h
    · cases h
    · split at h
      · cases h
      · rename_i formats hformats
        exact ⟨formats, hformats⟩
  · cases h

/-- **What is met at one position is a root in both trees or in none,** if its arguments have
formats. -/
theorem eq_root_iff_of_met (hmet : Met t t' id id') {formats : List Format}
    (h : Verdict.allFormats (((⟨levels + 1, cx, id⟩ : Visit).arguments m t).map
      (Visit.verdict m scope t)) = some formats)
    (h' : Verdict.allFormats (((⟨levels + 1, cx, id'⟩ : Visit).arguments m t').map
      (Visit.verdict m scope t')) = some formats) : id = t.root ↔ id' = t'.root := by
  rcases hmet.root_or_below with ⟨hid, hid'⟩ | ⟨⟨k, hk⟩, k', hk'⟩
  · exact iff_of_true hid hid'
  · -- below the root, neither is part of itself
    refine iff_of_false (fun hid => ?_) fun hid' => ?_
    · rw [← hid] at hk
      exact Visit.not_reaches_self (Nat.succ_pos levels) h hk
    · rw [← hid'] at hk'
      exact Visit.not_reaches_self (Nat.succ_pos levels) h' hk'

/-- The arguments of visits that are at one position come to the same, one by one, if what is
met at one position does a level below. -/
theorem map_verdict_arguments_of_met (h : t.Alike t') (hmet : Met t t' id id')
    (hbelow : ∀ cx arg arg', Met t t' arg arg' →
      check m scope t levels cx arg = check m scope t' levels cx arg') :
    ((⟨levels + 1, cx, id⟩ : Visit).arguments m t).map (Visit.verdict m scope t) =
      ((⟨levels + 1, cx, id'⟩ : Visit).arguments m t').map (Visit.verdict m scope t') := by
  have hverdicts {κ : Type} [BEq κ] (c : Callee κ) {args args' : List NodeId}
      (hargs : List.Forall₂ (Met t t') args args') :
      (argumentVisits c levels cx (some args)).map (Visit.verdict m scope t) =
        (argumentVisits c levels cx (some args')).map (Visit.verdict m scope t') := by
    rw [map_verdict_argumentVisits, map_verdict_argumentVisits]
    refine forall₂_eq_iff.1 ((Evaluation.forall₂_withExpected hargs).imp ?_)
    rintro ⟨arg, slot⟩ ⟨arg', slot'⟩ ⟨harg, rfl⟩
    exact hbelow _ arg arg' harg
  cases h.matches_of_met hmet with
  | literal hn hn' | var hn hn' => simp only [Visit.arguments, hn, hn', List.map_nil]
  | call hn hn' ha ha' hargs | operator hn hn' ha ha' hargs =>
    simp only [Visit.arguments, hn, hn', ha, ha']
    exact hverdicts _ hargs

/-- **A check comes to the same at one position of trees that are alike.** -/
theorem check_eq_of_met (h : t.Alike t') (hmet : Met t t' id id') :
    check m scope t levels cx id = check m scope t' levels cx id' := by
  induction levels generalizing cx id id' with
  | zero =>
    cases h.matches_of_met hmet with
    | literal hn hn' | var hn hn' | call hn hn' _ _ _ | operator hn hn' _ _ _ =>
      simp only [check, hn, hn']
  | succ levels ih =>
    let v : Visit := ⟨levels + 1, cx, id⟩
    let v' : Visit := ⟨levels + 1, cx, id'⟩
    have harguments : (v.arguments m t).map (Visit.verdict m scope t) =
        (v'.arguments m t').map (Visit.verdict m scope t') :=
      map_verdict_arguments_of_met h hmet fun _ _ _ harg => ih harg
    have hroot (formats : List Format)
        (hformats : Verdict.allFormats ((v.arguments m t).map (Visit.verdict m scope t)) =
          some formats) : id = t.root ↔ id' = t'.root :=
      eq_root_iff_of_met hmet hformats (harguments ▸ hformats)
    have hleaf (hnil : v.arguments m t = []) : id = t.root ↔ id' = t'.root :=
      hroot [] (by rw [hnil]; rfl)
    change v.verdict m scope t = v'.verdict m scope t'
    rw [verdict_eq_conclude, verdict_eq_conclude, ← harguments]
    cases h.matches_of_met hmet with
    | literal hn hn' | var hn hn' =>
      have hnil : v.arguments m t = [] := by simp only [v, Visit.arguments, hn]
      simp only [v, v', Visit.conclude, hn, hn']
      exact checkAsserted_congr fun _ _ => hleaf hnil
    | @call function span _ _ _ _ hn hn' ha ha' hargs =>
      simp only [v, v', Visit.conclude, hn, hn', ha, ha']
      rw [checkAsserted_congr fun _ hformat => (allFormats_of_judgeCall hformat).elim hroot,
        judgeCall_congr id' hargs.length_eq]
      rfl
    | @operator op span _ _ _ _ hn hn' ha ha' hargs =>
      simp only [v, v', Visit.conclude, hn, hn', ha, ha']
      rw [checkAsserted_congr fun _ hformat => (allFormats_of_judgeCall hformat).elim hroot,
        judgeCall_congr id' hargs.length_eq]
      rfl

/-- **Formulas that are alike are checked alike.** -/
theorem run_eq_of_alike (h : t.Alike t') : run m scope cx t = run m scope cx t' := by
  simp only [run, check_eq_of_met h FormulaTree.met_root]

end Semantics

/-! ## Captures -/

namespace Dependency

/-- **A capture comes to the same at one position of trees that are alike.** -/
theorem visit_eq_of_met (h : t.Alike t') (hmet : Met t t' id id') :
    visit m i t levels cx id = visit m i t' levels cx id' := by
  induction levels generalizing id id' with
  | zero =>
    cases h.matches_of_met hmet with
    | literal hn hn' | var hn hn' | call hn hn' _ _ _ | operator hn hn' _ _ _ =>
      simp only [visit, hn, hn']
  | succ levels ih =>
    have heach {args args' : List NodeId} (hargs : List.Forall₂ (Met t t') args args') :
        Capture.each (visit m i t levels cx) args = .each (visit m i t' levels cx) args' :=
      Capture.each_eq_of_forall₂ (hargs.imp fun _ _ harg => ih harg)
    cases h.matches_of_met hmet with
    | literal hn hn' | var hn hn' => simp only [visit, hn, hn']
    | call hn hn' ha ha' hargs | operator hn hn' ha ha' hargs =>
      rw [visit_succ_of_range hn rfl, visit_succ_of_range hn' rfl, ha, ha']
      exact heach hargs

/-- **Formulas that are alike are captured alike.** -/
theorem run_eq_of_alike (h : t.Alike t') : run m i cx t = run m i cx t' :=
  visit_eq_of_met h FormulaTree.met_root

end Dependency

/-! ## Evaluations -/

namespace Evaluation

/-- **An evaluation comes to the same at one position of trees that are alike.** -/
theorem eval_eq_of_met (h : t.Alike t') (hmet : Met t t' id id') :
    eval m i t levels cx id = eval m i t' levels cx id' := by
  induction levels generalizing cx id id' with
  | zero =>
    cases h.matches_of_met hmet with
    | literal hn hn' | var hn hn' | call hn hn' _ _ _ | operator hn hn' _ _ _ =>
      simp only [eval, hn, hn']
  | succ levels ih =>
    cases h.matches_of_met hmet with
    | literal hn hn' | var hn hn' => simp only [eval, hn, hn']
    | call hn hn' ha ha' hargs | operator hn hn' ha ha' hargs =>
      simp only [eval, hn, hn', ha, ha']
      exact (sameUnless_evalCall (hargs.imp fun _ _ harg _ => .inl (ih harg).symm) id'
        fun _ => .inl rfl).eq.symm

/-- **Formulas that are alike are evaluated alike.** -/
theorem run_eq_of_alike (h : t.Alike t') : run m i cx t = run m i cx t' :=
  eval_eq_of_met h FormulaTree.met_root

end Evaluation

/-! ## Workspaces -/

namespace Sample

/-- The formula `flag && flag`, in which the flag is one node. -/
def doubled : FormulaTree where
  nodes := #[⟨.var flag, .dummy⟩, ⟨.operator .and ⟨0, 2⟩, .dummy⟩]
  args := #[⟨0⟩, ⟨0⟩]
  root := ⟨1⟩

/-- The same formula, in which the flag is two nodes, beside a node that is no part of it. -/
def repeated : FormulaTree where
  nodes := #[⟨.operator .and ⟨1, 2⟩, .dummy⟩, ⟨.var flag, .dummy⟩, ⟨.var amount, .dummy⟩,
    ⟨.var flag, .dummy⟩]
  args := #[⟨2⟩, ⟨3⟩, ⟨1⟩]
  root := ⟨0⟩

/-- Negations without end: the root is its own argument. -/
def endless : FormulaTree where
  nodes := #[⟨.operator .not ⟨0, 1⟩, .dummy⟩]
  args := #[⟨0⟩]
  root := ⟨0⟩

/-- Negations without end, in which the root is met once. -/
def headed : FormulaTree where
  nodes := #[⟨.operator .not ⟨0, 1⟩, .dummy⟩, ⟨.operator .not ⟨0, 1⟩, .dummy⟩]
  args := #[⟨1⟩]
  root := ⟨0⟩

theorem alike_repeated : doubled.Alike repeated where
  closed := FormulaTree.closed_of_forall (by decide) (by decide) (by decide)
  closed' := FormulaTree.closed_of_forall (by decide) (by decide) (by decide)
  unfolding := by
    let R (id id' : NodeId) : Prop :=
      id = ⟨1⟩ ∧ id' = ⟨0⟩ ∨ id = ⟨0⟩ ∧ (id' = ⟨1⟩ ∨ id' = ⟨3⟩)
    have hflag : R ⟨0⟩ ⟨1⟩ ∧ R ⟨0⟩ ⟨3⟩ := by simp [R]
    refine FormulaTree.unfolding_eq_of_matches (R := R) ?_ (.inl ⟨rfl, rfl⟩)
    rintro id id' (⟨rfl, rfl⟩ | ⟨rfl, rfl | rfl⟩)
    · exact .operator rfl rfl rfl rfl (.cons hflag.2 (.cons hflag.1 .nil))
    · exact .var rfl rfl
    · exact .var rfl rfl

theorem alike_headed : endless.Alike headed where
  closed := FormulaTree.closed_of_forall (by decide) (by decide) (by decide)
  closed' := FormulaTree.closed_of_forall (by decide) (by decide) (by decide)
  unfolding := by
    let R (id id' : NodeId) : Prop := id = ⟨0⟩ ∧ (id' = ⟨0⟩ ∨ id' = ⟨1⟩)
    have hbelow : R ⟨0⟩ ⟨1⟩ := ⟨rfl, .inr rfl⟩
    refine FormulaTree.unfolding_eq_of_matches (R := R) ?_ ⟨rfl, .inl rfl⟩
    rintro id id' ⟨rfl, rfl | rfl⟩
    · exact .operator rfl rfl rfl rfl (.cons hbelow .nil)
    · exact .operator rfl rfl rfl rfl (.cons hbelow .nil)

end Sample

namespace Workspace

/-- **Formulas that are alike come to the same in every workspace.** A check gives them the
same format or finds the same errors, a capture records the same or stops at the same error,
and an evaluation ends in the same value or the same error. -/
theorem passes_eq_of_alike (h : t.Alike t') (w : Workspace) (cx : ContextMap) :
    w.runSemantics cx t = w.runSemantics cx t' ∧
      w.runDependency cx t = w.runDependency cx t' ∧
      w.runEvaluation cx t = w.runEvaluation cx t' := by
  refine ⟨?_, ?_, ?_⟩
  · simp only [runSemantics, Semantics.run_eq_of_alike h]
  · simp only [runDependency, Dependency.run_eq_of_alike h]
  · simp only [runEvaluation, Evaluation.run_eq_of_alike h]

/-- A flag that is one node or two has one value, and negations without end are as deep with
a root that is met again as with one that is not. -/
theorem passes_eq_of_alike_headed :
    (Sample.doubled.Alike Sample.repeated ∧
        (Sample.alone Sample.manager).runEvaluation Sample.told Sample.repeated =
          .ok (.truth false)) ∧
      Sample.endless.Alike Sample.headed ∧
      (Sample.alone Sample.shallow).runEvaluation Sample.told Sample.headed =
        .error (.nestingTooDeep 3 .dummy) :=
  ⟨⟨Sample.alike_repeated,
      (passes_eq_of_alike Sample.alike_repeated (Sample.alone Sample.manager)
        Sample.told).2.2.symm.trans rfl⟩,
    Sample.alike_headed,
    (passes_eq_of_alike Sample.alike_headed (Sample.alone Sample.shallow)
      Sample.told).2.2.symm.trans rfl⟩

end Workspace

end Formulary
