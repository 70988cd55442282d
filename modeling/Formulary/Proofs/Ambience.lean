import Formulary.Proofs.Dependency.Capture
import Formulary.Proofs.Evaluation.Natives
import Formulary.Proofs.Workspace
/-!
# What the passes for an instance look for in a context

An evaluation and a capture look for values under four names: the manager, the instance, where
to collect, and the tolerance. Contexts that hold the same under these are the same to them
(`ContextMap.Agrees`). So it does not count which format is asserted where a pass starts, nor
what a host adds under other names, in whatever order and beside whatever else it adds
(`agrees_addAll_filter`).

Down in a formula nothing changes about that. Every context is derived from that of the start,
and every implementation is told the tolerance of the start
(`Workspace.heeds_ambient`).
-/

namespace Formulary

/-! ## Contexts that hold the same -/

namespace ContextMap

/-- The names under which the passes for an instance look. -/
def ambient : List String :=
  [Key.manager.name, Key.inst.name, Key.collector.name, Key.tolerance.name]

/-- Two contexts hold the same under these names. -/
def Agrees (cx cx' : ContextMap) : Prop :=
  ∀ name ∈ ambient, cx.entries.find? name = cx'.entries.find? name

variable {cx cx' cx'' : ContextMap} {kind : ContextKind} {key : Key kind}
variable {value : ContextKinds.Carrier kind}

theorem Agrees.refl (cx : ContextMap) : cx.Agrees cx := fun _ _ => rfl

theorem Agrees.symm (h : cx.Agrees cx') : cx'.Agrees cx := fun name hname => (h name hname).symm

theorem Agrees.trans (h : cx.Agrees cx') (h' : cx'.Agrees cx'') : cx.Agrees cx'' :=
  fun name hname => (h name hname).trans (h' name hname)

/-- They answer alike what is asked by such a name. -/
theorem Agrees.get (h : cx.Agrees cx') (hkey : key.name ∈ ambient) : cx.get key = cx'.get key := by
  simp only [ContextMap.get, h key.name hkey]

theorem Agrees.set (h : cx.Agrees cx') : (cx.set key value).Agrees (cx'.set key value) := by
  intro name hname
  simp only [ContextMap.set, Table.find?_insert, h name hname]

/-- **What is written under another name does not count.** -/
theorem agrees_set (hkey : key.name ∉ ambient) : (cx.set key value).Agrees cx := by
  intro name hname
  have hne : ¬ (key.name == name) = true := fun heq => hkey (eq_of_beq heq ▸ hname)
  simp only [ContextMap.set, Table.find?_insert, if_neg hne]

/-- What is asserted is written under another name. -/
theorem agrees_set_asserted (cx : ContextMap) (asserted : Option Format) :
    (cx.set Key.asserted asserted).Agrees cx :=
  agrees_set (by decide)

end ContextMap

/-! ## What a host adds -/

/-- A value that a host adds to a context, under a key of any kind. -/
structure Addition (K : Type := ContextKind) [ContextKinds K] where
  {kind : K}
  key : Key kind
  value : ContextKinds.Carrier kind

namespace ContextMap

/-- The context with what a host adds, one after another. -/
def addAll {K : Type} [ContextKinds K] (cx : ContextMap K) (more : List (Addition K)) :
    ContextMap K :=
  more.foldl (fun cx a => cx.set a.key a.value) cx

variable {cx cx' : ContextMap}

/-- **What is added under other names can be left out.** -/
theorem agrees_addAll_filter (h : cx.Agrees cx') (more : List Addition) :
    (cx.addAll more).Agrees (cx'.addAll (more.filter fun a => a.key.name ∈ ambient)) := by
  induction more generalizing cx cx' with
  | nil => exact h
  | cons a more ih =>
    by_cases ha : a.key.name ∈ ambient
    · rw [List.filter_cons_of_pos (by simpa using ha)]
      exact ih h.set
    · rw [List.filter_cons_of_neg (by simpa using ha)]
      exact ih ((agrees_set ha).trans h)

/-- Contexts go on holding the same when the same is added. -/
theorem Agrees.addAll (h : cx.Agrees cx') (more : List Addition) :
    (cx.addAll more).Agrees (cx'.addAll more) :=
  (agrees_addAll_filter h more).trans (agrees_addAll_filter (.refl cx') more).symm

end ContextMap

namespace ContextFactory

/-- What a host adds to the contexts of a factory, pass by pass and by what they hold. -/
abbrev Additions := Pass → ContextMap → List Addition

/-- The factory that makes the contexts of another and adds to them. -/
def adding (f : ContextFactory) (more : Additions) : ContextFactory where
  decorate pass cx := (f.decorate pass cx).addAll (more pass (f.decorate pass cx))

/-- What is added under the names that count. -/
def Additions.ambient (more : Additions) : Additions :=
  fun pass cx => (more pass cx).filter fun a => a.key.name ∈ ContextMap.ambient

/-- A factory that tells a tolerance is one that adds. -/
theorem withTolerance_eq_adding (tolerance : Float) : withTolerance tolerance =
    plain.adding fun pass _ => if pass = .evaluation then [⟨Key.tolerance, tolerance⟩] else [] := by
  have hdecorate : (withTolerance tolerance).decorate = (plain.adding fun pass _ =>
      if pass = .evaluation then [⟨Key.tolerance, tolerance⟩] else []).decorate := by
    funext pass cx
    cases pass <;> rfl
  exact congrArg ContextFactory.mk hdecorate

end ContextFactory

/-! ## The passes -/

namespace Workspace

open Evaluation (Asks)

variable {w : Workspace} {cx cx' : ContextMap} {t : FormulaTree}

theorem managerOf_congr (h : cx.Agrees cx') : w.managerOf cx = w.managerOf cx' := by
  have hmanager : cx.get Key.manager = cx'.get Key.manager := h.get (by decide)
  simp only [managerOf, hmanager]

/-- **An evaluation comes to the same in contexts that hold the same.** -/
theorem runEvaluation_congr (h : cx.Agrees cx') :
    w.runEvaluation cx t = w.runEvaluation cx' t := by
  have hinst : cx.get Key.inst = cx'.get Key.inst := h.get (by decide)
  have htol : cx.get Key.tolerance = cx'.get Key.tolerance := h.get (by decide)
  simp only [runEvaluation, managerOf_congr h, hinst, Evaluation.run, Evaluation.eval_congr htol]

/-- **A capture comes to the same in contexts that hold the same,** and collects the same. -/
theorem runDependency_congr (h : cx.Agrees cx') :
    w.runDependency cx t = w.runDependency cx' t := by
  have hinst : cx.get Key.inst = cx'.get Key.inst := h.get (by decide)
  have hcollector : cx.get Key.collector = cx'.get Key.collector := h.get (by decide)
  simp only [runDependency, managerOf_congr h, hinst, hcollector, Dependency.run,
    Dependency.visit_congr hcollector]

/-- **The passes for an instance heed four names,** at the start and all the way down. Contexts
that hold the same under these come to the same, in answers and in what is collected. So they
do whichever format is asserted at the start, and with or without what a host adds under other
names, whatever factory it adds to. Whatever implementation is asked, at whatever depth, is
told the tolerance of the start, which is zero if that tells none; and what they would answer
to anything else makes no difference. In particular, the formula of a variable may be worked
out with or without its format asserted, if the host adds the same in both cases. -/
theorem heeds_ambient (w : Workspace) (t : FormulaTree) :
    (∀ cx cx' : ContextMap, cx.Agrees cx' →
      w.runEvaluation cx t = w.runEvaluation cx' t ∧
        w.runDependency cx t = w.runDependency cx' t) ∧
    (∀ (cx : ContextMap) (asserted : Option Format),
      w.runEvaluation (cx.set Key.asserted asserted) t = w.runEvaluation cx t ∧
        w.runDependency (cx.set Key.asserted asserted) t = w.runDependency cx t) ∧
    (∀ (f : ContextFactory) (more : ContextFactory.Additions) id i asserted collector,
      w.runEvaluation ((f.adding more).evaluation id i asserted) t =
          w.runEvaluation ((f.adding more.ambient).evaluation id i asserted) t ∧
        w.runDependency ((f.adding more).dependency id i asserted collector) t =
          w.runDependency ((f.adding more.ambient).dependency id i asserted collector) t) ∧
    (∀ (m : FormulaManager) i cx o context values,
      Asks m i t o context values m.config.maxTreeDepth cx t.root →
        cx.get Key.tolerance = .ok context.tolerance ∧
          (cx.contains Key.tolerance = false → context.tolerance = 0)) ∧
    (∀ (m : FormulaManager) i cx (g : Native → Native),
      (∀ o context values, Asks m i t o context values m.config.maxTreeDepth cx t.root →
        g o.native context values = o.native context values) →
      Evaluation.run (m.mapNatives g) i cx t = Evaluation.run m i cx t) ∧
    ∀ (more : Pass → List Addition) id (v : VariableId) asserted,
      w.runEvaluation ((ContextFactory.plain.adding fun pass _ => more pass).evaluationFor id v) t =
        w.runEvaluation ((ContextFactory.plain.adding fun pass _ => more pass).evaluation id v.owner
          asserted) t := by
  refine ⟨fun cx cx' h => ⟨runEvaluation_congr h, runDependency_congr h⟩,
    fun cx asserted => ?_, fun f more id i asserted collector => ?_,
    fun m i cx o context values h => ?_, fun m i cx g h => Evaluation.eval_mapNatives h,
    fun more id v asserted => ?_⟩
  · have hagrees := cx.agrees_set_asserted asserted
    exact ⟨runEvaluation_congr hagrees, runDependency_congr hagrees⟩
  · exact ⟨runEvaluation_congr (ContextMap.agrees_addAll_filter (.refl _) _),
      runDependency_congr (ContextMap.agrees_addAll_filter (.refl _) _)⟩
  · refine ⟨h.get_tolerance, fun hnone => ?_⟩
    exact Except.ok.inj (h.get_tolerance.symm.trans (Evaluation.tolerance_of_not_contains hnone))
  · refine runEvaluation_congr (ContextMap.Agrees.addAll ?_ _)
    exact (ContextMap.agrees_set_asserted _ _).trans (ContextMap.agrees_set_asserted _ _).symm

end Workspace

namespace Sample

/-- The formula `!(amount < 0)`. -/
def negated : FormulaTree where
  nodes := #[⟨.var amount, .dummy⟩, ⟨.literal (.number .zero), .dummy⟩,
    ⟨.operator .lt ⟨0, 2⟩, .dummy⟩, ⟨.operator .not ⟨2, 1⟩, .dummy⟩]
  args := #[⟨0⟩, ⟨1⟩, ⟨2⟩]
  root := ⟨3⟩

/-- What notes on every evaluation that it is a draft, and tells a tolerance. -/
def noting : ContextFactory.Additions := fun pass _ =>
  if pass = .evaluation then
    [{ kind := ContextKind.text, key := { name := "NOTE" }, value := "draft" },
      ⟨Key.tolerance, 0⟩]
  else []

/-- The note does not count. -/
theorem noting_ambient : noting.ambient =
    fun pass _ => if pass = .evaluation then [⟨Key.tolerance, 0⟩] else [] := by
  funext pass cx
  cases pass <;> rfl

/-- Below the negation the comparison is asked for two zeros. -/
theorem asks_negated : ∃ o, Evaluation.Asks manager someone negated o ⟨0⟩
    [.number .zero, .number .zero] 256 {} ⟨3⟩ := by
  obtain ⟨o, ho⟩ : ∃ o, manager.operators.select .lt [.number, .number] = .ok o := ⟨_, rfl⟩
  have hruns : Evaluation.CallRuns (Evaluation.eval manager someone negated 254)
      (({} : ContextMap).forArgument (some .truth)) (manager.operatorCallee .lt ⟨2⟩ .dummy)
      [⟨0⟩, ⟨1⟩] o ⟨0⟩ [.number .zero, .number .zero] := ⟨rfl, ⟨0, rfl, rfl⟩, ho⟩
  have hpair : ((⟨2⟩ : NodeId), some Format.truth) ∈
      (manager.operatorCallee .not ⟨3⟩ .dummy).withExpected [⟨2⟩] := List.mem_cons_self
  exact ⟨o, .down (.operator rfl rfl hpair) (.here (.operator rfl rfl hruns))⟩

end Sample

namespace Workspace

/-- The comparison is told the tolerance of the start. It may be another that answers alike
there and fails with any other tolerance. The note makes no difference. -/
theorem heeds_ambient_negated :
    (∃ o, Evaluation.Asks Sample.manager Sample.someone Sample.negated o ⟨0⟩
        [.number .zero, .number .zero] 256 {} ⟨3⟩) ∧
      ContextMap.get {} Key.tolerance = .ok 0 ∧
      Evaluation.run (Sample.manager.mapNatives fun native context values =>
          if context.tolerance = 0 then native context values else .error .divisionByZero)
        Sample.someone {} Sample.negated =
        Evaluation.run Sample.manager Sample.someone {} Sample.negated ∧
      (Sample.alone Sample.manager).runEvaluation
          ((ContextFactory.plain.adding Sample.noting).evaluation ⟨0⟩ Sample.someone none)
          Sample.negated =
        (Sample.alone Sample.manager).runEvaluation
          ((ContextFactory.withTolerance 0).evaluation ⟨0⟩ Sample.someone none)
          Sample.negated := by
  obtain ⟨-, -, hadded, htold, hother, -⟩ :=
    heeds_ambient (Sample.alone Sample.manager) Sample.negated
  obtain ⟨o, hasks⟩ := Sample.asks_negated
  refine ⟨⟨o, hasks⟩, (htold _ _ _ _ _ _ hasks).1,
    hother _ _ _ _ fun o context values h => ?_, ?_⟩
  · exact if_pos ((htold _ _ _ _ _ _ h).2 rfl)
  · rw [ContextFactory.withTolerance_eq_adding, ← Sample.noting_ambient]
    exact (hadded .plain Sample.noting ⟨0⟩ Sample.someone none ⟨0⟩).1

end Workspace

end Formulary
