import Formulary.Proofs.Evaluation.Captured
import Formulary.Proofs.Semantics.Blame
import Formulary.Proofs.Tree.Building
/-!
# What the passes say against a tree

Two errors of a pass are about the tree and nothing else: that it is malformed, and that it
is too deep. A pass that reports one of them has walked down to the place where the tree
has that fault (`FormulaTree.HasFault`). This is proved down the levels, once for each pass
(`Semantics.hasFault_of_check`, `Dependency.hasFault_of_visit`, `Evaluation.hasFault_of_eval`):
a part has a fault of its own, or an argument has it, one level further down.

A tree that was built from the bottom has nothing that dangles, and no way down that is
longer than the number of its root. So no pass calls it malformed, and none calls it too
deep, if as many levels may be walked as it has nodes (`Workspace.passes_of_built`).
-/

namespace Formulary

/-- What a pass may have against a tree. -/
inductive TreeFault where
  /-- It refers to what it does not contain. -/
  | malformed
  /-- It has too many levels. -/
  | tooDeep

/-- What the error says against the tree. -/
def ConfigError.treeFault? : ConfigError → Option TreeFault
  | malformedTree _ => some .malformed
  | _ => none

@[inherit_doc ConfigError.treeFault?]
def SemanticsError.treeFault? : SemanticsError → Option TreeFault
  | nestingTooDeep .. => some .tooDeep
  | config e => e.treeFault?
  | _ => none

@[inherit_doc ConfigError.treeFault?]
def DependencyError.treeFault? : DependencyError → Option TreeFault
  | nestingTooDeep .. => some .tooDeep
  | config e => e.treeFault?
  | _ => none

@[inherit_doc ConfigError.treeFault?]
def EvalError.treeFault? : EvalError → Option TreeFault
  | nestingTooDeep .. => some .tooDeep
  | config e => e.treeFault?
  | _ => none

namespace FormulaTree

/-- What a walk from an id, so many levels down, may find. -/
inductive HasFault (t : FormulaTree) (levels : Nat) (id : NodeId) : TreeFault → Prop
  /-- An id that is reached has no node. -/
  | dangling {k : Nat} {below : NodeId} (hk : t.Reaches k id below) (hn : t.node? below = none) :
      HasFault t levels id .malformed
  /-- The arguments of a node that is reached lie outside the array. -/
  | unreadable {k : Nat} {below : NodeId} {node : Node} {r : ArgRange} (hk : t.Reaches k id below)
      (hn : t.node? below = some node) (hr : node.kind.range? = some r) (ha : t.args? r = none) :
      HasFault t levels id .malformed
  /-- Something is reached when no level is left. -/
  | deep {below : NodeId} (hk : t.Reaches levels id below) : HasFault t levels id .tooDeep

variable {t : FormulaTree} {levels : Nat} {id arg : NodeId} {fault : TreeFault}

/-- **The fault of an argument is one of what it is an argument of,** a level further down. -/
theorem HasFault.of_argument (harg : arg ∈ t.argsOf id) (h : t.HasFault levels arg fault) :
    t.HasFault (levels + 1) id fault := by
  cases h with
  | dangling hk hn => exact .dangling (reaches_succ_iff.2 ⟨arg, harg, hk⟩) hn
  | unreadable hk hn hr ha => exact .unreadable (reaches_succ_iff.2 ⟨arg, harg, hk⟩) hn hr ha
  | deep hk => exact .deep (reaches_succ_iff.2 ⟨arg, harg, hk⟩)

/-- **Where every node is above its arguments nothing dangles,** and no way down is longer than
the number of the node where it starts. -/
theorem HasFault.of_descends (hdescends : t.Descends) (hid : (t.node? id).isSome = true)
    (h : t.HasFault levels id fault) : fault = .tooDeep ∧ levels ≤ id.index := by
  cases h with
  | dangling hk hn =>
    have hsome := hdescends.isSome_node? hid hk
    rw [hn] at hsome
    cases hsome
  | @unreadable k below node r _ hn hr ha =>
    obtain ⟨args, hargs, -⟩ := hdescends below node r hn hr
    rw [ha] at hargs
    cases hargs
  | deep hk =>
    have hle := hdescends.index_add_le hk
    exact ⟨rfl, by omega⟩

end FormulaTree

/-- What a context does not hold is no fault of a tree. -/
theorem ContextMap.treeFault?_of_get {kind : ContextKind} {cx : ContextMap} {key : Key kind}
    {e : ConfigError} (h : cx.get key = .error e) : e.treeFault? = none := by
  have hwalk := ofWalk_of_get h
  cases e <;> first | rfl | cases hwalk

variable {m : FormulaManager} {i : ScopeInstance} {scope : LegalScope} {t : FormulaTree}
variable {cx : ContextMap} {levels : Nat} {id : NodeId} {fault : TreeFault} {name : Name}

/-- A chain of scopes that is too long is no fault of a tree. -/
theorem FormulaManager.treeFault?_of_resolveName {e : ConfigError}
    (h : m.resolveName i name = .error (.config e)) : e.treeFault? = none := by
  unfold resolveName VariableLibrary.resolve at h
  split at h
  · cases h
  · cases h
    rfl
  · cases h

/-! ## Checks -/

namespace Semantics

/-- **All that is wrong with a call itself, as for the tree,** is that its arguments cannot be
read. -/
theorem treeFault?_of_callFault? {κ : Type} [BEq κ] {c : Callee κ} {unknown e : SemanticsError}
    {args? : Option (List NodeId)} (hunknown : unknown.treeFault? = none)
    (he : callFault? c unknown args? = some e) (hfault : e.treeFault? = some fault) :
    args? = none ∧ fault = .malformed := by
  cases args? with
  | none =>
    obtain rfl := Option.some.inj he
    exact ⟨rfl, (Option.some.inj hfault).symm⟩
  | some args =>
    rw [callFault?] at he
    split at he
    · obtain rfl := Option.some.inj he
      rw [hunknown] at hfault
      cases hfault
    · split at he
      · cases he
      · obtain rfl := Option.some.inj he
        cases hfault

/-- **The fault of a visit, if it is one of the tree, is true of it.** -/
theorem hasFault_of_fault? {e : SemanticsError} (he : fault? m scope t levels 1 id = some e)
    (hfault : e.treeFault? = some fault) : t.HasFault levels id fault := by
  unfold fault? at he
  cases hn : t.node? id with
  | none =>
    simp only [hn, Option.some.injEq] at he
    rw [← he] at hfault
    cases hfault
    exact .dangling .here hn
  | some node =>
    obtain ⟨kind, span⟩ := node
    simp only [hn] at he
    split at he
    · rename_i hdeep
      obtain rfl : levels = 0 := by omega
      rw [← Option.some.inj he] at hfault
      cases hfault
      exact .deep .here
    · cases kind with
      | literal value => cases he
      | var name =>
        simp only [variableFault?] at he
        split at he
        · cases he
        · split at he <;>
          · rw [← Option.some.inj he] at hfault
            cases hfault
      | call function r =>
        obtain ⟨ha, rfl⟩ := treeFault?_of_callFault? rfl he hfault
        exact .unreadable .here hn rfl ha
      | operator op r =>
        obtain ⟨ha, rfl⟩ := treeFault?_of_callFault? rfl he hfault
        exact .unreadable .here hn rfl ha

/-- **What a visit has against the tree of its own is true of it.** -/
theorem hasFault_of_own {v : Visit} {e : SemanticsError} (he : e ∈ v.own m scope t)
    (hfault : e.treeFault? = some fault) : t.HasFault v.levels v.id fault := by
  rcases Visit.of_mem_own he with hformats | he | ⟨err, hget, rfl⟩
  · -- an error of formats is about parts that are there
    cases e <;> cases hformats <;> cases hfault
  · exact hasFault_of_fault? he hfault
  · rw [SemanticsError.treeFault?, ContextMap.treeFault?_of_get hget] at hfault
    cases hfault

/-- What a visit finds lies below where the check starts. -/
theorem hasFault_of_mem_visits {v : Visit} (hv : v ∈ visits m t levels cx id)
    (h : t.HasFault v.levels v.id fault) : t.HasFault levels id fault := by
  induction levels generalizing cx id with
  | zero =>
    rw [List.mem_singleton.1 hv] at h
    exact h
  | succ levels ih =>
    rw [visits, List.mem_cons, List.mem_flatMap] at hv
    rcases hv with rfl | ⟨a, ha, hv⟩
    · exact h
    · exact (ih hv).of_argument (id_mem_of_mem_arguments ha)

/-- **What a check says against a tree is true of it.** -/
theorem hasFault_of_check {e : SemanticsError}
    (he : e ∈ (check m scope t levels cx id).errors.toList) (hfault : e.treeFault? = some fault) :
    t.HasFault levels id fault := by
  obtain ⟨v, hv, hown⟩ := List.mem_flatMap.1 ((errors_perm_own levels cx id).mem_iff.1 he)
  exact hasFault_of_mem_visits hv (hasFault_of_own hown hfault)

end Semantics

/-! ## Captures -/

namespace Dependency

/-- What keeps a name from being recorded is no fault of a tree. -/
theorem treeFault?_of_visitVariable {span : Span} {e : DependencyError}
    (he : (visitVariable m i cx name span).failure? = some e) : e.treeFault? = none := by
  unfold visitVariable at he
  split at he
  · cases he
    rfl
  · rename_i e' hconfig
    cases he
    exact FormulaManager.treeFault?_of_resolveName hconfig
  · split at he
    · rename_i e' hget
      cases he
      exact ContextMap.treeFault?_of_get hget
    · cases he

/-- **What a capture says against a tree is true of it.** -/
theorem hasFault_of_visit {e : DependencyError} (he : (visit m i t levels cx id).failure? = some e)
    (hfault : e.treeFault? = some fault) : t.HasFault levels id fault := by
  induction levels generalizing id with
  | zero =>
    unfold visit at he
    cases hn : t.node? id with
    | none =>
      simp only [hn] at he
      cases he
      cases hfault
      exact .dangling .here hn
    | some node =>
      simp only [hn] at he
      cases he
      cases hfault
      exact .deep .here
  | succ levels ih =>
    cases hn : t.node? id with
    | none =>
      simp only [visit, hn] at he
      cases he
      cases hfault
      exact .dangling .here hn
    | some node =>
      obtain ⟨kind, span⟩ := node
      have hcall {r : ArgRange} (hr : kind.range? = some r) : t.HasFault (levels + 1) id fault := by
        rw [visit_succ_of_range hn hr] at he
        cases ha : t.args? r with
        | none =>
          rw [ha] at he
          cases he
          cases hfault
          exact .unreadable .here hn hr ha
        | some args =>
          rw [ha] at he
          dsimp only at he
          rw [Capture.failure?_each] at he
          obtain ⟨arg, harg, he⟩ := List.exists_of_findSome?_eq_some he
          rw [← FormulaTree.argsOf_of_args? hn hr ha] at harg
          exact (ih he).of_argument harg
      cases kind with
      | literal value =>
        simp only [visit, hn] at he
        cases he
      | var name =>
        simp only [visit, hn] at he
        rw [treeFault?_of_visitVariable he] at hfault
        cases hfault
      | call function r => exact hcall rfl
      | operator op r => exact hcall rfl

end Dependency

/-! ## Evaluations -/

namespace Evaluation

/-- What has nothing to do with a walk has nothing to do with the tree. -/
theorem treeFault?_of_ofWalk {e : EvalError} (h : e.ofWalk = false) : e.treeFault? = none := by
  cases e with
  | config e => cases e <;> first | rfl | cases h
  | nestingTooDeep limit span => cases h
  | _ => rfl

/-- A variable that has no value is no fault of a tree. -/
theorem treeFault?_of_evalVariable {span : Span} {e : EvalError}
    (he : evalVariable m i name span = .error e) : e.treeFault? = none := by
  unfold evalVariable at he
  split at he
  · cases he
    rfl
  · rename_i e' hconfig
    cases he
    exact FormulaManager.treeFault?_of_resolveName hconfig
  · split at he
    · cases he
    · cases he
      rfl

/-- **What a call has against a tree, an argument has.** -/
theorem exists_of_evalCall {κ : Type} [BEq κ] {c : Callee κ} {args : List NodeId}
    {eval : ContextMap → NodeId → Except EvalError Value} {e : EvalError}
    (he : evalCall eval cx c (some args) = .error e) (hfault : e.treeFault? = some fault) :
    ∃ arg ∈ args, Fails eval cx arg e := by
  rcases evalCall_eq_error he with hfails | ⟨values, hanswer⟩ | rfl | ⟨found, rfl⟩
  · exact hfails
  · rw [treeFault?_of_ofWalk (ofWalk_of_answer hanswer)] at hfault
    cases hfault
  · cases hfault
  · cases hfault

/-- **What an evaluation says against a tree is true of it.** -/
theorem hasFault_of_eval {e : EvalError} (he : eval m i t levels cx id = .error e)
    (hfault : e.treeFault? = some fault) : t.HasFault levels id fault := by
  induction levels generalizing cx id with
  | zero =>
    unfold eval at he
    cases hn : t.node? id with
    | none =>
      simp only [hn] at he
      cases he
      cases hfault
      exact .dangling .here hn
    | some node =>
      simp only [hn] at he
      cases he
      cases hfault
      exact .deep .here
  | succ levels ih =>
    cases hn : t.node? id with
    | none =>
      simp only [eval, hn] at he
      cases he
      cases hfault
      exact .dangling .here hn
    | some node =>
      obtain ⟨kind, span⟩ := node
      have hcall {κ : Type} [BEq κ] {c : Callee κ} {r : ArgRange} (hr : kind.range? = some r)
          (he : evalCall (eval m i t levels) cx c (t.args? r) = .error e) :
          t.HasFault (levels + 1) id fault := by
        cases ha : t.args? r with
        | none =>
          rw [ha] at he
          cases he
          cases hfault
          exact .unreadable .here hn hr ha
        | some args =>
          rw [ha] at he
          obtain ⟨arg, harg, slot, he⟩ := exists_of_evalCall he hfault
          rw [← FormulaTree.argsOf_of_args? hn hr ha] at harg
          exact (ih he).of_argument harg
      simp only [eval, hn] at he
      cases kind with
      | literal value => cases he
      | var name =>
        rw [treeFault?_of_evalVariable he] at hfault
        cases hfault
      | call function r => exact hcall rfl he
      | operator op r => exact hcall rfl he

end Evaluation

/-! ## Passes -/

namespace Sample

/-- A conjunction of a conjunction with itself, which is one of a literal with itself. -/
def layered : TreeBuilder where
  names := .fresh
  nodes := #[⟨.literal (.truth true), .dummy⟩, ⟨.operator .and ⟨0, 2⟩, .dummy⟩,
    ⟨.operator .and ⟨2, 2⟩, .dummy⟩]
  args := #[⟨0⟩, ⟨0⟩, ⟨1⟩, ⟨1⟩]

theorem built_layered : layered.Built [⟨2⟩, ⟨1⟩, ⟨0⟩] := by
  let one : TreeBuilder := { names := .fresh, nodes := #[⟨.literal (.truth true), .dummy⟩] }
  let two : TreeBuilder :=
    { one with
      nodes := one.nodes.push ⟨.operator .and ⟨0, 2⟩, .dummy⟩
      args := #[⟨0⟩, ⟨0⟩] }
  have hroom (b : TreeBuilder) (hb : b.names = .fresh ∧ b.nodes.size < 3 ∧ b.args.size < 3) :
      b.HasRoom := by
    obtain ⟨hnames, hnodes, hargs⟩ := hb
    refine ⟨Nat.lt_trans hnodes (by decide), Nat.le_trans (Nat.le_of_lt hargs) (by decide), ?_⟩
    rw [hnames]
    decide
  have hone : TreeBuilder.Built one [⟨0⟩] :=
    (TreeBuilder.Built.start .fresh).step (s := .truth true) (hroom _ ⟨rfl, by decide, by decide⟩)
      (by decide) (by decide) rfl
  have htwo : TreeBuilder.Built two [⟨1⟩, ⟨0⟩] :=
    hone.step (s := .operator .and #[⟨0⟩, ⟨0⟩]) (hroom _ ⟨rfl, by decide, by decide⟩) (by decide)
      (by decide) rfl
  exact htwo.step (s := .operator .and #[⟨1⟩, ⟨1⟩]) (hroom _ ⟨rfl, by decide, by decide⟩)
    (by decide) (by decide) rfl

end Sample

namespace Workspace

variable {w : Workspace}

/-- No pass has a certain fault to report of a tree, in a context. -/
structure Spares (w : Workspace) (cx : ContextMap) (t : FormulaTree) (fault : TreeFault) :
    Prop where
  semantics : ∀ e ∈ Semantics.errorsOf (w.runSemantics cx t), e.treeFault? ≠ some fault
  dependency : ∀ e, (w.runDependency cx t).1 = .error e → e.treeFault? ≠ some fault
  evaluation : ∀ e, w.runEvaluation cx t = .error e → e.treeFault? ≠ some fault

/-- That a manager is missing is no fault of a tree. -/
theorem treeFault?_of_managerOf {e : ConfigError} (h : w.managerOf cx = .error e) :
    e.treeFault? = none := by
  unfold managerOf at h
  split at h
  · rename_i e' hget
    cases h
    exact ContextMap.treeFault?_of_get hget
  · split at h
    · cases h
    · cases h
      rfl

/-- **No pass reports a fault that the tree does not have,** down to the level to which the
manager lets it walk. -/
theorem spares_of_not_hasFault
    (h : ∀ m, w.managerOf cx = .ok m → ¬ t.HasFault m.config.maxTreeDepth t.root fault) :
    w.Spares cx t fault where
  semantics e he hfault := by
    unfold runSemantics at he
    split at he
    · rename_i e' hm
      rw [List.mem_singleton.1 he, SemanticsError.treeFault?, treeFault?_of_managerOf hm] at hfault
      cases hfault
    · rename_i m hm
      split at he
      · rename_i e' hget
        rw [List.mem_singleton.1 he, SemanticsError.treeFault?,
          ContextMap.treeFault?_of_get hget] at hfault
        cases hfault
      · rw [Semantics.errorsOf_run] at he
        exact h m hm (Semantics.hasFault_of_check he hfault)
  dependency e he hfault := by
    cases hm : w.managerOf cx with
    | error e' =>
      simp only [runDependency, hm] at he
      cases he
      rw [DependencyError.treeFault?, treeFault?_of_managerOf hm] at hfault
      cases hfault
    | ok m =>
      cases hi : cx.get Key.inst with
      | error e' =>
        simp only [runDependency, hm, hi] at he
        cases he
        rw [DependencyError.treeFault?, ContextMap.treeFault?_of_get hi] at hfault
        cases hfault
      | ok i =>
        rw [runDependency_eq_deliver hm hi] at he
        rcases deliver_eq_error he with he | ⟨e', hget, rfl⟩
        · exact h m hm (Dependency.hasFault_of_visit he hfault)
        · rw [DependencyError.treeFault?, ContextMap.treeFault?_of_get hget] at hfault
          cases hfault
  evaluation e he hfault := by
    unfold runEvaluation at he
    split at he
    · rename_i e' hm
      cases he
      rw [EvalError.treeFault?, treeFault?_of_managerOf hm] at hfault
      cases hfault
    · rename_i m hm
      split at he
      · rename_i e' hget
        cases he
        rw [EvalError.treeFault?, ContextMap.treeFault?_of_get hget] at hfault
        cases hfault
      · exact h m hm (Evaluation.hasFault_of_eval he hfault)

/-- **A tree that was built from the bottom is safe for every pass.** Every node is above its
arguments, and none lies below itself. No pass calls the tree malformed, with whatever
manager, and none calls it too deep if the manager lets it walk as many levels as the tree
has nodes. -/
theorem passes_of_built {b : TreeBuilder} {handed : List NodeId} {root : NodeId}
    (h : b.Built handed) (hroot : root ∈ handed) :
    (b.finish root).Descends ∧ (∀ k id, (b.finish root).Reaches k id id → k = 0) ∧
      ∀ (w : Workspace) (cx : ContextMap), w.Spares cx (b.finish root) .malformed ∧
        ((∀ m, w.managerOf cx = .ok m → (b.finish root).size ≤ m.config.maxTreeDepth) →
          w.Spares cx (b.finish root) .tooDeep) := by
  have hdescends : (b.finish root).Descends := h.sound.descends root
  have hlt : root.index < (b.finish root).size := h.sound.handed root hroot
  have hsome : ((b.finish root).node? root).isSome = true := by
    rw [FormulaTree.node?, isSome_getElem?]
    exact hlt
  refine ⟨hdescends, fun k id hk => hdescends.eq_zero_of_reaches_self hk, fun w cx => ⟨?_, ?_⟩⟩
  · refine spares_of_not_hasFault fun m _ hfault => ?_
    cases (hfault.of_descends hdescends hsome).1
  · intro hlevels
    refine spares_of_not_hasFault fun m hm hfault => ?_
    have hle : m.config.maxTreeDepth ≤ root.index := (hfault.of_descends hdescends hsome).2
    have hsize := hlevels m hm
    omega

/-- Three nodes that share all their parts, with three levels to walk: the formula is checked
and worked out. -/
theorem passes_of_built_layered :
    Sample.layered.Built [⟨2⟩, ⟨1⟩, ⟨0⟩] ∧
      (Sample.alone Sample.shallow).Spares Sample.told (Sample.layered.finish ⟨2⟩) .malformed ∧
      (Sample.alone Sample.shallow).Spares Sample.told (Sample.layered.finish ⟨2⟩) .tooDeep ∧
      (Sample.alone Sample.shallow).runSemantics Sample.told (Sample.layered.finish ⟨2⟩) =
        .ok .truth := by
  obtain ⟨-, -, hspares⟩ := passes_of_built Sample.built_layered List.mem_cons_self
  obtain ⟨hmalformed, hdeep⟩ := hspares (Sample.alone Sample.shallow) Sample.told
  refine ⟨Sample.built_layered, hmalformed, hdeep fun m hm => ?_, rfl⟩
  have hseen : (Sample.alone Sample.shallow).managerOf Sample.told =
      .ok (Sample.seen Sample.shallow) := rfl
  rw [hseen, Except.ok.injEq] at hm
  rw [← hm]
  decide

end Workspace

end Formulary
