import Formulary.Proofs.Semantics.Typing
import Formulary.Proofs.Tree.Positions
/-!
# A check reports every fault

What is wrong at a position of a formula can be said without a check: there is no node, or
it lies too deep, or its arguments cannot be read, or what it applies is not in the
library or does not take so many arguments, or a name is not found (`fault?`). That takes
no formats. A check goes on after each error, whatever is known of a callee, and so it
reports just these faults, in the order of the positions, beside what is wrong with the
formats of parts that have some (`structural_check`).
-/

namespace Formulary

namespace Sample

/-- The manager of the sample, with three levels to be walked. -/
def shallow : FormulaManager := { manager with config := { maxTreeDepth := 3 } }

/-- A call of no registered function with a conjunction of three, with the negation of a
number, and with itself. Of the three, the second is a name that nobody declared, and the
third an id that no node has. -/
def tangled : FormulaTree where
  nodes := #[⟨.var amount, .dummy⟩, ⟨.var ⟨50⟩, .dummy⟩, ⟨.operator .and ⟨0, 3⟩, .dummy⟩,
    ⟨.operator .not ⟨0, 1⟩, .dummy⟩, ⟨.call ⟨77⟩ ⟨3, 3⟩, .dummy⟩]
  args := #[⟨0⟩, ⟨1⟩, ⟨9⟩, ⟨2⟩, ⟨3⟩, ⟨4⟩]
  root := ⟨4⟩

end Sample

namespace SemanticsError

/-- Whether the error is that a part, or each of several parts, has a format and not the
right one. -/
def ofFormats : SemanticsError → Bool
  | argumentFormatMismatch .. | noMatchingOverload .. | rootFormatMismatch .. => true
  | unresolvedVariable .. | unknownFunction .. | unknownOperator .. | wrongArgCount ..
  | nestingTooDeep .. | config _ => false

end SemanticsError

namespace Semantics

/-- The errors that a check answers with. -/
def errorsOf : Except (List SemanticsError) Format → List SemanticsError
  | .ok _ => []
  | .error errors => errors

/-- The errors that are not of formats, in order. -/
def structural (errors : Findings SemanticsError) : List SemanticsError :=
  errors.toList.filter fun e => !e.ofFormats

/-! ## The fault at a position -/

/-- What is wrong with a name: none of the scopes that may be searched declares it, and
these are all there are, or there are more. -/
def variableFault? (m : FormulaManager) (scope : LegalScope) (name : Name) (span : Span) :
    Option SemanticsError :=
  let searched := scope.ancestors.take m.config.maxScopeDepth
  if searched.any fun s => (m.declarations.declaredFormat? s name).isSome then none
  else if scope.ancestors.length ≤ m.config.maxScopeDepth then
    some (.unresolvedVariable (m.names.lookup name) scope.path span)
  else some (.config (.scopeChainTooDeep scope.path m.config.maxScopeDepth))

/-- What is wrong with a call apart from its arguments. -/
def callFault? {κ : Type} [BEq κ] (c : Callee κ) (unknown : SemanticsError) :
    Option (List NodeId) → Option SemanticsError
  | none => some (.config (.malformedTree c.node))
  | some args =>
    if c.library.contains c.key = false then some unknown
    else if (c.library.overloads c.key).any fun o => o.signature.arity == args.length then none
    else some (.wrongArgCount c.name (c.library.arities c.key) args.length c.span)

/-- What is wrong at an id that is met so deep, where nothing may lie deeper than a limit. The
first reason that applies is the fault. -/
def fault? (m : FormulaManager) (scope : LegalScope) (t : FormulaTree) (limit depth : Nat)
    (id : NodeId) : Option SemanticsError :=
  match t.node? id with
  | none => some (.config (.malformedTree id))
  | some node =>
    if limit < depth then some (.nestingTooDeep m.config.maxTreeDepth node.span)
    else
      match node.kind with
      | .literal _ => none
      | .var name => variableFault? m scope name node.span
      | .call function r =>
        callFault? (m.functionCallee function id node.span)
          (.unknownFunction (m.names.lookup function) node.span) (t.args? r)
      | .operator op r =>
        callFault? (m.operatorCallee op id node.span) (.unknownOperator op node.span) (t.args? r)

variable {m : FormulaManager} {scope : LegalScope} {t : FormulaTree} {cx : ContextMap}
variable {id : NodeId} {span : Span} {asserted : Option Format}

@[simp] theorem structural_singleton (e : SemanticsError) :
    structural (.singleton e) = if e.ofFormats then [] else [e] := by
  rw [structural, Findings.toList_singleton, List.filter_singleton]
  cases e.ofFormats <;> rfl

@[simp] theorem structural_append (f g : Findings SemanticsError) :
    structural (f ++ g) = structural f ++ structural g := by
  rw [structural, Findings.toList_append, List.filter_append]
  rfl

theorem structural_reject {e : SemanticsError} (h : e.ofFormats = false) :
    structural (Verdict.reject e).errors = [e] := by
  rw [Verdict.reject, structural_singleton, h]
  rfl

/-! ## Variables -/

/-- **The check of a variable reports its fault.** -/
theorem structural_checkVariable (name : Name) :
    structural (checkVariable m scope name span).errors =
      (variableFault? m scope name span).toList := by
  unfold variableFault?
  by_cases hdeclared : (scope.ancestors.take m.config.maxScopeDepth).any
      (fun s => (m.declarations.declaredFormat? s name).isSome) = true
  · obtain ⟨s, hs, hformat⟩ := List.any_eq_true.1 hdeclared
    have hlook : ∃ place format, nearest (fun s => m.declarations.declaredFormat? s name)
        m.config.maxScopeDepth scope.ancestors = .found place format :=
      exists_nearest_eq_found hs hformat
    obtain ⟨place, format, hfound⟩ := hlook
    simp only [if_pos hdeclared, checkVariable, FormulaManager.resolveInScope,
      VariableLibrary.resolveInScope, hfound]
    rfl
  · have hnone (s : LegalScope) (hs : s ∈ scope.ancestors.take m.config.maxScopeDepth) :
        m.declarations.declaredFormat? s name = none := by
      rw [Bool.not_eq_true, List.any_eq_false] at hdeclared
      exact Option.not_isSome_iff_eq_none.1 (hdeclared s hs)
    simp only [if_neg hdeclared, checkVariable, FormulaManager.resolveInScope,
      VariableLibrary.resolveInScope, nearest_of_forall_none hnone]
    -- the chain ends within the limit, or goes on beyond it
    by_cases hshort : scope.ancestors.length ≤ m.config.maxScopeDepth
    · simp only [if_pos hshort]
      exact structural_reject rfl
    · simp only [if_neg hshort]
      exact structural_reject rfl

/-! ## Calls -/

section

variable {κ : Type} [BEq κ] {check : ContextMap → NodeId → Verdict} {c : Callee κ}
variable {args : List NodeId} {faults : NodeId → List SemanticsError}
variable (hcheck : ∀ slot arg, structural (check (cx.forArgument slot) arg).errors = faults arg)
include hcheck

/-- Arguments report their faults one after another, whatever is expected of them. -/
theorem structural_allErrors (pairs : List (NodeId × Option Format)) :
    structural (Verdict.allErrors (pairs.map fun p => check (cx.forArgument p.2) p.1)) =
      (pairs.map Prod.fst).flatMap faults := by
  have hpairs : (fun p : NodeId × Option Format =>
      structural (check (cx.forArgument p.2) p.1).errors) = faults ∘ Prod.fst :=
    funext fun p => hcheck p.2 p.1
  rw [structural, Verdict.allErrors, Findings.toList_flatten, List.filter_flatMap,
    List.flatMap_map, List.flatMap_map, List.flatMap_map]
  exact congrArg (List.flatMap · pairs) hpairs

theorem structural_checkUnconstrained :
    structural (checkUnconstrained check cx args) = args.flatMap faults := by
  have hpairs := structural_allErrors hcheck (args.map fun arg => (arg, none))
  rw [List.map_map, List.map_map] at hpairs
  exact hpairs.trans (by simp [Function.comp_def])

/-- A call of a known callee reports that it takes other numbers of arguments, or nothing of
its own but formats; its arguments report their faults in any case. -/
theorem structural_checkKnownCall :
    structural (checkKnownCall check cx c args).errors =
      (if (c.library.overloads c.key).any fun o => o.signature.arity == args.length then []
        else [.wrongArgCount c.name (c.library.arities c.key) args.length c.span]) ++
          args.flatMap faults := by
  unfold checkKnownCall
  cases hslots : c.library.expectedFormats c.key args.length with
  | none =>
    have hnone := Library.expectedFormats_eq_none_iff.1 hslots
    simp only [hnone, structural_append, structural_checkUnconstrained hcheck]
    rfl
  | some slots =>
    have hlength : slots.length = args.length := Library.length_expectedFormats hslots
    have harity : ((c.library.overloads c.key).any fun o => o.signature.arity == args.length) =
        true := by
      rw [← Bool.not_eq_false]
      intro hnone
      rw [Library.expectedFormats_eq_none_iff.2 hnone] at hslots
      cases hslots
    have hargs : structural (Verdict.allErrors
        ((args.zip slots).map fun p => check (cx.forArgument p.2) p.1)) = args.flatMap faults := by
      rw [structural_allErrors hcheck, List.map_fst_zip (Nat.le_of_eq hlength.symm)]
    rw [if_pos harity, List.nil_append]
    dsimp only
    split
    · exact hargs
    · rename_i formats hformats
      split
      · exact hargs
      · -- an overload has so many parameters, so it can only be the formats
        rename_i e hresult
        have hsame : formats.length = args.length := by
          have hverdicts := (mapM_eq_some_iff.1 hformats).length_eq
          rw [List.length_map, List.length_zip, hlength, Nat.min_self] at hverdicts
          exact hverdicts.symm
        have he : e = .noMatchingOverload formats :=
          Library.eq_of_select_eq_error (map_eq_error_iff.1 hresult) (hsame ▸ harity)
        rw [structural_append, hargs, he]
        exact List.append_nil _

/-- **A call reports its fault, and then its arguments report theirs,** whether the callee is
known or not. -/
theorem structural_checkCall {unknown : SemanticsError} (hu : unknown.ofFormats = false)
    (args? : Option (List NodeId)) :
    structural (checkCall check cx c unknown args?).errors =
      (callFault? c unknown args?).toList ++ (args?.getD []).flatMap faults := by
  cases args? with
  | none => exact structural_reject rfl
  | some args =>
    simp only [checkCall, callFault?, Option.getD_some]
    cases c.library.contains c.key with
    | true =>
      rw [if_pos rfl, if_neg (by simp), structural_checkKnownCall hcheck]
      split <;> rfl
    | false =>
      rw [if_neg (by simp), if_pos rfl, structural_append, structural_singleton, hu,
        structural_checkUnconstrained hcheck]
      rfl

end

/-! ## Formulas -/

/-- What is asked of a part adds nothing but an error of formats. -/
theorem structural_checkAsserted (ha : cx.get Key.asserted = .ok asserted) (v : Verdict) :
    structural (checkAsserted t cx id span v).errors = structural v.errors := by
  unfold checkAsserted
  split
  · rfl
  · rw [ha]
    cases asserted with
    | none => rfl
    | some expected =>
      dsimp only
      split
      · rfl
      · split <;> simp [SemanticsError.ofFormats]

/-- **A check of a part reports the faults of the positions below it.** So many levels are
above the part, and all others of the limit are to go. -/
theorem structural_check {levels depth limit : Nat} (hlimit : depth + levels = limit)
    (ha : cx.get Key.asserted = .ok asserted) :
    structural (check m scope t levels cx id).errors =
      (t.positions levels id).filterMap fun p =>
        fault? m scope t limit (depth + p.1.length + 1) p.2 := by
  induction levels generalizing cx id asserted depth with
  | zero =>
    have hdeep : limit < depth + 0 + 1 := by omega
    simp only [FormulaTree.positions, List.filterMap_cons, List.filterMap_nil, List.length_nil]
    cases hn : t.node? id with
    | none =>
      simp only [check, fault?, hn]
      exact structural_reject rfl
    | some node =>
      simp only [check, fault?, hn, if_pos hdeep]
      exact structural_reject rfl
  | succ levels ih =>
    rw [FormulaTree.filterMap_positions_succ fun k id => fault? m scope t limit (depth + k + 1) id]
    have hstep (slot : Option Format) (arg : NodeId) :
        structural (check m scope t levels (cx.forArgument slot) arg).errors =
          (t.positions levels arg).filterMap fun p =>
            fault? m scope t limit (depth + (p.1.length + 1) + 1) p.2 := by
      rw [ih (by omega : depth + 1 + levels = limit) (get_forArgument cx slot)]
      simp only [Nat.add_right_comm, Nat.add_assoc]
    have hshallow : ¬ limit < depth + 0 + 1 := by omega
    cases hn : t.node? id with
    | none =>
      simp only [check, fault?, hn, FormulaTree.argsOf_of_none hn, List.flatMap_nil,
        List.append_nil]
      exact structural_reject rfl
    | some node =>
      obtain ⟨kind, span⟩ := node
      simp only [check, fault?, hn, if_neg hshallow, structural_checkAsserted ha,
        FormulaTree.argsOf_of_node hn]
      cases kind with
      | literal value => rfl
      | var name => exact (structural_checkVariable name).trans (List.append_nil _).symm
      | call function r => exact structural_checkCall hstep rfl (t.args? r)
      | operator op r => exact structural_checkCall hstep rfl (t.args? r)

/-- A check answers with all that it found. -/
theorem errorsOf_run :
    errorsOf (run m scope cx t) =
      (check m scope t m.config.maxTreeDepth cx t.root).errors.toList := by
  simp only [run]
  split
  · rename_i hnone
    exact hnone.symm
  · rfl

/-- **A check reports the fault of each position, and no other errors but those of formats,**
from the top and from the left. -/
theorem errors_run_eq_faults (ha : cx.get Key.asserted = .ok asserted) :
    ((errorsOf (run m scope cx t)).filter fun e => !e.ofFormats) =
        (t.positions m.config.maxTreeDepth t.root).filterMap
          (fun p => fault? m scope t m.config.maxTreeDepth (p.1.length + 1) p.2) ∧
      (∀ path id, (path, id) ∈ t.positions m.config.maxTreeDepth t.root ↔
        t.Visited m.config.maxTreeDepth path id) ∧
      (t.positions m.config.maxTreeDepth t.root).Pairwise fun p q => p.1 < q.1 := by
  refine ⟨?_, fun path id => FormulaTree.mem_positions_iff,
    FormulaTree.pairwise_positions t m.config.maxTreeDepth t.root⟩
  have hcheck : structural (check m scope t m.config.maxTreeDepth cx t.root).errors = _ :=
    structural_check (Nat.zero_add m.config.maxTreeDepth) ha
  rw [errorsOf_run]
  simpa only [structural, Nat.zero_add] using hcheck

/-- The faults of a formula that contains itself, down to the level below the limit. That
a number was negated is an error of formats, and not among them. -/
theorem errors_run_tangled :
    ({} : ContextMap).get Key.asserted = .ok none ∧
      ((errorsOf (run Sample.shallow Sample.all {} Sample.tangled)).filter
        fun e => !e.ofFormats).map SemanticsError.code =
        [.undefinedFunction, .argumentCount, .undeclaredVariable, .malformedTree,
          .undefinedFunction, .argumentCount, .formulaTooDeep, .formulaTooDeep, .malformedTree,
          .formulaTooDeep, .undefinedFunction, .formulaTooDeep, .formulaTooDeep,
          .formulaTooDeep] := by
  have ha : ({} : ContextMap).get Key.asserted = .ok none := rfl
  refine ⟨ha, ?_⟩
  rw [(errors_run_eq_faults ha).1]
  rfl

end Semantics

end Formulary
