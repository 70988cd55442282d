import Formulary.Proofs.Semantics.Typing
import Formulary.Proofs.Tree.Positions
/-!
# The visits of a check

A check visits the root of a formula, and from a call it visits the arguments. A visit
comes to a verdict, and all that it takes from below are the verdicts on its arguments
(`verdict_eq_conclude`). That is one equation for a visit, whatever is visited. What a
check does at every visit is proved from it, and from nothing else of the check.

The visits from an id are those of the positions of the unfolding (`map_id_visits`).
-/

namespace Formulary

namespace Semantics

/-- A visit of a check: of the part at an id, in a context, with so many levels to go. -/
structure Visit where
  /-- The levels that may still be walked. -/
  levels : Nat
  /-- What the visit is told. -/
  cx : ContextMap
  id : NodeId

/-! ## From the verdicts on the arguments -/

section

variable {κ : Type} [BEq κ]

/-- The visits of the arguments of a call, each told what is expected there. -/
def argumentVisits (c : Callee κ) (levels : Nat) (cx : ContextMap)
    (args? : Option (List NodeId)) : List Visit :=
  ((args?.map c.withExpected).getD []).map fun p => ⟨levels, cx.forArgument p.2, p.1⟩

/-- The verdict on a call whose arguments have these verdicts. -/
def judgeCall (c : Callee κ) (unknown : SemanticsError) (args? : Option (List NodeId))
    (verdicts : List Verdict) : Verdict :=
  match args? with
  | none => .reject (.config (.malformedTree c.node))
  | some args =>
    let errors := Verdict.allErrors verdicts
    if c.library.contains c.key then
      match c.library.expectedFormats c.key args.length with
      | none =>
        let error := .wrongArgCount c.name (c.library.arities c.key) args.length c.span
        ⟨.singleton error ++ errors, none⟩
      | some _ =>
        match Verdict.allFormats verdicts with
        | none => ⟨errors, none⟩
        | some formats =>
          match c.library.resultFormat c.key formats with
          | .ok format => ⟨errors, some format⟩
          | .error e => ⟨errors ++ callError c.name c.span e, none⟩
    else ⟨.singleton unknown ++ errors, none⟩

end

namespace Visit

variable (m : FormulaManager) (scope : LegalScope) (t : FormulaTree)

/-- The verdict that a visit comes to. -/
def verdict (v : Visit) : Verdict := check m scope t v.levels v.cx v.id

/-- The visits of the arguments of what is visited. -/
def arguments (v : Visit) : List Visit :=
  match v.levels, t.node? v.id with
  | levels + 1, some ⟨.call function r, span⟩ =>
    argumentVisits (m.functionCallee function v.id span) levels v.cx (t.args? r)
  | levels + 1, some ⟨.operator op r, span⟩ =>
    argumentVisits (m.operatorCallee op v.id span) levels v.cx (t.args? r)
  | _, _ => []

/-- What a visit makes of the verdicts on the arguments. -/
def conclude (v : Visit) (verdicts : List Verdict) : Verdict :=
  match t.node? v.id with
  | none => .reject (.config (.malformedTree v.id))
  | some node =>
    match v.levels with
    | 0 => .reject (.nestingTooDeep m.config.maxTreeDepth node.span)
    | _ + 1 =>
      checkAsserted t v.cx v.id node.span <|
        match node.kind with
        | .literal value => .accept value.format
        | .var name => checkVariable m scope name node.span
        | .call function r =>
          let c := m.functionCallee function v.id node.span
          judgeCall c (.unknownFunction c.name node.span) (t.args? r) verdicts
        | .operator op r =>
          judgeCall (m.operatorCallee op v.id node.span) (.unknownOperator op node.span)
            (t.args? r) verdicts

end Visit

variable {m : FormulaManager} {scope : LegalScope} {t : FormulaTree} {v a : Visit}

/-! ## One equation for a visit -/

section

variable {κ : Type} [BEq κ] {c : Callee κ} {unknown : SemanticsError} {levels : Nat}
variable {cx : ContextMap} {args? : Option (List NodeId)}

/-- Where the library expects nothing, nothing is what the arguments are told. -/
theorem withExpected_of_none {args : List NodeId}
    (h : c.library.expectedFormats c.key args.length = none) :
    c.withExpected args = args.map fun arg => (arg, none) := by
  rw [Callee.withExpected, Callee.expected, h, Option.getD_none]
  clear h
  induction args with
  | nil => rfl
  | cons arg rest ih => rw [List.length_cons, List.replicate_succ, List.zip_cons_cons, ih, List.map_cons]

theorem length_argumentVisits :
    (argumentVisits c levels cx args?).length = (args?.getD []).length := by
  cases args? with
  | none => rfl
  | some args =>
    have hfst := congrArg List.length (c.map_fst_withExpected args)
    rw [List.length_map] at hfst
    simpa [argumentVisits] using hfst

/-- The arguments of a call are visited from the left, each once. -/
theorem map_id_argumentVisits :
    (argumentVisits c levels cx args?).map Visit.id = args?.getD [] := by
  cases args? with
  | none => rfl
  | some args =>
    rw [argumentVisits, List.map_map]
    exact c.map_fst_withExpected args

/-- **The verdict on a call is made of the verdicts on its arguments,** whether the callee is
known or not. -/
theorem checkCall_eq_judgeCall (f : ContextMap → NodeId → Verdict) :
    checkCall f cx c unknown args? = judgeCall c unknown args?
      (((args?.map c.withExpected).getD []).map fun p => f (cx.forArgument p.2) p.1) := by
  cases args? with
  | none => rfl
  | some args =>
    have hunconstrained (hslots : c.library.expectedFormats c.key args.length = none) :
        checkUnconstrained f cx args = Verdict.allErrors
          ((c.withExpected args).map fun p => f (cx.forArgument p.2) p.1) := by
      rw [withExpected_of_none hslots, List.map_map, checkUnconstrained]
      rfl
    simp only [checkCall, judgeCall, Option.map_some, Option.getD_some]
    split
    · unfold checkKnownCall
      cases hslots : c.library.expectedFormats c.key args.length with
      | none => simp only [hunconstrained hslots]
      | some slots =>
        have hpairs : c.withExpected args = args.zip slots := by
          rw [Callee.withExpected, Callee.expected, hslots, Option.getD_some]
        exact hpairs ▸ rfl
    · rename_i habsent
      have hslots : c.library.expectedFormats c.key args.length = none := by
        rw [Library.expectedFormats_eq_none_iff, List.any_eq_false]
        intro o ho
        exact absurd (Library.contains_of_mem_overloads ho) habsent
      rw [hunconstrained hslots]

/-- The visits of the arguments come to the verdicts on them. -/
theorem map_verdict_argumentVisits :
    (argumentVisits c levels cx args?).map (Visit.verdict m scope t) =
      ((args?.map c.withExpected).getD []).map fun p =>
        check m scope t levels (cx.forArgument p.2) p.1 := by
  rw [argumentVisits, List.map_map]
  rfl

end

/-- **What a visit comes to, it makes of the verdicts on the arguments.** -/
theorem verdict_eq_conclude :
    v.verdict m scope t =
      v.conclude m scope t ((v.arguments m t).map (Visit.verdict m scope t)) := by
  obtain ⟨levels, cx, id⟩ := v
  rw [Visit.verdict, Visit.conclude, Visit.arguments]
  unfold check
  cases t.node? id with
  | none => rfl
  | some node =>
    cases levels with
    | zero => rfl
    | succ levels =>
      obtain ⟨kind, span⟩ := node
      cases kind with
      | literal value => rfl
      | var name => rfl
      | call function r => simp only [checkCall_eq_judgeCall, map_verdict_argumentVisits]
      | operator op r => simp only [checkCall_eq_judgeCall, map_verdict_argumentVisits]

/-! ## Which visits there are -/

/-- The visits from an id, so many levels down, each before those of its arguments. -/
def visits (m : FormulaManager) (t : FormulaTree) : Nat → ContextMap → NodeId → List Visit
  | 0, cx, id => [⟨0, cx, id⟩]
  | levels + 1, cx, id =>
    ⟨levels + 1, cx, id⟩ :: (Visit.arguments m t ⟨levels + 1, cx, id⟩).flatMap fun a =>
      visits m t levels a.cx a.id

/-- An argument is visited with one level less to go. -/
theorem levels_of_mem_arguments (h : a ∈ v.arguments m t) : v.levels = a.levels + 1 := by
  have hcall {κ : Type} [BEq κ] {c : Callee κ} {levels : Nat} {cx : ContextMap}
      {args? : Option (List NodeId)} (h : a ∈ argumentVisits c levels cx args?) :
      levels + 1 = a.levels + 1 := by
    obtain ⟨p, -, rfl⟩ := List.mem_map.1 h
    rfl
  obtain ⟨levels, cx, id⟩ := v
  unfold Visit.arguments at h
  split at h
  · rename_i heq _
    exact heq.trans (hcall h)
  · rename_i heq _
    exact heq.trans (hcall h)
  · exact absurd h (by simp)

/-- The arguments are visited that the node at the id has, if there is a level to go. -/
theorem map_id_arguments {levels : Nat} {cx : ContextMap} {id : NodeId} :
    ((⟨levels + 1, cx, id⟩ : Visit).arguments m t).map Visit.id = t.argsOf id := by
  unfold Visit.arguments
  cases hn : t.node? id with
  | none => rw [FormulaTree.argsOf_of_none hn]; rfl
  | some node =>
    obtain ⟨kind, span⟩ := node
    rw [FormulaTree.argsOf_of_node hn]
    cases kind with
    | literal value => rfl
    | var name => rfl
    | call function r => exact map_id_argumentVisits
    | operator op r => exact map_id_argumentVisits

/-- What is visited as an argument is one. -/
theorem id_mem_of_mem_arguments (h : a ∈ v.arguments m t) : a.id ∈ t.argsOf v.id := by
  have hlevels := levels_of_mem_arguments h
  obtain ⟨levels, cx, id⟩ := v
  obtain rfl : levels = a.levels + 1 := hlevels
  rw [← map_id_arguments (m := m)]
  exact List.mem_map_of_mem h

/-- Each argument is visited, if there is a level to go. -/
theorem exists_argument {arg : NodeId} (hlevels : 0 < v.levels) (h : arg ∈ t.argsOf v.id) :
    ∃ a ∈ v.arguments m t, a.id = arg := by
  obtain ⟨levels, cx, id⟩ := v
  obtain ⟨levels, rfl⟩ := Nat.exists_eq_add_one.2 hlevels
  rw [← map_id_arguments (m := m)] at h
  exact List.mem_map.1 h

/-- **The visits are those of the positions of the unfolding,** in the same order. -/
theorem map_id_visits (levels : Nat) (cx : ContextMap) (id : NodeId) :
    (visits m t levels cx id).map Visit.id = (t.positions levels id).map Prod.snd := by
  induction levels generalizing cx id with
  | zero => rfl
  | succ levels ih =>
    have hargs : ((⟨levels + 1, cx, id⟩ : Visit).arguments m t).map Visit.id = t.argsOf id :=
      map_id_arguments
    rw [visits, FormulaTree.positions, List.map_cons, List.map_cons, List.map_flatMap,
      List.map_flatMap]
    simp only [ih, List.map_map, Function.comp_def]
    rw [FormulaTree.flatMap_zipIdx fun arg => (t.positions levels arg).map Prod.snd, ← hargs,
      List.flatMap_map]

end Semantics

end Formulary
