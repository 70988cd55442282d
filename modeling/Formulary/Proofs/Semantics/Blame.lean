import Formulary.Proofs.Semantics.Accumulation
import Formulary.Proofs.Semantics.Visits
import Formulary.Proofs.Tree.Sharing
import Formulary.Workspace
import Mathlib.Data.List.Perm.Basic
/-!
# What a visit is to blame for

A visit adds to what was found below it nothing, or one error (`Visit.Adds`). It adds one
before what its arguments have, and that is not of formats, or after it, and then nothing
was found there. From that alone follow the facts of the errors of a check. A part has no
format exactly when an error was found in it or below it. An error of formats comes from
a visit whose arguments have no errors. A formula is never turned away without an error,
and that its root has the wrong format is said only if nothing else is wrong.

What a visit adds is of formats, or it is the fault there, whatever is below
(`Visit.own_of_fault?`, `Visit.of_mem_own`).

The errors of a check are those that its visits add (`errors_perm_own`). Where a formula
shares no part, a node is visited once, and so at most one error is put down to it.
-/

namespace Formulary

namespace Sample

/-- The formula `!amount && ghost`: a number is negated, and a name is not declared. -/
def faulty : FormulaTree where
  nodes := #[⟨.var amount, .dummy⟩, ⟨.operator .not ⟨0, 1⟩, .dummy⟩, ⟨.var ⟨50⟩, .dummy⟩,
    ⟨.operator .and ⟨1, 2⟩, .dummy⟩]
  args := #[⟨0⟩, ⟨1⟩, ⟨2⟩]
  root := ⟨3⟩

theorem unshared_faulty : faulty.Unshared := ⟨by decide, by decide⟩

end Sample

/-- The verdict without what is wrong. -/
def Verdict.silent (v : Verdict) : Verdict := ⟨.empty, v.format?⟩

namespace SemanticsError

/-- Whether the error is that a formula has a format and not the right one. -/
def ofRoot : SemanticsError → Bool
  | rootFormatMismatch .. => true
  | _ => false

theorem ofFormats_of_ofRoot {e : SemanticsError} (h : e.ofRoot = true) : e.ofFormats = true := by
  cases e <;> first | rfl | cases h

end SemanticsError

namespace Semantics

namespace Visit

variable (m : FormulaManager) (scope : LegalScope) (t : FormulaTree)

/-- The errors that a visit adds of its own: those that are left if its arguments keep
theirs to themselves. -/
def own (v : Visit) : List SemanticsError :=
  (v.conclude m scope t
    ((v.arguments m t).map fun a => (a.verdict m scope t).silent)).errors.toList

/-- The errors that the visits of the arguments come to. -/
def below (v : Visit) : List SemanticsError :=
  (v.arguments m t).flatMap fun a => (a.verdict m scope t).errors.toList

/-- What a visit may make of verdicts on its arguments, and what it would make of them if
they were silent: it adds no error, or one. It blames the root only if it visits that. -/
inductive Adds (v : Visit) (verdicts : List Verdict) : Verdict → Verdict → Prop
  /-- All is well. -/
  | accepted {formats : List Format} {format : Format}
      (h : Verdict.allFormats verdicts = some formats) :
      Adds v verdicts ⟨Verdict.allErrors verdicts, some format⟩ ⟨.empty, some format⟩
  /-- What is wrong is wrong below. -/
  | passedOn (h : Verdict.allFormats verdicts = none) :
      Adds v verdicts ⟨Verdict.allErrors verdicts, none⟩ ⟨.empty, none⟩
  /-- Something is wrong that takes no formats to see. -/
  | before {e : SemanticsError} (he : e.ofFormats = false) :
      Adds v verdicts ⟨.singleton e ++ Verdict.allErrors verdicts, none⟩ ⟨.singleton e, none⟩
  /-- Something is wrong with the formats, and all below have some. -/
  | after {formats : List Format} {e : SemanticsError}
      (h : Verdict.allFormats verdicts = some formats) (hroot : e.ofRoot = true → v.id = t.root) :
      Adds v verdicts ⟨Verdict.allErrors verdicts ++ .singleton e, none⟩ ⟨.singleton e, none⟩

end Visit

variable {m : FormulaManager} {scope : LegalScope} {t : FormulaTree} {v a : Visit}
variable {verdicts : List Verdict} {cx : ContextMap}

/-! ## One error at most -/

theorem allFormats_silent (verdicts : List Verdict) :
    Verdict.allFormats (verdicts.map Verdict.silent) = Verdict.allFormats verdicts := by
  rw [Verdict.allFormats, List.mapM_map]
  rfl

theorem allErrors_silent (verdicts : List Verdict) :
    Verdict.allErrors (verdicts.map Verdict.silent) = .empty := by
  refine Findings.ext ?_
  rw [Verdict.allErrors, Findings.toList_flatten, List.map_map, Findings.toList_empty,
    List.flatMap_eq_nil_iff]
  intro errors herrors
  obtain ⟨v, -, rfl⟩ := List.mem_map.1 herrors
  rfl

/-- Where there is nothing below, one error is all there is. -/
theorem adds_reject {e : SemanticsError} (he : e.ofFormats = false) :
    v.Adds t [] (.reject e) (.reject e) := .before he

theorem adds_accept (format : Format) : v.Adds t [] (.accept format) (.accept format) :=
  .accepted rfl

/-- A variable is declared, or it is all that is wrong. -/
theorem adds_checkVariable (name : Name) (span : Span) :
    v.Adds t [] (checkVariable m scope name span) (checkVariable m scope name span) := by
  unfold checkVariable
  split
  · exact adds_accept _
  · exact adds_reject rfl
  · exact adds_reject rfl

/-- **A call adds an error of its own before what its arguments have, or after it if they
have formats.** -/
theorem adds_judgeCall {κ : Type} [BEq κ] {c : Callee κ} {unknown : SemanticsError}
    (hu : unknown.ofFormats = false) {args? : Option (List NodeId)}
    (hlength : verdicts.length = (args?.getD []).length) :
    v.Adds t verdicts (judgeCall c unknown args? verdicts)
      (judgeCall c unknown args? (verdicts.map Verdict.silent)) := by
  cases args? with
  | none =>
    obtain rfl : verdicts = [] := List.eq_nil_of_length_eq_zero hlength
    exact adds_reject rfl
  | some args =>
    rw [Option.getD_some] at hlength
    simp only [judgeCall, allErrors_silent, allFormats_silent]
    split
    · cases hslots : c.library.expectedFormats c.key args.length with
      | none => exact .before rfl
      | some slots =>
        cases hformats : Verdict.allFormats verdicts with
        | none => exact .passedOn hformats
        | some formats =>
          dsimp only
          cases hresult : c.library.resultFormat c.key formats with
          | ok format => exact .accepted hformats
          | error e =>
            -- an overload has so many parameters, so it can only be the formats
            have harity : ((c.library.overloads c.key).any fun o =>
                o.signature.arity == args.length) = true := by
              rw [← Bool.not_eq_false, ← Library.expectedFormats_eq_none_iff, hslots]
              exact Option.some_ne_none slots
            have hsame : formats.length = args.length := by
              rw [← hlength, (mapM_eq_some_iff.1 hformats).length_eq]
            have he : e = .noMatchingOverload formats :=
              Library.eq_of_select_eq_error (map_eq_error_iff.1 hresult) (hsame ▸ harity)
            rw [he]
            exact .after hformats fun h => absurd h (by simp [SemanticsError.ofRoot])
    · exact .before hu

/-- What is asked of a part is one more thing that may be wrong, if nothing is so far. -/
theorem adds_checkAsserted {x y : Verdict} (h : v.Adds t verdicts x y) (span : Span) :
    v.Adds t verdicts (checkAsserted t v.cx v.id span x) (checkAsserted t v.cx v.id span y) := by
  cases h with
  | accepted h =>
    simp only [checkAsserted]
    cases v.cx.get Key.asserted with
    | error e => exact .after h fun he => absurd he (by simp [SemanticsError.ofRoot])
    | ok asserted =>
      cases asserted with
      | none => exact .accepted h
      | some expected =>
        dsimp only
        split
        · exact .accepted h
        · split
          · rename_i hid
            exact .after h fun _ => hid
          · exact .after h fun he => absurd he (by simp [SemanticsError.ofRoot])
  | passedOn h => exact .passedOn h
  | before he => exact .before he
  | after h hroot => exact .after h hroot

/-- **A visit adds one error or none to the verdicts on its arguments.** -/
theorem adds_verdict (v : Visit) :
    v.Adds t ((v.arguments m t).map (Visit.verdict m scope t)) (v.verdict m scope t)
      (v.conclude m scope t ((v.arguments m t).map fun a => (a.verdict m scope t).silent)) := by
  have hsilent : ((v.arguments m t).map fun a => (a.verdict m scope t).silent) =
      ((v.arguments m t).map (Visit.verdict m scope t)).map Verdict.silent := by
    rw [List.map_map]
    rfl
  rw [verdict_eq_conclude, hsilent]
  obtain ⟨levels, cx, id⟩ := v
  unfold Visit.conclude Visit.arguments
  cases t.node? id with
  | none => cases levels <;> exact adds_reject rfl
  | some node =>
    cases levels with
    | zero => exact adds_reject rfl
    | succ levels =>
      obtain ⟨kind, span⟩ := node
      refine adds_checkAsserted ?_ span
      cases kind with
      | literal value => exact adds_accept value.format
      | var name => exact adds_checkVariable name span
      | call function r =>
        exact adds_judgeCall rfl (by rw [List.length_map, length_argumentVisits])
      | operator op r =>
        exact adds_judgeCall rfl (by rw [List.length_map, length_argumentVisits])

namespace Visit

variable {x y : Verdict}

/-! ## What follows for one visit -/

theorem Adds.length_le_one (h : v.Adds t verdicts x y) : y.errors.toList.length ≤ 1 := by
  cases h <;> simp

theorem Adds.errors (h : v.Adds t verdicts x y) :
    x.errors.toList = y.errors.toList ++ (Verdict.allErrors verdicts).toList ∨
      x.errors.toList = (Verdict.allErrors verdicts).toList ++ y.errors.toList := by
  cases h with
  | accepted _ | passedOn _ | before _ => exact .inl (by simp)
  | after _ _ => exact .inr (by simp)

/-- Without a format there is an error, or an argument without a format. -/
theorem Adds.own_of_none (h : v.Adds t verdicts x y) (hx : x.format? = none)
    (hown : y.errors.toList = []) : Verdict.allFormats verdicts = none := by
  cases h with
  | accepted _ => cases hx
  | passedOn h => exact h
  | before _ | after _ _ => cases hown

/-- With a format, or with an error of formats, the arguments have formats. -/
theorem Adds.formats_of_some {format : Format} (h : v.Adds t verdicts x y)
    (hx : x.format? = some format) : ∃ formats, Verdict.allFormats verdicts = some formats := by
  cases h with
  | accepted h => exact ⟨_, h⟩
  | passedOn _ | before _ | after _ _ => cases hx

theorem Adds.formats_of_ofFormats {e : SemanticsError} (h : v.Adds t verdicts x y)
    (he : e ∈ y.errors.toList) (hformats : e.ofFormats = true) :
    ∃ formats, Verdict.allFormats verdicts = some formats := by
  cases h with
  | accepted _ | passedOn _ => cases he
  | before hbefore =>
    rw [List.mem_singleton.1 he, hbefore] at hformats
    cases hformats
  | after h _ => exact ⟨_, h⟩

theorem Adds.eq_root {e : SemanticsError} (h : v.Adds t verdicts x y) (he : e ∈ y.errors.toList)
    (hroot : e.ofRoot = true) : v.id = t.root := by
  cases h with
  | accepted _ | passedOn _ => cases he
  | before hbefore =>
    have hformats := SemanticsError.ofFormats_of_ofRoot hroot
    rw [List.mem_singleton.1 he, hbefore] at hformats
    cases hformats
  | after _ h => exact h (List.mem_singleton.1 he ▸ hroot)

theorem below_eq : (Verdict.allErrors ((v.arguments m t).map (verdict m scope t))).toList =
    v.below m scope t := by
  rw [Verdict.allErrors, Findings.toList_flatten, List.map_map, List.flatMap_map]
  rfl

/-- **A visit has at most one error of its own.** -/
theorem length_own_le_one : (v.own m scope t).length ≤ 1 := (adds_verdict v).length_le_one

/-- **A visit comes to its own error and those from below,** in one order or the other. -/
theorem errors_eq (m : FormulaManager) (scope : LegalScope) (t : FormulaTree) (v : Visit) :
    (v.verdict m scope t).errors.toList = v.own m scope t ++ v.below m scope t ∨
      (v.verdict m scope t).errors.toList = v.below m scope t ++ v.own m scope t := by
  rw [← below_eq]
  exact (adds_verdict v).errors

/-- Where nothing is found below, the error of its own is all a visit comes to. -/
theorem errors_eq_own (h : v.below m scope t = []) :
    (v.verdict m scope t).errors.toList = v.own m scope t := by
  rcases errors_eq m scope t v with herrors | herrors
  · rwa [h, List.append_nil] at herrors
  · rwa [h, List.nil_append] at herrors

/-- Where the arguments have formats, each of them has. -/
theorem format?_of_mem_arguments {formats : List Format}
    (h : Verdict.allFormats ((v.arguments m t).map (verdict m scope t)) = some formats)
    (ha : a ∈ v.arguments m t) : ∃ format, (a.verdict m scope t).format? = some format :=
  exists_of_mem_of_forall₂ (mapM_eq_some_iff.1 h) (List.mem_map_of_mem ha)

/-- **Below arguments with formats nothing is wrong.** -/
theorem below_of_formats {formats : List Format}
    (h : Verdict.allFormats ((v.arguments m t).map (verdict m scope t)) = some formats) :
    v.below m scope t = [] := by
  refine List.flatMap_eq_nil_iff.2 fun a ha => ?_
  obtain ⟨format, hformat⟩ := format?_of_mem_arguments h ha
  have herrors : (a.verdict m scope t).errors = .empty := errors_check hformat
  rw [herrors, Findings.toList_empty]

/-- **An error of formats is the only one of what it is an error of.** -/
theorem below_of_ofFormats {e : SemanticsError} (he : e ∈ v.own m scope t)
    (hformats : e.ofFormats = true) : v.below m scope t = [] := by
  obtain ⟨formats, h⟩ := (adds_verdict v).formats_of_ofFormats he hformats
  exact below_of_formats h

/-- **A part has no format exactly when it has errors,** or a part of it has. -/
theorem format?_eq_none_iff :
    (v.verdict m scope t).format? = none ↔ (v.verdict m scope t).errors.toList ≠ [] := by
  constructor
  · intro h hnil
    induction hlevels : v.levels using Nat.strongRecOn generalizing v with
    | ind levels ih =>
    -- if no error is found here or below, an argument without a format has none either
    obtain ⟨hown, hbelow⟩ : v.own m scope t = [] ∧ v.below m scope t = [] := by
      rcases errors_eq m scope t v with herrors | herrors
      · exact List.append_eq_nil_iff.1 (herrors.symm.trans hnil)
      · exact (List.append_eq_nil_iff.1 (herrors.symm.trans hnil)).symm
    obtain ⟨w, hw, hnone⟩ := exists_of_mapM_eq_none ((adds_verdict v).own_of_none h hown)
    obtain ⟨a, ha, rfl⟩ := List.mem_map.1 hw
    have hlt : a.levels < levels := by
      rw [← hlevels, levels_of_mem_arguments ha]
      exact Nat.lt_succ_self _
    exact ih a.levels hlt hnone (List.flatMap_eq_nil_iff.1 hbelow a ha) rfl
  · intro h
    cases hformat : (v.verdict m scope t).format? with
    | none => rfl
    | some format =>
      have herrors : (v.verdict m scope t).errors = .empty := errors_check hformat
      exact absurd (congrArg Findings.toList herrors) h

/-- A part that has a format has a level to lie on. -/
theorem levels_pos {format : Format} (h : (v.verdict m scope t).format? = some format) :
    0 < v.levels := by
  refine Nat.pos_of_ne_zero fun hzero => ?_
  obtain ⟨levels, cx, id⟩ := v
  obtain rfl : levels = 0 := hzero
  rw [verdict, check] at h
  split at h <;> cases h

/-- **Below a part that has a format nothing lies too deep.** -/
theorem lt_levels_of_reaches {format : Format} {k : Nat} {id : NodeId}
    (h : (v.verdict m scope t).format? = some format) (hk : t.Reaches k v.id id) :
    k < v.levels := by
  induction k generalizing v format with
  | zero => exact levels_pos h
  | succ k ih =>
    obtain ⟨arg, harg, hk⟩ := FormulaTree.reaches_succ_iff.1 hk
    obtain ⟨formats, hformats⟩ := (adds_verdict v).formats_of_some h
    obtain ⟨a, ha, rfl⟩ := exists_argument (m := m) (levels_pos h) harg
    obtain ⟨format', hformat⟩ := format?_of_mem_arguments hformats ha
    rw [levels_of_mem_arguments ha]
    exact Nat.succ_lt_succ (ih hformat hk)

/-- What is said of a root is said where there is a level to go. -/
theorem levels_pos_of_ofRoot {e : SemanticsError} (he : e ∈ v.own m scope t)
    (hroot : e.ofRoot = true) : 0 < v.levels := by
  refine Nat.pos_of_ne_zero fun hzero => ?_
  obtain ⟨levels, cx, id⟩ := v
  obtain rfl : levels = 0 := hzero
  rw [own, conclude] at he
  split at he <;>
  · rw [List.mem_singleton.1 he] at hroot
    cases hroot

/-- **A part whose arguments have formats is no part of itself.** -/
theorem not_reaches_self {formats : List Format} {k : Nat} (hlevels : 0 < v.levels)
    (h : Verdict.allFormats ((v.arguments m t).map (verdict m scope t)) = some formats) :
    ¬ t.Reaches (k + 1) v.id v.id := by
  intro hself
  -- as many rounds as there are levels lead below them
  have hrounds : t.Reaches (v.levels * (k + 1)) v.id v.id := hself.rounds v.levels
  obtain ⟨steps, hsteps⟩ := Nat.exists_eq_add_one.2 (Nat.mul_pos hlevels k.add_one_pos)
  rw [hsteps] at hrounds
  obtain ⟨arg, harg, hk⟩ := FormulaTree.reaches_succ_iff.1 hrounds
  obtain ⟨a, ha, rfl⟩ := exists_argument (m := m) hlevels harg
  obtain ⟨format, hformat⟩ := format?_of_mem_arguments h ha
  have hlt : steps < a.levels := lt_levels_of_reaches hformat hk
  have hargument : v.levels = a.levels + 1 := levels_of_mem_arguments ha
  have hmany : v.levels ≤ v.levels * (k + 1) := Nat.le_mul_of_pos_right _ k.add_one_pos
  omega

end Visit

/-! ## The fault of a visit -/

/-- What was found is still there once the format is compared with what is asked. -/
theorem mem_errors_checkAsserted {w : Verdict} {id : NodeId} {span : Span} {e : SemanticsError}
    (he : e ∈ w.errors.toList) : e ∈ (checkAsserted t cx id span w).errors.toList := by
  unfold checkAsserted
  split
  · exact he
  · split
    · rw [Findings.toList_append]
      exact List.mem_append_left _ he
    · exact he
    · split
      · exact he
      · split <;>
        · rw [Findings.toList_append]
          exact List.mem_append_left _ he

/-- **What the comparison adds** is of formats, or it is that nothing can be asked. -/
theorem of_mem_errors_checkAsserted {w : Verdict} {id : NodeId} {span : Span} {e : SemanticsError}
    (he : e ∈ (checkAsserted t cx id span w).errors.toList) :
    e ∈ w.errors.toList ∨ e.ofFormats = true ∨
      ∃ err, cx.get Key.asserted = .error err ∧ e = .config err := by
  unfold checkAsserted at he
  split at he
  · exact .inl he
  · split at he
    · rename_i err herr
      rw [Findings.toList_append, Findings.toList_singleton, List.mem_append,
        List.mem_singleton] at he
      exact he.imp_right fun he => .inr ⟨err, herr, he⟩
    · exact .inl he
    · split at he
      · exact .inl he
      · split at he <;>
        · rw [Findings.toList_append, Findings.toList_singleton, List.mem_append,
            List.mem_singleton] at he
          refine he.imp_right fun he => .inl ?_
          rw [he]
          rfl

/-- A call whose arguments are silent reports its fault. -/
theorem structural_judgeCall_silent {κ : Type} [BEq κ] (c : Callee κ) {unknown : SemanticsError}
    (hu : unknown.ofFormats = false) (levels : Nat) (args? : Option (List NodeId)) :
    structural (judgeCall c unknown args? ((argumentVisits c levels cx args?).map fun a =>
      (a.verdict m scope t).silent)).errors = (callFault? c unknown args?).toList := by
  let silent (cx : ContextMap) (id : NodeId) : Verdict := (check m scope t levels cx id).silent
  have hverdicts : ((argumentVisits c levels cx args?).map fun a => (a.verdict m scope t).silent) =
      ((args?.map c.withExpected).getD []).map fun p => silent (cx.forArgument p.2) p.1 := by
    rw [argumentVisits, List.map_map]
    rfl
  have hsilent (slot : Option Format) (arg : NodeId) :
      structural (silent (cx.forArgument slot) arg).errors = [] := rfl
  rw [hverdicts, ← checkCall_eq_judgeCall silent, structural_checkCall hsilent hu]
  simp

namespace Visit

/-- What a visit has of its own comes from its fault, and from the comparison of its format
with what is asked. -/
theorem exists_own_eq (m : FormulaManager) (scope : LegalScope) (t : FormulaTree) (v : Visit) :
    ∃ w : Verdict, structural w.errors = (fault? m scope t v.levels 1 v.id).toList ∧
      (v.own m scope t = w.errors.toList ∨
        ∃ span, v.own m scope t = (checkAsserted t v.cx v.id span w).errors.toList) := by
  obtain ⟨levels, cx, id⟩ := v
  unfold own conclude arguments fault?
  cases hn : t.node? id with
  | none => exact ⟨_, structural_reject rfl, .inl rfl⟩
  | some node =>
    obtain ⟨kind, span⟩ := node
    cases levels with
    | zero => exact ⟨_, structural_reject rfl, .inl rfl⟩
    | succ levels =>
      have hshallow : ¬levels + 1 < 1 := by omega
      simp only [if_neg hshallow]
      refine ⟨_, ?_, .inr ⟨span, rfl⟩⟩
      cases kind with
      | literal value => rfl
      | var name => exact structural_checkVariable name
      | call function r => exact structural_judgeCall_silent _ rfl levels (t.args? r)
      | operator op r => exact structural_judgeCall_silent _ rfl levels (t.args? r)

/-- **A visit that has a fault reports that, and nothing else of its own.** -/
theorem own_of_fault? {e : SemanticsError} (he : fault? m scope t v.levels 1 v.id = some e) :
    v.own m scope t = [e] := by
  obtain ⟨w, hfault, hown⟩ := exists_own_eq m scope t v
  have hw : e ∈ w.errors.toList := by
    have hmem : e ∈ structural w.errors := by
      rw [hfault, he]
      exact List.mem_cons_self
    exact (List.mem_filter.1 hmem).1
  have hmem : e ∈ v.own m scope t := by
    rcases hown with hown | ⟨span, hown⟩
    · rw [hown]
      exact hw
    · rw [hown]
      exact mem_errors_checkAsserted hw
  obtain ⟨e', hone⟩ := List.length_eq_one_iff.1
    (Nat.le_antisymm length_own_le_one (List.length_pos_of_mem hmem))
  rw [hone, List.mem_singleton] at hmem
  rw [hone, hmem]

/-- **What a visit has of its own is of formats, or its fault,** or that nothing can be asked
of the part. -/
theorem of_mem_own {e : SemanticsError} (he : e ∈ v.own m scope t) :
    e.ofFormats = true ∨ fault? m scope t v.levels 1 v.id = some e ∨
      ∃ err, v.cx.get Key.asserted = .error err ∧ e = .config err := by
  obtain ⟨w, hfault, hown⟩ := exists_own_eq m scope t v
  have hw (hmem : e ∈ w.errors.toList) :
      e.ofFormats = true ∨ fault? m scope t v.levels 1 v.id = some e := by
    cases hformats : e.ofFormats with
    | true => exact .inl rfl
    | false =>
      have hstructural : e ∈ structural w.errors := List.mem_filter.2 ⟨hmem, by rw [hformats]; rfl⟩
      rw [hfault] at hstructural
      exact .inr (Option.mem_toList.1 hstructural)
  rcases hown with hown | ⟨span, hown⟩
  · rw [hown] at he
    exact (hw he).imp_right .inl
  · rw [hown] at he
    rcases of_mem_errors_checkAsserted he with hmem | hformats | hcontext
    · exact (hw hmem).imp_right .inl
    · exact .inl hformats
    · exact .inr (.inr hcontext)

end Visit

/-! ## What follows for a check -/

/-- A visit is of what is reached from where the check starts. -/
theorem eq_or_reaches_of_mem_visits {levels : Nat} {id : NodeId} (h : v ∈ visits m t levels cx id) :
    v = ⟨levels, cx, id⟩ ∨ ∃ k, t.Reaches (k + 1) id v.id := by
  induction levels generalizing cx id with
  | zero => exact .inl (List.mem_singleton.1 h)
  | succ levels ih =>
    rw [visits, List.mem_cons, List.mem_flatMap] at h
    refine h.imp_right ?_
    rintro ⟨a, ha, hv⟩
    have harg : a.id ∈ t.argsOf id := id_mem_of_mem_arguments ha
    rcases ih hv with rfl | ⟨k, hk⟩
    · exact ⟨0, FormulaTree.reaches_succ_iff.2 ⟨a.id, harg, .here⟩⟩
    · exact ⟨k + 1, FormulaTree.reaches_succ_iff.2 ⟨a.id, harg, hk⟩⟩

/-- **The errors of a check are those that the visits add.** -/
theorem errors_perm_own (levels : Nat) (cx : ContextMap) (id : NodeId) :
    (check m scope t levels cx id).errors.toList.Perm
      ((visits m t levels cx id).flatMap (Visit.own m scope t)) := by
  induction levels generalizing cx id with
  | zero =>
    have hbelow : Visit.below m scope t ⟨0, cx, id⟩ = [] := rfl
    rw [visits, List.flatMap_singleton]
    exact .of_eq (Visit.errors_eq_own hbelow)
  | succ levels ih =>
    rw [visits, List.flatMap_cons, List.flatMap_assoc]
    have hbelow : (Visit.below m scope t ⟨levels + 1, cx, id⟩).Perm
        ((Visit.arguments m t ⟨levels + 1, cx, id⟩).flatMap fun a =>
          (visits m t levels a.cx a.id).flatMap (Visit.own m scope t)) := by
      refine List.Perm.flatMap_left _ fun a ha => ?_
      have hlevels : levels + 1 = a.levels + 1 := levels_of_mem_arguments ha
      rw [Visit.verdict, ← Nat.succ.inj hlevels]
      exact ih a.cx a.id
    rcases Visit.errors_eq m scope t ⟨levels + 1, cx, id⟩ with h | h
    · exact (List.Perm.of_eq h).trans (hbelow.append_left _)
    · exact ((List.Perm.of_eq h).trans List.perm_append_comm).trans (hbelow.append_left _)

/-- **That the root has the wrong format is said on its own.** -/
theorem errorsOf_run_of_ofRoot {e : SemanticsError} (he : e ∈ errorsOf (run m scope cx t))
    (hroot : e.ofRoot = true) : errorsOf (run m scope cx t) = [e] := by
  rw [errorsOf_run] at he ⊢
  obtain ⟨v, hv, hown⟩ := List.mem_flatMap.1 ((errors_perm_own _ cx t.root).mem_iff.1 he)
  have hformats : e.ofFormats = true := SemanticsError.ofFormats_of_ofRoot hroot
  rcases eq_or_reaches_of_mem_visits hv with rfl | ⟨k, hk⟩
  · obtain ⟨e', hone⟩ := List.length_eq_one_iff.1
      (Nat.le_antisymm Visit.length_own_le_one (List.length_pos_of_mem hown))
    have herrors : _ = Visit.own m scope t _ :=
      Visit.errors_eq_own (Visit.below_of_ofFormats hown hformats)
    rw [hone, List.mem_singleton] at hown
    rw [hone, ← hown] at herrors
    exact herrors
  · -- a root met again is a part of itself, and has no arguments with formats
    obtain ⟨formats, h⟩ := (adds_verdict v).formats_of_ofFormats hown hformats
    have hid : v.id = t.root := (adds_verdict v).eq_root hown hroot
    rw [← hid] at hk
    exact absurd hk (Visit.not_reaches_self (Visit.levels_pos_of_ofRoot hown hroot) h)

/-- **A formula is not turned away without an error.** -/
theorem run_ne_error_nil : run m scope cx t ≠ .error [] := by
  intro h
  simp only [run] at h
  split at h
  · cases h
  · rename_i hnot
    have herrors : (check m scope t m.config.maxTreeDepth cx t.root).errors.toList = [] :=
      Except.error.inj h
    have hnone : (check m scope t m.config.maxTreeDepth cx t.root).format? = none :=
      Option.eq_none_iff_forall_ne_some.2 fun format hformat => hnot format hformat herrors
    let start : Visit := ⟨m.config.maxTreeDepth, cx, t.root⟩
    exact (Visit.format?_eq_none_iff (v := start)).1 hnone herrors

/-- No more than one member of a list that has no two of a kind is of one kind. -/
theorem length_filter_le_one {α β : Type} [DecidableEq β] {f : α → β} {l : List α}
    (h : (l.map f).Nodup) (b : β) : (l.filter fun a => f a = b).length ≤ 1 := by
  have hcount := List.nodup_iff_count_le_one.1 h b
  rw [List.count, List.countP_map, List.countP_eq_length_filter] at hcount
  exact hcount

/-- **Where no part is shared, at most one error is put down to a node.** -/
theorem length_own_of_unshared (h : t.Unshared) (id : NodeId) :
    (((visits m t m.config.maxTreeDepth cx t.root).filter fun v => v.id = id).flatMap
      (Visit.own m scope t)).length ≤ 1 := by
  have hnodup := h.nodup_positions m.config.maxTreeDepth
  rw [← map_id_visits (m := m) m.config.maxTreeDepth cx] at hnodup
  have hone := length_filter_le_one hnodup id
  generalize (visits m t m.config.maxTreeDepth cx t.root).filter (fun v => v.id = id) = vs at hone ⊢
  match vs with
  | [] => exact Nat.zero_le 1
  | [v] =>
    rw [List.flatMap_singleton]
    exact Visit.length_own_le_one

/-- Nor is one turned away in a workspace, where the manager or the scope may be missing. -/
theorem runSemantics_ne_error_nil (w : Workspace) : w.runSemantics cx t ≠ .error [] := by
  unfold Workspace.runSemantics
  split
  · simp
  · split
    · simp
    · exact run_ne_error_nil

/-- **No error follows from another, and none is missing.** A part has no format exactly when
errors were found in it or below it. Each visit adds one error or none, and one of formats
only where nothing was found below. What is found are the errors of the visits; it is
something, unless the formula is accepted, and it is only that the root has the wrong
format, if it is that. Where no part is shared, no node is blamed twice. -/
theorem errors_do_not_cascade (m : FormulaManager) (scope : LegalScope) (cx : ContextMap)
    (t : FormulaTree) :
    (∀ v : Visit,
      ((v.verdict m scope t).format? = none ↔ (v.verdict m scope t).errors.toList ≠ []) ∧
      (v.own m scope t).length ≤ 1 ∧
      ((v.verdict m scope t).errors.toList = v.own m scope t ++ v.below m scope t ∨
        (v.verdict m scope t).errors.toList = v.below m scope t ++ v.own m scope t) ∧
      ∀ e ∈ v.own m scope t, e.ofFormats = true → v.below m scope t = []) ∧
    (errorsOf (run m scope cx t)).Perm
      ((visits m t m.config.maxTreeDepth cx t.root).flatMap (Visit.own m scope t)) ∧
    (∀ e ∈ errorsOf (run m scope cx t), e.ofRoot = true → errorsOf (run m scope cx t) = [e]) ∧
    run m scope cx t ≠ .error [] ∧
    (∀ w : Workspace, w.runSemantics cx t ≠ .error []) ∧
    (t.Unshared → ∀ id,
      (((visits m t m.config.maxTreeDepth cx t.root).filter fun v => v.id = id).flatMap
        (Visit.own m scope t)).length ≤ 1) := by
  refine ⟨fun v => ⟨Visit.format?_eq_none_iff, Visit.length_own_le_one,
    Visit.errors_eq m scope t v, fun e => Visit.below_of_ofFormats⟩, ?_,
    fun e => errorsOf_run_of_ofRoot, run_ne_error_nil, runSemantics_ne_error_nil,
    length_own_of_unshared⟩
  rw [errorsOf_run]
  exact errors_perm_own _ cx t.root

/-- Two errors in a formula that shares no part: its first argument negates a number, and
its second is not declared. The negation, and not the conjunction, is blamed for the
first. -/
theorem errors_do_not_cascade_faulty :
    Sample.faulty.Unshared ∧
      (errorsOf (run Sample.shallow Sample.all {} Sample.faulty)).map SemanticsError.code =
        [.argumentFormat, .undeclaredVariable] ∧
      ∀ id, (((visits Sample.shallow Sample.faulty 3 {} ⟨3⟩).filter fun v => v.id = id).flatMap
        (Visit.own Sample.shallow Sample.all Sample.faulty)).length ≤ 1 :=
  ⟨Sample.unshared_faulty, rfl,
    (errors_do_not_cascade Sample.shallow Sample.all {} Sample.faulty).2.2.2.2.2
      Sample.unshared_faulty⟩

end Semantics

end Formulary
