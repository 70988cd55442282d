import Formulary.Proofs.Evaluation.Preservation
/-!
# What a checked formula can still fail with

A check cannot know the numbers that a formula will work with, nor which variables
a host will set. So a checked formula may divide by zero, have a power that is not
finite, or use a variable that was never set and that nothing stands in for
(`Unforeseeable`). With the standard library it fails with nothing else: it never
goes too deep, every name stands for a variable, every call finds its overload, and
no implementation is given an argument that it cannot read (`safe_eval`).
-/

namespace Formulary

namespace EvalError

/-- The failures that a check is there to prevent. -/
inductive Preventable : EvalError → Prop
  | unresolvedVariable {name scope : String} {span : Span} :
      Preventable (.unresolvedVariable name scope span)
  | unknownFunction {name : String} {span : Span} : Preventable (.unknownFunction name span)
  | noMatchingOverload {callee : String} {found : List Format} {span : Span} :
      Preventable (.noMatchingOverload callee found span)
  | nestingTooDeep {limit : Nat} {span : Span} : Preventable (.nestingTooDeep limit span)
  | config {error : ConfigError} : Preventable (.config error)
  | argument {function : String} {index : Nat} {format : Format} {span : Span}
      (h : format ∈ Standard.basicFormats) :
      Preventable (.library (Standard.notA function index format) span)

end EvalError

namespace Evaluation

/-- The failures that no check could foresee: those of implementations for the numbers
they are given, and a variable of a registered format that was never set and has no
default. -/
inductive Unforeseeable (m : FormulaManager) (i : ScopeInstance) : EvalError → Prop
  | library {e : LibraryError} {span : Span} (h : e.Unforeseeable) :
      Unforeseeable m i (.library e span)
  | unset {name : Name} {v : VariableId} {span : Span} (hv : m.resolveName i name = .ok v)
      (hstored : m.stored v = none) (hcustom : v.format.isCustom = true)
      (hdefault : m.formats.default? v.format = none) :
      Unforeseeable m i (.unsetVariable v.label span)

/-- An evaluation that comes to a genuine value, or fails as could not be foreseen. -/
def Safe (m : FormulaManager) (i : ScopeInstance) : Except EvalError Value → Prop
  | .ok value => value.Genuine
  | .error e => Unforeseeable m i e

/-- What an evaluation for an instance relies on, so that nothing but this happens. -/
structure SafeSetting (m : FormulaManager) (i : ScopeInstance) : Prop extends Setting m i where
  /-- Functions fail only for the numbers they are given. -/
  functionsReliable : m.functions.All Overload.Reliable
  /-- Operators fail only for the numbers they are given. -/
  operatorsReliable : m.operators.All Overload.Reliable
  /-- What is stored is genuine. -/
  genuine : ∀ v value, m.stored v = some value → value.Genuine

variable {m : FormulaManager} {i : ScopeInstance} {scope : LegalScope} {t : FormulaTree}
variable {id : NodeId} {format : Format} {value : Value} {e : EvalError}

/-! ## The two kinds of failure -/

/-- A power that is not finite is no complaint about an argument: the texts end
differently. -/
theorem powerError_ne_notA (a b : Number) (function : String) (index : Nat)
    (hf : format ∈ Standard.basicFormats) :
    Standard.powerError a b ≠ Standard.notA function index format := by
  intro h
  -- a complaint ends with the label of a format, and no label ends like the other text
  have htext := (LibraryError.domain.inj h).2
  have hlast := congrArg (fun s => s.toList.getLast?) htext
  simp only [toString, String.toList_append, List.getLast?_append] at hlast
  have hpower : " has no finite result".toList.getLast? = some 't' := by decide
  have hlabel : format.label.toList.getLast? ≠ some 't' ∧
      format.label.toList.getLast? ≠ none := by
    simp only [Standard.basicFormats, List.mem_cons, List.not_mem_nil, or_false] at hf
    rcases hf with rfl | rfl | rfl <;> decide
  rw [hpower] at hlast
  cases hl : format.label.toList.getLast? with
  | none => exact hlabel.2 hl
  | some c =>
    rw [hl] at hlast
    exact hlabel.1 (hl.trans hlast.symm)

/-- **No failure is both unforeseeable and preventable.** -/
theorem Unforeseeable.not_preventable (h : Unforeseeable m i e) : ¬ e.Preventable := by
  intro hp
  cases h with
  | library h =>
    cases h with
    | divisionByZero => cases hp
    | @power a b hpower =>
      generalize hd : Standard.powerError a b = d at hp
      cases hp with
      | argument hf => exact powerError_ne_notA a b _ _ hf hd
  | unset hv hstored hcustom hdefault => cases hp

/-! ## Variables and calls -/

/-- **A declared variable has a value, or was never set and has no default.** -/
theorem safe_evalVariable (hm : SafeSetting m i) {name : Name} {span : Span}
    (hd : m.Declares i.scope name format) : Safe m i (evalVariable m i name span) := by
  obtain ⟨place, hplace⟩ := FormulaManager.resolveInScope_eq_ok_iff.2 hd
  rw [FormulaManager.resolveInScope_eq_map_resolveName hm.mirrors] at hplace
  obtain ⟨v, hv, -⟩ := map_eq_ok_iff.1 hplace
  simp only [evalVariable, hv, FormulaManager.valueOf]
  cases hstored : m.stored v with
  | some stored => exact hm.genuine v stored hstored
  | none =>
    cases hdefault : m.formats.default? v.format with
    | some value => exact FormatRegistry.genuine_default? hm.formats hdefault
    | none =>
      exact .unset hv hstored (FormatRegistry.isCustom_of_default?_eq_none hdefault) hdefault

/-- What is expected of an argument says nothing about the tolerance. -/
theorem get_tolerance_forArgument (cx : ContextMap) (slot : Option Format) :
    (cx.forArgument slot).get Key.tolerance = cx.get Key.tolerance :=
  cx.get_set_of_ne Key.asserted slot Key.tolerance (by decide)

section

variable {P : NodeId → Format → Prop} {args : List NodeId} {formats : List Format}

/-- **The overload that takes the arguments takes the operands,** branches that are
passed in both places included. -/
theorem params_beq_of_from {R : NodeId → Value → Prop}
    (hkeep : ∀ arg f v, P arg f → R arg v → (f == v.format) = true)
    (hargs : List.Forall₂ P args formats) {o : Overload} {strategy : CallStrategy}
    (hfits : o.signature.Fits strategy) (hp : (o.signature.params == formats) = true)
    {values : List Value} (h : (Operands.all values).From R strategy args) :
    (o.signature.params == values.map Value.format) = true := by
  cases h with
  | all hvalues => exact BEq.trans hp (beq_map_format hkeep hargs hvalues)
  | @chosen condition ifTrue ifFalse taken branch hs hc hb =>
    obtain _ | ⟨hf₁, _ | ⟨hf₂, _ | ⟨hf₃, _ | _⟩⟩⟩ := hargs
    obtain ⟨p₁, p₂, p₃, hparams, hp₁, hp₂, hp₃⟩ := exists_of_beq_three hp
    rw [hs] at hfits
    obtain ⟨htruth, hsame⟩ := hfits p₁ p₂ p₃ hparams
    have hfirst : (p₁ == (Value.truth taken).format) = true := Format.beq_iff.2 htruth
    -- one branch was evaluated, and the other has the same parameter
    have hbranch : (p₂ == branch.format) = true ∧ (p₃ == branch.format) = true := by
      cases taken with
      | true =>
        have hb₂ := BEq.trans hp₂ (hkeep _ _ _ hf₂ hb)
        exact ⟨hb₂, BEq.trans (BEq.symm hsame) hb₂⟩
      | false =>
        have hb₃ := BEq.trans hp₃ (hkeep _ _ _ hf₃ hb)
        exact ⟨BEq.trans hsame hb₃, hb₃⟩
    rw [hparams]
    simp only [List.map_cons, List.map_nil, List.cons_beq_cons, hfirst, hbranch.1, hbranch.2,
      Bool.true_and, BEq.rfl]

variable {κ : Type} [BEq κ] [LawfulBEq κ] {c : Callee κ} {cx : ContextMap}
variable {eval : ContextMap → NodeId → Except EvalError Value}

/-- A library answers operands that an overload takes, unless the numbers have no answer. -/
theorem safe_answer (hmade : c.library.Made) {o : Overload} (ho : o ∈ c.library.overloads c.key)
    (hreliable : o.Reliable) {values : List Value} (hg : ∀ v ∈ values, Value.Genuine v)
    (hp : (o.signature.params == values.map Value.format) = true) {tolerance : Float}
    (htol : cx.get Key.tolerance = .ok tolerance) (hnonneg : tolerance ≥ 0) :
    Safe m i (answer cx c values) := by
  have hcontext : CallContext.withTolerance tolerance = .ok ⟨tolerance⟩ := by
    rw [CallContext.withTolerance_eq, if_pos hnonneg]
  simp only [answer, htol, hcontext, Library.evaluate, hmade.select_eq_ok ho hp]
  cases hnative : o.native ⟨tolerance⟩ values with
  | ok value => exact hreliable.genuine _ values value hg hnative
  | error e => exact .library (hreliable.unforeseeable _ values e hg hp hnative)

/-- **A call of parts that are safe is safe.** -/
theorem safe_evalCall (hs : c.library.Sound)
    (hreliable : c.library.All Overload.Reliable)
    (hkeep : ∀ arg f v, P arg f → HasValue eval cx arg v → (f == v.format) = true)
    (hsafe : ∀ slot arg f, P arg f → Safe m i (eval (cx.forArgument slot) arg))
    (hargs : List.Forall₂ P args formats) (hg : c.library.Gives c.key formats format)
    {tolerance : Float} (htol : cx.get Key.tolerance = .ok tolerance)
    (hnonneg : tolerance ≥ 0) : Safe m i (evalCall eval cx c (some args)) := by
  obtain ⟨o, ho, hp, -⟩ := hg
  have hfits := hs.fits c.key o ho
  have hgenuine (arg : NodeId) (harg : arg ∈ args) (v : Value) (hv : HasValue eval cx arg v) :
      v.Genuine := by
    obtain ⟨f, hf⟩ := exists_of_mem_of_forall₂ hargs harg
    obtain ⟨slot, hv⟩ := hv
    have harg := hsafe slot arg f hf
    rw [hv] at harg
    exact harg
  simp only [evalCall, if_pos (Library.contains_of_mem_overloads ho)]
  cases hoperands : evalOperands eval cx c args with
  | error e =>
    rcases evalOperands_eq_error hoperands with ⟨arg, harg, slot, he⟩ | hcondition
    · obtain ⟨f, hf⟩ := exists_of_mem_of_forall₂ hargs harg
      have hfail := hsafe slot arg f hf
      rw [he] at hfail
      exact hfail
    · -- the condition has the format of a truth value, so it is one
      obtain ⟨condition, ifTrue, ifFalse, v, hselect, rfl, hv, hnone, -⟩ := hcondition
      obtain _ | ⟨hf₁, _ | ⟨hf₂, _ | ⟨hf₃, _ | _⟩⟩⟩ := hargs
      obtain ⟨p₁, p₂, p₃, hparams, hp₁, -, -⟩ := exists_of_beq_three hp
      rw [hselect] at hfits
      have htruth : p₁.identity = Format.truth.identity := (hfits p₁ p₂ p₃ hparams).1
      have hformat := Format.beq_iff.1 (BEq.trans hp₁ (hkeep _ _ _ hf₁ hv))
      have hv' : v.Genuine := hgenuine condition List.mem_cons_self v hv
      obtain ⟨b, rfl⟩ := hv'.isOf (htruth.symm.trans hformat)
      cases hnone
  | ok operands =>
    have hfrom := evalOperands_eq_ok hoperands
    cases operands with
    | settled settled =>
      cases hfrom
      trivial
    | all values =>
      refine safe_answer hs.made ho (hreliable c.key o ho) (fun v hv => ?_)
        (params_beq_of_from hkeep hargs hfits hp hfrom) htol hnonneg
      obtain ⟨arg, harg, hr⟩ := hfrom.exists_of_mem hv
      exact hgenuine arg harg v hr

end

/-! ## Formulas -/

/-- **A part that unfolds and has a format by the rules is safe to work out.** -/
theorem safe_eval (hm : SafeSetting m i) {levels : Nat} {cx : ContextMap} {tolerance : Float}
    (htol : cx.get Key.tolerance = .ok tolerance) (hnonneg : tolerance ≥ 0)
    (hu : t.Unfolds levels id) (ht : HasFormat m i.scope t id format) :
    Safe m i (eval m i t levels cx id) := by
  induction levels generalizing cx id format with
  | zero => exact absurd hu FormulaTree.not_unfolds_zero
  | succ levels ih =>
    have hkeep (arg : NodeId) (f : Format) (v : Value)
        (hf : t.Unfolds levels arg ∧ HasFormat m i.scope t arg f)
        (hv : HasValue (eval m i t levels) cx arg v) : (f == v.format) = true := by
      obtain ⟨slot, hv⟩ := hv
      exact format_of_eval hm.toSetting hf.2 hv
    have hsafe (slot : Option Format) (arg : NodeId) (f : Format)
        (hf : t.Unfolds levels arg ∧ HasFormat m i.scope t arg f) :
        Safe m i (eval m i t levels (cx.forArgument slot) arg) :=
      ih (by rw [get_tolerance_forArgument, htol]) hf.1 hf.2
    cases ht with
    | number hn | text hn | truth hn =>
      simp only [eval, hn]
      trivial
    | var hn hd =>
      simp only [eval, hn]
      exact safe_evalVariable hm hd
    | @call id function r span args formats format hn ha hargs hg =>
      simp only [eval, hn, ha]
      have hargs' := (List.forall₂_and_left _ _).2 ⟨fun arg harg => hu.down hn rfl ha harg, hargs⟩
      exact safe_evalCall hm.functions hm.functionsReliable hkeep hsafe hargs' hg
        htol hnonneg
    | @operator id op r span args formats format hn ha hargs hg =>
      simp only [eval, hn, ha]
      have hargs' := (List.forall₂_and_left _ _).2 ⟨fun arg harg => hu.down hn rfl ha harg, hargs⟩
      exact safe_evalCall hm.operators hm.operatorsReliable hkeep hsafe hargs' hg
        htol hnonneg

/-- **A checked formula has a value, or fails as could not be foreseen,** and never with
what a check is there to prevent. The library is the standard one; the store keeps to
the declared formats and to objects of registered formats; the tolerance is not below
zero; and the instance is one of the scope of the check. -/
theorem ok_or_unforeseeable_of_run {handed : List ScopeInstance} (hm : m.Reached handed)
    {names : Interner} (hf : m.functions = (Standard.installFunctions {} names).1)
    (ho : m.operators = Standard.installOperators {}) (hs : scope ∈ m.scopes.scopes)
    (hi : i ∈ handed) (his : (i.scope == scope) = true)
    (hstored : ∀ v value, m.stored v = some value → (value.format == v.format) = true)
    (hgenuine : ∀ v value, m.stored v = some value → value.Genuine) {cx cx' : ContextMap}
    (hcheck : Semantics.run m scope cx t = .ok format) {tolerance : Float}
    (htol : cx'.get Key.tolerance = .ok tolerance) (hnonneg : tolerance ≥ 0) :
    (∃ value, run m i cx' t = .ok value) ∨
      ∃ e, run m i cx' t = .error e ∧ Unforeseeable m i e ∧ ¬ e.Preventable := by
  have hextends : (Standard.installFunctions {} names).1.Extends m.functions ∧
      (Standard.installOperators {}).Extends m.operators := by
    rw [hf, ho]
    exact ⟨.refl, .refl⟩
  have hset : Setting m i := setting_of_reached hm hextends.1 hextends.2 hi hstored
  have hsafeset : SafeSetting m i :=
    { hset with
      functionsReliable := by
        rw [hf]
        exact (Standard.builtOf_installFunctions names).all.imp fun _ h => h.1.reliable
      operatorsReliable := by
        rw [ho]
        exact Standard.builtOf_installOperators.all.imp fun _ h => h.reliable
      genuine := hgenuine }
  obtain ⟨hunfold, htyped⟩ :=
    Semantics.unfolds_and_hasFormat_of_run hset.functions.made hset.operators.made hcheck
  rw [← hm.scope_eq hi hs his] at htyped
  have hsafe : Safe m i (run m i cx' t) := safe_eval hsafeset htol hnonneg hunfold htyped
  cases hrun : run m i cx' t with
  | ok value => exact .inl ⟨value, rfl⟩
  | error e =>
    rw [hrun] at hsafe
    exact .inr ⟨e, rfl, hsafe, hsafe.not_preventable⟩

/-- The sample is checked, and nothing is stored for it. -/
theorem ok_or_unforeseeable_guarded :
    Semantics.run Sample.manager Sample.all {} Sample.guarded = .ok .truth ∧ (0 : Float) ≥ 0 ∧
      ((∃ value, run Sample.manager Sample.someone {} Sample.guarded = .ok value) ∨
        ∃ e, run Sample.manager Sample.someone {} Sample.guarded = .error e ∧
          Unforeseeable Sample.manager Sample.someone e ∧ ¬ e.Preventable) := by
  have hf : Sample.manager.functions = (Standard.installFunctions {} .fresh).1 := rfl
  have ho : Sample.manager.operators = Standard.installOperators {} := rfl
  have hcheck : Semantics.run Sample.manager Sample.all {} Sample.guarded = .ok .truth := rfl
  have hnonneg : (0 : Float) ≥ 0 := by decide
  refine ⟨hcheck, hnonneg, ?_⟩
  exact ok_or_unforeseeable_of_run Sample.reached hf ho List.mem_cons_self List.mem_cons_self
    BEq.rfl (fun v value h => by cases h) (fun v value h => by cases h) hcheck rfl hnonneg

end Evaluation

end Formulary
