import Formulary.Proofs.Evaluation.Dispatch
import Formulary.Proofs.Library.Standard
/-!
# The value of a checked formula has the format of the check

A check and an evaluation walk a formula on their own. A check chooses an
overload by the formats of all arguments, an evaluation by the formats of the
values it worked out; a check looks a name up from a scope, an evaluation from an
instance; a variable that was never set has a default. They agree because the
libraries are sound, so that all overloads are steady, the instances mirror their
scopes, and the defaults have the formats they stand in for (`Setting`). Then what is
worked out of a part has the format that the rules give the part (`format_of_eval`).
-/

namespace Formulary

/-- The scope of the sample was added to the empty tree, and the instance asked for. -/
theorem Sample.reached : Sample.manager.Reached [Sample.someone] := by
  have hadd : ({} : ScopeTree).addRoot .fresh "all" =
      .ok (Sample.all, Sample.manager.scopes, (Interner.fresh.intern "all").2) := rfl
  have hget : (FormulaManager.ofDefinitions Sample.manager.toDefinitions).newInstance Sample.all
      "someone" none = .ok (Sample.someone, Sample.manager) := rfl
  exact (FormulaManager.reached_ofDefinitions (.root .empty hadd) .empty).newInstance
    List.mem_cons_self (by simp) hget

namespace Evaluation

/-- What an evaluation for an instance relies on, so that values have the formats
that the rules give. -/
structure Setting (m : FormulaManager) (i : ScopeInstance) : Prop where
  /-- Functions answer as they promise. -/
  functions : m.functions.Sound
  /-- Operators answer as they promise. -/
  operators : m.operators.Sound
  /-- Defaults are of registered formats. -/
  formats : m.formats.Grown
  /-- The instance sees what its scope sees. -/
  mirrors : i.Mirrors
  /-- What is stored for a variable has the declared format. -/
  stored : ∀ v value, m.stored v = some value → (value.format == v.format) = true

variable {m : FormulaManager} {i : ScopeInstance} {scope : LegalScope} {t : FormulaTree}
variable {id : NodeId} {format : Format} {value : Value}

/-- A sound library is honest, so the setting is one that a host may be in. -/
theorem Setting.host (hm : Setting m i) : HostSetting m i :=
  ⟨hm.functions.honest, hm.operators.honest, hm.formats, hm.mirrors, hm.stored⟩

/-- With sound libraries all overloads are steady. -/
theorem Setting.steadyFrom (hm : Setting m i) : m.SteadyFrom scope t id := by
  intro k below o _ ho
  cases ho with
  | call hn ha h =>
    obtain ⟨formats, -, hselect⟩ := h
    exact .call hn ha (hm.functions.steady (Library.mem_of_select hselect).1)
  | operator hn ha h =>
    obtain ⟨formats, -, hselect⟩ := h
    exact .operator hn ha (hm.operators.steady (Library.mem_of_select hselect).1)

/-- **What is worked out of a part has the format that the rules give the part.** -/
theorem format_of_eval (hm : Setting m i) {levels : Nat} {cx : ContextMap}
    (ht : HasFormat m i.scope t id format) (h : eval m i t levels cx id = .ok value) :
    (format == value.format) = true :=
  format_of_eval_of_steady hm.host hm.steadyFrom ht h

/-- A manager with a sound library, and an instance that it handed out. -/
theorem setting_of_reached {handed : List ScopeInstance} (hm : m.Reached handed)
    {names : Interner} (hf : (Standard.installFunctions {} names).1.Extends m.functions)
    (ho : (Standard.installOperators {}).Extends m.operators) (hi : i ∈ handed)
    (hstored : ∀ v value, m.stored v = some value → (value.format == v.format) = true) :
    Setting m i where
  functions := hf.sound (Standard.sound_installFunctions names)
  operators := ho.sound Standard.sound_installOperators
  formats := hm.formats
  mirrors := hm.mirrors hi
  stored := hstored

/-- **The value of a checked formula has the format of the check.** The library is the
standard one, which a host has extended by faithful overloads where all arguments are
evaluated; the store keeps to the declared formats; and the instance is one of the
scope of the check. What is asked of the formula, and how far apart equal numbers may
be, makes no difference. -/
theorem beq_format_of_run {handed : List ScopeInstance} (hm : m.Reached handed)
    {names : Interner} (hf : (Standard.installFunctions {} names).1.Extends m.functions)
    (ho : (Standard.installOperators {}).Extends m.operators) (hs : scope ∈ m.scopes.scopes)
    (hi : i ∈ handed) (his : (i.scope == scope) = true)
    (hstored : ∀ v value, m.stored v = some value → (value.format == v.format) = true)
    {cx cx' : ContextMap} (hcheck : Semantics.run m scope cx t = .ok format)
    (hvalue : run m i cx' t = .ok value) : (value.format == format) = true := by
  have hset := setting_of_reached hm hf ho hi hstored
  obtain ⟨-, htyped⟩ :=
    Semantics.unfolds_and_hasFormat_of_run hset.functions.made hset.operators.made hcheck
  rw [← hm.scope_eq hi hs his] at htyped
  exact BEq.symm (format_of_eval hset htyped hvalue)

/-- The sample is a truth value, as its check says. -/
theorem beq_format_guarded :
    Semantics.run Sample.manager Sample.all {} Sample.guarded = .ok .truth ∧
      run Sample.manager Sample.someone {} Sample.guarded = .ok (.truth false) ∧
        ((Value.truth false).format == Format.truth) = true := by
  have hf : (Standard.installFunctions {} .fresh).1.Extends Sample.manager.functions := .refl
  have ho : (Standard.installOperators {}).Extends Sample.manager.operators := .refl
  have hcheck : Semantics.run Sample.manager Sample.all {} Sample.guarded = .ok .truth := rfl
  have hvalue : run Sample.manager Sample.someone {} Sample.guarded = .ok (.truth false) := rfl
  refine ⟨hcheck, hvalue, ?_⟩
  exact beq_format_of_run Sample.reached hf ho List.mem_cons_self List.mem_cons_self BEq.rfl
    (fun v value h => by cases h) hcheck hvalue

end Evaluation

end Formulary
