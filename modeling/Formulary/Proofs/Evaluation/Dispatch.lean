import Formulary.Proofs.Evaluation.Operands
import Formulary.Proofs.Library.Contract
import Formulary.Proofs.Manager
import Formulary.Proofs.Semantics.Typing
/-!
# Which overload an evaluation comes to

The rules give a call the overload that takes the formats of all its arguments
(`Chooses`). An evaluation passes over arguments, and has the library choose once more,
by the formats of the values that it worked out (`CallRuns`). A host may set strategies so
that the two come to different overloads, and so that a call is settled by a value of
another format than its own. Neither happens at a call whose overload is steady, below
which all overloads are steady too: there an evaluation runs the overload of the rules
(`eq_of_select_operands`), and what is worked out has the format that the rules give
(`format_of_eval_of_steady`).
-/

namespace Formulary

/-- Something holds of the callee and of the arguments of the call at a node. -/
inductive FormulaManager.AtCall (m : FormulaManager) (t : FormulaTree) (id : NodeId)
    (P : ∀ {κ : Type} [BEq κ] [LawfulBEq κ], Callee κ → List NodeId → Prop) : Prop
  | call {function : Name} {r : ArgRange} {span : Span} {args : List NodeId}
      (hn : t.node? id = some ⟨.call function r, span⟩) (ha : t.args? r = some args)
      (h : P (m.functionCallee function id span) args) : AtCall m t id P
  | operator {op : Operator} {r : ArgRange} {span : Span} {args : List NodeId}
      (hn : t.node? id = some ⟨.operator op r, span⟩) (ha : t.args? r = some args)
      (h : P (m.operatorCallee op id span) args) : AtCall m t id P

/-- The overload that the rules give a call: that which takes the formats of its arguments. -/
def FormulaManager.Chooses (m : FormulaManager) (scope : LegalScope) (t : FormulaTree)
    (id : NodeId) (o : Overload) : Prop :=
  m.AtCall t id fun c args => ∃ formats, List.Forall₂ (HasFormat m scope t) args formats ∧
    c.library.select c.key formats = .ok o

/-- The overload of a call is steady under the key of the call. -/
def FormulaManager.SteadyAt (m : FormulaManager) (t : FormulaTree) (id : NodeId)
    (o : Overload) : Prop :=
  m.AtCall t id fun c _ => c.library.Steady c.key o

/-- From a part down, the overloads that the rules give are steady. -/
def FormulaManager.SteadyFrom (m : FormulaManager) (scope : LegalScope) (t : FormulaTree)
    (id : NodeId) : Prop :=
  ∀ (k : Nat) (below : NodeId) (o : Overload), t.Reaches k id below →
    m.Chooses scope t below o → m.SteadyAt t below o

namespace Evaluation

/-- An overload is run for a call: the operands were worked out, the tolerance is in
order, and the library chooses the overload for the formats of the operands. A call that
is not settled has its value from there (`evalCall_eq_ok_iff`). -/
structure CallRuns {κ : Type} [BEq κ] (eval : ContextMap → NodeId → Except EvalError Value)
    (cx : ContextMap) (c : Callee κ) (args : List NodeId) (o : Overload) (context : CallContext)
    (values : List Value) : Prop where
  operands : evalOperands eval cx c args = .ok (.all values)
  context : ∃ tolerance, cx.get Key.tolerance = .ok tolerance ∧
    CallContext.withTolerance tolerance = .ok context
  chosen : c.library.select c.key (values.map Value.format) = .ok o

variable {m : FormulaManager} {i : ScopeInstance} {scope : LegalScope} {t : FormulaTree}
variable {id : NodeId} {format : Format} {value : Value}

section

variable {P : NodeId → Format → Prop} {R : NodeId → Value → Prop} {args : List NodeId}
variable {formats : List Format}

/-- Values of the formats of the arguments have those formats as a list. -/
theorem beq_map_format (hkeep : ∀ arg f v, P arg f → R arg v → (f == v.format) = true)
    (hargs : List.Forall₂ P args formats) {values : List Value}
    (hvalues : List.Forall₂ R args values) : (formats == values.map Value.format) = true := by
  induction hargs generalizing values with
  | nil =>
    cases hvalues
    rfl
  | @cons arg f args formats hf _ ih =>
    cases hvalues with
    | cons hv hvalues =>
      rw [List.map_cons, List.cons_beq_cons, Bool.and_eq_true]
      exact ⟨hkeep _ _ _ hf hv, ih hvalues⟩

/-- A list that equals one of three formats has three members. -/
theorem exists_of_beq_three {params : List Format} {f₁ f₂ f₃ : Format}
    (h : (params == [f₁, f₂, f₃]) = true) : ∃ p₁ p₂ p₃, params = [p₁, p₂, p₃] ∧
      (p₁ == f₁) = true ∧ (p₂ == f₂) = true ∧ (p₃ == f₃) = true := by
  obtain _ | ⟨p₁, _ | ⟨p₂, _ | ⟨p₃, _ | ⟨p₄, rest⟩⟩⟩⟩ := params
  case cons.cons.cons.nil => exact ⟨p₁, p₂, p₃, rfl, by simpa using h⟩
  all_goals simp at h

variable {κ : Type} [BEq κ] [LawfulBEq κ] {l : Library κ} {key : κ} {o o' : Overload}

/-- **The overload that is run for a call is the one that takes its arguments,** if that is
steady, branches that are passed in both places included. -/
theorem eq_of_select_operands (hl : l.Honest)
    (hkeep : ∀ arg f v, P arg f → R arg v → (f == v.format) = true)
    (hargs : List.Forall₂ P args formats) (ho : l.select key formats = .ok o)
    (hsteady : l.Steady key o) {values : List Value}
    (h : (Operands.all values).From R (l.strategy key) args)
    (hrun : l.select key (values.map Value.format) = .ok o') : o' = o := by
  obtain ⟨hmem, hp⟩ := Library.mem_of_select ho
  obtain ⟨hmem', hp'⟩ := Library.mem_of_select hrun
  generalize hs : l.strategy key = strategy at h
  cases h with
  | all hvalues =>
    have hsame : (formats == values.map Value.format) = true := beq_map_format hkeep hargs hvalues
    exact hl.made.eq_of_params_beq hmem' hmem (BEq.trans hp' (BEq.symm (BEq.trans hp hsame)))
  | @chosen condition ifTrue ifFalse taken branch hselect hc hb =>
    obtain _ | ⟨hf₁, _ | ⟨hf₂, _ | ⟨hf₃, _ | _⟩⟩⟩ := hargs
    obtain ⟨p₁, p₂, p₃, hparams, hp₁, hp₂, hp₃⟩ := exists_of_beq_three hp
    have hcondition : (p₁ == Format.truth) = true := BEq.trans hp₁ (hkeep _ _ _ hf₁ hc)
    -- the branch that was taken has the format of one of the two parameters
    obtain ⟨p, hpmem, hbranch⟩ : ∃ p ∈ [p₂, p₃], (p == branch.format) = true := by
      cases taken with
      | true => exact ⟨p₂, by simp, BEq.trans hp₂ (hkeep _ _ _ hf₂ hb)⟩
      | false => exact ⟨p₃, by simp, BEq.trans hp₃ (hkeep _ _ _ hf₃ hb)⟩
    have hoperands : ([p₁, p, p] == [Format.truth, branch.format, branch.format]) = true := by
      simp only [List.cons_beq_cons, hcondition, hbranch, BEq.rfl, Bool.and_self]
    exact hsteady.choice (hs.trans hselect) p₁ p₂ p₃ hparams (Format.beq_iff.1 hcondition)
      o' hmem' p hpmem (BEq.trans hp' (BEq.symm hoperands))

omit [LawfulBEq κ] in
/-- **What settles a call has the format of the overload that takes its arguments,** if
that is steady. -/
theorem beq_result_of_settled (hkeep : ∀ arg f v, P arg f → R arg v → (f == v.format) = true)
    (hargs : List.Forall₂ P args formats) (ho : l.select key formats = .ok o)
    (hsteady : l.Steady key o) (h : (Operands.settled value).From R (l.strategy key) args) :
    (o.signature.result == value.format) = true := by
  obtain ⟨-, hp⟩ := Library.mem_of_select ho
  generalize hs : l.strategy key = strategy at h
  cases h with
  | @settled first rest stop hstop hv =>
    cases hargs with
    | @cons _ f _ formats hf _ =>
      rcases hparams : o.signature.params with _ | ⟨p, params⟩
      · rw [hparams] at hp
        exact absurd hp (by simp)
      · rw [hparams, List.cons_beq_cons, Bool.and_eq_true] at hp
        -- the first parameter is a truth value, since the value that settles the call is one
        have htruth : (p == Format.truth) = true := BEq.trans hp.1 (hkeep _ _ _ hf hv)
        exact Format.beq_iff.2
          (hsteady.settled stop (hs.trans hstop) p params hparams (Format.beq_iff.1 htruth))

end

/-! ## Calls -/

section

variable {κ : Type} [BEq κ] {eval : ContextMap → NodeId → Except EvalError Value}
variable {cx : ContextMap} {c : Callee κ} {args : List NodeId}

/-- The library answers by the overload that it chooses for the operands. -/
theorem answer_eq_ok_iff {values : List Value} : answer cx c values = .ok value ↔
    ∃ o context, (∃ tolerance, cx.get Key.tolerance = .ok tolerance ∧
        CallContext.withTolerance tolerance = .ok context) ∧
      c.library.select c.key (values.map Value.format) = .ok o ∧
        o.native context values = .ok value := by
  constructor
  · intro h
    unfold answer at h
    split at h
    · exact absurd h (by simp)
    · rename_i tolerance htol
      split at h
      · exact absurd h (by simp)
      · rename_i context hcontext
        have hevaluate := mapError_eq_ok_iff.1 h
        unfold Library.evaluate at hevaluate
        split at hevaluate
        · exact absurd hevaluate (by simp)
        · rename_i o ho
          exact ⟨o, context, ⟨tolerance, htol, hcontext⟩, ho, mapError_eq_ok_iff.1 hevaluate⟩
  · rintro ⟨o, context, ⟨tolerance, htol, hcontext⟩, ho, hnative⟩
    simp only [answer, htol, hcontext, Library.evaluate, ho, hnative]
    rfl

/-- **A call has a value exactly when it is settled, or an overload is run and answers.** -/
theorem evalCall_eq_ok_iff : evalCall eval cx c (some args) = .ok value ↔
    (c.library.contains c.key = true ∧ evalOperands eval cx c args = .ok (.settled value)) ∨
      ∃ o context values, CallRuns eval cx c args o context values ∧
        o.native context values = .ok value := by
  constructor
  · intro h
    simp only [evalCall] at h
    split at h
    · rename_i hknown
      split at h
      · exact absurd h (by simp)
      · rename_i settled hoperands
        rw [Except.ok.injEq] at h
        exact .inl ⟨hknown, h ▸ hoperands⟩
      · rename_i values hoperands
        obtain ⟨o, context, hcontext, ho, hnative⟩ := answer_eq_ok_iff.1 h
        exact .inr ⟨o, context, values, ⟨hoperands, hcontext, ho⟩, hnative⟩
    · exact absurd h (by simp)
  · rintro (⟨hknown, hoperands⟩ | ⟨o, context, values, ⟨hoperands, hcontext, ho⟩, hnative⟩)
    · simp only [evalCall, if_pos hknown, hoperands]
    · have hknown : c.library.contains c.key = true :=
        Library.contains_of_mem_overloads (Library.mem_of_select ho).1
      simp only [evalCall, if_pos hknown, hoperands]
      exact answer_eq_ok_iff.2 ⟨o, context, hcontext, ho, hnative⟩

/-- **A call has the format of its overload,** whichever arguments were skipped, if the
overload is steady. -/
theorem format_of_evalCall [LawfulBEq κ] {P : NodeId → Format → Prop} {formats : List Format}
    {o : Overload} (hl : c.library.Honest)
    (hkeep : ∀ arg f v, P arg f → HasValue eval cx arg v → (f == v.format) = true)
    (hargs : List.Forall₂ P args formats) (ho : c.library.select c.key formats = .ok o)
    (hsteady : c.library.Steady c.key o) (h : evalCall eval cx c (some args) = .ok value) :
    (o.signature.result == value.format) = true := by
  rcases evalCall_eq_ok_iff.1 h with ⟨-, hsettled⟩ | ⟨o', context, values, hrun, hnative⟩
  · exact beq_result_of_settled hkeep hargs ho hsteady (evalOperands_eq_ok hsettled)
  · -- the overload of the rules is chosen again, and keeps its promise
    have hsame : o' = o := eq_of_select_operands hl hkeep hargs ho hsteady
      (evalOperands_eq_ok hrun.operands) hrun.chosen
    rw [hsame] at hrun hnative
    obtain ⟨hmem, htakes⟩ := Library.mem_of_select hrun.chosen
    exact BEq.symm (hl.faithful c.key o hmem context values value htakes hnative)

end

end Evaluation

/-! ## Calls at a node -/

namespace FormulaManager

variable {m : FormulaManager} {scope : LegalScope} {t : FormulaTree} {id : NodeId}
variable {P : ∀ {κ : Type} [BEq κ] [LawfulBEq κ], Callee κ → List NodeId → Prop}
variable {r : ArgRange} {span : Span} {args : List NodeId}

theorem atCall_call_iff {function : Name} (hn : t.node? id = some ⟨.call function r, span⟩)
    (ha : t.args? r = some args) :
    m.AtCall t id P ↔ P (m.functionCallee function id span) args := by
  refine ⟨fun h => ?_, .call hn ha⟩
  cases h with
  | call hn' ha' h =>
    rw [hn, Option.some.injEq, Node.mk.injEq, NodeKind.call.injEq] at hn'
    obtain ⟨⟨rfl, rfl⟩, rfl⟩ := hn'
    rw [ha, Option.some.injEq] at ha'
    exact ha' ▸ h
  | operator hn' ha' h =>
    rw [hn] at hn'
    exact absurd hn' (by simp)

theorem atCall_operator_iff {op : Operator} (hn : t.node? id = some ⟨.operator op r, span⟩)
    (ha : t.args? r = some args) :
    m.AtCall t id P ↔ P (m.operatorCallee op id span) args := by
  refine ⟨fun h => ?_, .operator hn ha⟩
  cases h with
  | operator hn' ha' h =>
    rw [hn, Option.some.injEq, Node.mk.injEq, NodeKind.operator.injEq] at hn'
    obtain ⟨⟨rfl, rfl⟩, rfl⟩ := hn'
    rw [ha, Option.some.injEq] at ha'
    exact ha' ▸ h
  | call hn' ha' h =>
    rw [hn] at hn'
    exact absurd hn' (by simp)

section

variable {Q : ∀ {κ : Type} [BEq κ] [LawfulBEq κ], Callee κ → List NodeId → Prop}

theorem AtCall.imp (h : m.AtCall t id P)
    (hpq : ∀ {κ : Type} [BEq κ] [LawfulBEq κ] (c : Callee κ) (args : List NodeId),
      P c args → Q c args) : m.AtCall t id Q := by
  cases h with
  | call hn ha h => exact .call hn ha (hpq _ _ h)
  | operator hn ha h => exact .operator hn ha (hpq _ _ h)

/-- There is one callee at a node, and one list of arguments. -/
theorem AtCall.and (h : m.AtCall t id P) (h' : m.AtCall t id Q) :
    m.AtCall t id fun c args => P c args ∧ Q c args := by
  cases h with
  | call hn ha h => exact .call hn ha ⟨h, (atCall_call_iff hn ha).1 h'⟩
  | operator hn ha h => exact .operator hn ha ⟨h, (atCall_operator_iff hn ha).1 h'⟩

end

/-- The arguments of a call unfold on the levels that are left. -/
theorem AtCall.unfolds (h : m.AtCall t id P) {levels : Nat} (hu : t.Unfolds (levels + 1) id) :
    m.AtCall t id fun _ args => ∀ arg ∈ args, t.Unfolds levels arg := by
  cases h with
  | call hn ha _ => exact .call hn ha fun arg harg => hu.down hn rfl ha harg
  | operator hn ha _ => exact .operator hn ha fun arg harg => hu.down hn rfl ha harg

/-- The evaluation of a call works out its callee and its arguments. -/
theorem AtCall.eval (h : m.AtCall t id P) (i : ScopeInstance) (levels : Nat) (cx : ContextMap) :
    m.AtCall t id fun c args => P c args ∧ Evaluation.eval m i t (levels + 1) cx id =
      Evaluation.evalCall (Evaluation.eval m i t levels) cx c (some args) := by
  cases h with
  | call hn ha h => exact .call hn ha ⟨h, by simp only [Evaluation.eval, hn, ha]⟩
  | operator hn ha h => exact .operator hn ha ⟨h, by simp only [Evaluation.eval, hn, ha]⟩

/-- The format of a call is that of the overload that the rules give it. -/
theorem Chooses.hasFormat {o : Overload} (h : m.Chooses scope t id o) :
    HasFormat m scope t id o.signature.result := by
  cases h with
  | call hn ha h =>
    obtain ⟨formats, hargs, hselect⟩ := h
    obtain ⟨ho, hp⟩ := Library.mem_of_select hselect
    exact .call hn ha hargs ⟨o, ho, hp, rfl⟩
  | operator hn ha h =>
    obtain ⟨formats, hargs, hselect⟩ := h
    obtain ⟨ho, hp⟩ := Library.mem_of_select hselect
    exact .operator hn ha hargs ⟨o, ho, hp, rfl⟩

/-- The rules give a call an overload if they give it a format. -/
theorem exists_chooses (hf : m.functions.Made) (ho : m.operators.Made) {format : Format}
    (h : HasFormat m scope t id format) {node : Node} (hn : t.node? id = some node)
    (hr : node.kind.range? = some r) : ∃ o, m.Chooses scope t id o := by
  cases h with
  | number hn' | text hn' | truth hn' | var hn' _ =>
    rw [hn, Option.some.injEq] at hn'
    rw [hn'] at hr
    exact absurd hr (by simp [NodeKind.range?])
  | call hn' ha hargs hg =>
    obtain ⟨o, hmem, hp, -⟩ := hg
    exact ⟨o, .call hn' ha ⟨_, hargs, hf.select_eq_ok hmem hp⟩⟩
  | operator hn' ha hargs hg =>
    obtain ⟨o, hmem, hp, -⟩ := hg
    exact ⟨o, .operator hn' ha ⟨_, hargs, ho.select_eq_ok hmem hp⟩⟩

end FormulaManager

namespace Evaluation

variable {m : FormulaManager} {i : ScopeInstance} {t : FormulaTree} {id : NodeId}
variable {format : Format} {value : Value}

/-! ## Variables and formulas -/

/-- What an evaluation for an instance relies on, whatever the strategies of its libraries
are. -/
structure HostSetting (m : FormulaManager) (i : ScopeInstance) : Prop where
  /-- Functions answer as they promise. -/
  functions : m.functions.Honest
  /-- Operators answer as they promise. -/
  operators : m.operators.Honest
  /-- Defaults are of registered formats. -/
  formats : m.formats.Grown
  /-- The instance sees what its scope sees. -/
  mirrors : i.Mirrors
  /-- What is stored for a variable has the declared format. -/
  stored : ∀ v value, m.stored v = some value → (value.format == v.format) = true

/-- **A variable has its declared format,** set or not. -/
theorem format_of_evalVariable (hm : HostSetting m i) {name : Name} {span : Span}
    (hd : m.Declares i.scope name format) (h : evalVariable m i name span = .ok value) :
    (format == value.format) = true := by
  obtain ⟨place, hplace⟩ := FormulaManager.resolveInScope_eq_ok_iff.2 hd
  rw [FormulaManager.resolveInScope_eq_map_resolveName hm.mirrors] at hplace
  obtain ⟨v, hv, hformat⟩ := map_eq_ok_iff.1 hplace
  simp only [evalVariable, hv] at h
  cases hformat
  split at h
  · rename_i found hfound
    cases h
    unfold FormulaManager.valueOf at hfound
    split at hfound
    · rename_i stored hstored
      cases hfound
      exact BEq.symm (hm.stored v _ hstored)
    · exact Format.beq_iff.2 (FormatRegistry.identity_default? hm.formats hfound).symm
  · cases h

/-- **A call from which down all is steady**: its overload is, and so are those of its
arguments. -/
theorem HostSetting.atCall_of_chooses (hm : HostSetting m i) (hsteady : m.SteadyFrom i.scope t id)
    {o : Overload} (ho : m.Chooses i.scope t id o) :
    m.AtCall t id fun c args => (c.library.Honest ∧ c.library.Steady c.key o) ∧
      ∃ formats, List.Forall₂
        (fun arg f => m.SteadyFrom i.scope t arg ∧ HasFormat m i.scope t arg f) args formats ∧
        c.library.select c.key formats = .ok o := by
  have hown : m.SteadyAt t id o := hsteady 0 id o .here ho
  have hargs {node : Node} {r : ArgRange} {args : List NodeId} {formats : List Format}
      (hn : t.node? id = some node) (hr : node.kind.range? = some r) (ha : t.args? r = some args)
      (h : List.Forall₂ (HasFormat m i.scope t) args formats) :
      List.Forall₂ (fun arg f => m.SteadyFrom i.scope t arg ∧ HasFormat m i.scope t arg f)
        args formats :=
    (List.forall₂_and_left _ _).2
      ⟨fun arg harg k below o hk => hsteady (k + 1) below o (.down hn hr ha harg hk), h⟩
  cases ho with
  | call hn ha h =>
    obtain ⟨formats, hformats, hselect⟩ := h
    exact .call hn ha ⟨⟨hm.functions, (FormulaManager.atCall_call_iff hn ha).1 hown⟩,
      formats, hargs hn rfl ha hformats, hselect⟩
  | operator hn ha h =>
    obtain ⟨formats, hformats, hselect⟩ := h
    exact .operator hn ha ⟨⟨hm.operators, (FormulaManager.atCall_operator_iff hn ha).1 hown⟩,
      formats, hargs hn rfl ha hformats, hselect⟩

/-- **What is worked out of a part has the format that the rules give the part,** if the
overloads are steady from there down. -/
theorem format_of_eval_of_steady (hm : HostSetting m i) {levels : Nat} {cx : ContextMap}
    (hsteady : m.SteadyFrom i.scope t id) (ht : HasFormat m i.scope t id format)
    (h : eval m i t levels cx id = .ok value) : (format == value.format) = true := by
  induction levels generalizing cx id format value with
  | zero =>
    unfold eval at h
    split at h <;> exact absurd h (by simp)
  | succ levels ih =>
    have hkeep (arg : NodeId) (f : Format) (v : Value)
        (hf : m.SteadyFrom i.scope t arg ∧ HasFormat m i.scope t arg f)
        (hv : HasValue (eval m i t levels) cx arg v) : (f == v.format) = true := by
      obtain ⟨slot, hv⟩ := hv
      exact ih hf.1 hf.2 hv
    have hcall (o : Overload) (ho : m.Chooses i.scope t id o) :
        (o.signature.result == value.format) = true := by
      cases (hm.atCall_of_chooses hsteady ho).eval i levels cx with
      | call _ _ hat | operator _ _ hat =>
        obtain ⟨⟨⟨hl, hs⟩, formats, hargs, hselect⟩, heval⟩ := hat
        exact format_of_evalCall hl hkeep hargs hselect hs (heval.symm.trans h)
    cases ht with
    | number hn | text hn | truth hn =>
      simp only [eval, hn] at h
      cases h
      rfl
    | var hn hd =>
      simp only [eval, hn] at h
      exact format_of_evalVariable hm hd h
    | call hn ha hargs hg =>
      obtain ⟨o, ho, hp, rfl⟩ := hg
      exact hcall o (.call hn ha ⟨_, hargs, hm.functions.made.select_eq_ok ho hp⟩)
    | operator hn ha hargs hg =>
      obtain ⟨o, ho, hp, rfl⟩ := hg
      exact hcall o (.operator hn ha ⟨_, hargs, hm.operators.made.select_eq_ok ho hp⟩)

/-- Arguments from which down all is steady have values of the formats that the rules give
them. -/
theorem HostSetting.keeps (hm : HostSetting m i) (levels : Nat) (cx : ContextMap) (arg : NodeId)
    (f : Format) (v : Value) (hf : m.SteadyFrom i.scope t arg ∧ HasFormat m i.scope t arg f)
    (hv : HasValue (eval m i t levels) cx arg v) : (f == v.format) = true := by
  obtain ⟨slot, hv⟩ := hv
  exact format_of_eval_of_steady hm hf.1 hf.2 hv

end Evaluation

end Formulary
