import Formulary.Proofs.Evaluation.Dispatch
import Formulary.Proofs.Library.History
import Formulary.Proofs.Semantics.Blame
/-!
# Keys without overloads

A key is in a library when a call has named it, and a call may do so without registering an
overload: it may set a strategy (`Library.contains_after_iff`). A key that no call has named is
unknown, to a check and to an evaluation. But one that has nothing but a strategy is known to
both, and then there is no number of arguments that it could take. A check says that it takes
other numbers of arguments, and names none. An evaluation works out the arguments and finds no
overload, unless the strategy is a short circuit that stops before it comes to that.

Only such a key makes a check name no number (`Library.arities_eq_nil_iff`).
-/

namespace Formulary

namespace Library

variable {κ : Type} [BEq κ] {l : Library κ} {key : κ}

/-- No number of arguments is named when there is no overload. -/
theorem arities_eq_nil_iff : l.arities key = [] ↔ l.overloads key = [] := by
  rw [List.eq_nil_iff_forall_not_mem, List.eq_nil_iff_forall_not_mem]
  constructor
  · intro h o ho
    exact h _ (mem_arities.2 ⟨o, ho, rfl⟩)
  · intro h n hn
    obtain ⟨o, ho, -⟩ := mem_arities.1 hn
    exact h o ho

variable [LawfulBEq κ]

/-- A key has overloads when some were registered. -/
theorem overloads_after_ne_nil_iff {calls : List (LibraryCall κ)} :
    (({} : Library κ).after calls).overloads key ≠ [] ↔
      ∃ signature native, .register key signature native ∈ calls := by
  rw [List.ne_nil_iff_exists_cons]
  constructor
  · rintro ⟨o, rest, hcons⟩
    have ho : o ∈ (({} : Library κ).after calls).overloads key := hcons ▸ List.mem_cons_self
    obtain ⟨signature, native, hc, -⟩ := mem_identities_after.1 ⟨o, ho, rfl⟩
    exact ⟨signature, native, hc⟩
  · rintro ⟨signature, native, hc⟩
    obtain ⟨o, ho, -⟩ := mem_identities_after.2 ⟨signature, native, hc, rfl⟩
    exact List.ne_nil_iff_exists_cons.1 (List.ne_nil_of_mem ho)

/-- **A key is in a library for its overloads, or for its strategy.** -/
theorem contains_after_iff {calls : List (LibraryCall κ)} :
    (({} : Library κ).after calls).contains key = true ↔
      (({} : Library κ).after calls).overloads key ≠ [] ∨
        ∃ strategy, .setStrategy key strategy ∈ calls := by
  rw [contains_after, Bool.or_eq_true, List.any_eq_true, overloads_after_ne_nil_iff]
  simp only [beq_iff_eq]
  constructor
  · rintro (h | ⟨c, hc, hkey⟩)
    · cases h
    · cases c with
      | register k signature native => exact .inl ⟨signature, native, hkey ▸ hc⟩
      | setStrategy k strategy => exact .inr ⟨strategy, hkey ▸ hc⟩
  · rintro (⟨signature, native, hc⟩ | ⟨strategy, hc⟩)
    · exact .inr ⟨_, hc, rfl⟩
    · exact .inr ⟨_, hc, rfl⟩

end Library

/-- What a check says of a node if nothing is known of what it applies. -/
def FormulaManager.unknownAt? (m : FormulaManager) (t : FormulaTree) (id : NodeId) :
    Option SemanticsError :=
  match t.node? id with
  | some ⟨.call function _, span⟩ => some (.unknownFunction (m.names.lookup function) span)
  | some ⟨.operator op _, span⟩ => some (.unknownOperator op span)
  | _ => none

variable {m : FormulaManager} {scope : LegalScope} {i : ScopeInstance} {t : FormulaTree}
variable {cx : ContextMap} {id : NodeId} {levels : Nat}

namespace Semantics

section

variable {κ : Type} [BEq κ] {c : Callee κ} {args : List NodeId} {unknown : SemanticsError}

/-- What is wrong with a call of a key without overloads. -/
theorem callFault?_of_overloads_eq_nil (h : c.library.overloads c.key = []) :
    callFault? c unknown (some args) = some (if c.library.contains c.key then
      .wrongArgCount c.name [] args.length c.span else unknown) := by
  rw [callFault?, h, Library.arities_eq_nil_iff.2 h]
  cases c.library.contains c.key <;> rfl

/-- The number of arguments is wrong for a key that is there, when no overload has it. -/
theorem of_callFault?_eq_wrongArgCount {callee : String} {expected : List Nat} {found : Nat}
    {span : Span} {args? : Option (List NodeId)} (hu : unknown.code ≠ .argumentCount)
    (h : callFault? c unknown args? = some (.wrongArgCount callee expected found span)) :
    ∃ args, args? = some args ∧ (callee = c.name ∧ span = c.span ∧ found = args.length) ∧
      c.library.contains c.key = true ∧ expected = c.library.arities c.key ∧
        found ∉ expected := by
  cases args? with
  | none => cases h
  | some args =>
    rw [callFault?] at h
    split at h
    · rw [Option.some.inj h] at hu
      exact absurd rfl hu
    · rename_i hc
      split at h
      · cases h
      · rename_i hnone
        cases h
        exact ⟨args, rfl, ⟨rfl, rfl, rfl⟩, eq_true_of_ne_false hc, rfl,
          fun hcount => hnone (Library.any_arity_iff.2 hcount)⟩

end

/-- The errors of a check are those that its visits have of their own. -/
theorem mem_errorsOf_run_iff {e : SemanticsError} : e ∈ errorsOf (run m scope cx t) ↔
    ∃ v ∈ visits m t m.config.maxTreeDepth cx t.root, e ∈ v.own m scope t := by
  rw [errorsOf_run, (errors_perm_own _ cx t.root).mem_iff, List.mem_flatMap]

/-- The fault of a call, where there is a level to go. -/
theorem fault?_of_call (m : FormulaManager) (scope : LegalScope) {function : Name} {r : ArgRange}
    {span : Span} {args : List NodeId}
    (hn : t.node? id = some ⟨.call function r, span⟩) (ha : t.args? r = some args)
    (hlevels : 0 < levels) : fault? m scope t levels 1 id =
      callFault? (m.functionCallee function id span)
        (.unknownFunction (m.names.lookup function) span) (some args) := by
  have hshallow : ¬levels < 1 := by omega
  simp only [fault?, hn, if_neg hshallow, ha]

@[inherit_doc fault?_of_call]
theorem fault?_of_operator (m : FormulaManager) (scope : LegalScope) {op : Operator} {r : ArgRange}
    {span : Span} {args : List NodeId}
    (hn : t.node? id = some ⟨.operator op r, span⟩) (ha : t.args? r = some args)
    (hlevels : 0 < levels) : fault? m scope t levels 1 id =
      callFault? (m.operatorCallee op id span) (.unknownOperator op span) (some args) := by
  have hshallow : ¬levels < 1 := by omega
  simp only [fault?, hn, if_neg hshallow, ha]

/-- The fault of a visit is reported. -/
theorem mem_errorsOf_run_of_fault? {v : Visit} {e : SemanticsError}
    (hv : v ∈ visits m t m.config.maxTreeDepth cx t.root)
    (he : fault? m scope t v.levels 1 v.id = some e) : e ∈ errorsOf (run m scope cx t) := by
  refine mem_errorsOf_run_iff.2 ⟨v, hv, ?_⟩
  rw [Visit.own_of_fault? he]
  exact List.mem_cons_self

/-- What is reported of a call of a key without overloads. -/
theorem reported_of_overloads_eq_nil {κ : Type} [BEq κ] {c : Callee κ} {args : List NodeId}
    {unknown : SemanticsError} {v : Visit}
    (hv : v ∈ visits m t m.config.maxTreeDepth cx t.root)
    (hfault : fault? m scope t v.levels 1 v.id = callFault? c unknown (some args))
    (hunknown : m.unknownAt? t v.id = some unknown) (hnil : c.library.overloads c.key = []) :
    (c.library.contains c.key = false →
      ∃ e, m.unknownAt? t v.id = some e ∧ e ∈ errorsOf (run m scope cx t)) ∧
    (c.library.contains c.key = true →
      .wrongArgCount c.name [] args.length c.span ∈ errorsOf (run m scope cx t)) := by
  rw [callFault?_of_overloads_eq_nil hnil] at hfault
  have hreported := mem_errorsOf_run_of_fault? hv hfault
  constructor
  · intro hc
    rw [hc] at hreported
    exact ⟨unknown, hunknown, hreported⟩
  · intro hc
    rw [hc] at hreported
    exact hreported

/-- **A check reports every call of a key without overloads**: as unknown if no call has named
the key, and as one with a wrong number of arguments if a strategy was set for it. -/
theorem mem_errorsOf_run_of_overloads_eq_nil {v : Visit}
    (hv : v ∈ visits m t m.config.maxTreeDepth cx t.root) (hlevels : 0 < v.levels)
    (hcall : m.AtCall t v.id fun c _ => c.library.overloads c.key = []) :
    m.AtCall t v.id fun c args =>
      (c.library.contains c.key = false →
        ∃ e, m.unknownAt? t v.id = some e ∧ e ∈ errorsOf (run m scope cx t)) ∧
      (c.library.contains c.key = true →
        .wrongArgCount c.name [] args.length c.span ∈ errorsOf (run m scope cx t)) := by
  cases hcall with
  | call hn ha hnil =>
    refine .call hn ha
      (reported_of_overloads_eq_nil hv (fault?_of_call m scope hn ha hlevels) ?_ hnil)
    rw [FormulaManager.unknownAt?, hn]
  | operator hn ha hnil =>
    refine .operator hn ha
      (reported_of_overloads_eq_nil hv (fault?_of_operator m scope hn ha hlevels) ?_ hnil)
    rw [FormulaManager.unknownAt?, hn]

/-- That the number of arguments is wrong is the fault of a call, of a key that is there. -/
theorem atCall_of_fault?_eq_wrongArgCount {callee : String} {expected : List Nat} {found : Nat}
    {span : Span} (h : fault? m scope t levels 1 id =
      some (.wrongArgCount callee expected found span)) :
    m.AtCall t id fun c args => (callee = c.name ∧ span = c.span ∧ found = args.length) ∧
      c.library.contains c.key = true ∧ expected = c.library.arities c.key ∧
        found ∉ expected := by
  cases hn : t.node? id with
  | none =>
    rw [fault?, hn] at h
    cases h
  | some node =>
    obtain ⟨kind, nodeSpan⟩ := node
    simp only [fault?, hn] at h
    split at h
    · cases h
    · cases kind with
      | literal value => cases h
      | var name =>
        simp only [variableFault?] at h
        split at h
        · cases h
        · split at h <;> cases h
      | call function r =>
        obtain ⟨args, ha, hcall⟩ := of_callFault?_eq_wrongArgCount (fun h => by cases h) h
        exact .call hn ha hcall
      | operator op r =>
        obtain ⟨args, ha, hcall⟩ := of_callFault?_eq_wrongArgCount (fun h => by cases h) h
        exact .operator hn ha hcall

/-- **A wrong number of arguments is reported of a key that is there,** with the numbers that
its overloads take. -/
theorem exists_of_wrongArgCount_mem {callee : String} {expected : List Nat} {found : Nat}
    {span : Span} (he : .wrongArgCount callee expected found span ∈ errorsOf (run m scope cx t)) :
    ∃ v ∈ visits m t m.config.maxTreeDepth cx t.root, m.AtCall t v.id fun c args =>
      (callee = c.name ∧ span = c.span ∧ found = args.length) ∧
        c.library.contains c.key = true ∧ expected = c.library.arities c.key ∧
          found ∉ expected := by
  obtain ⟨v, hv, hown⟩ := mem_errorsOf_run_iff.1 he
  rcases Visit.of_mem_own hown with hformats | hfault | ⟨err, -, hconfig⟩
  · cases hformats
  · exact ⟨v, hv, atCall_of_fault?_eq_wrongArgCount hfault⟩
  · cases hconfig

end Semantics

namespace Evaluation

section

variable {κ : Type} [BEq κ] {c : Callee κ} {args : List NodeId}
variable {eval : ContextMap → NodeId → Except EvalError Value}

/-- A call of a key that no call has named. -/
theorem evalCall_of_contains_eq_false (h : c.library.contains c.key = false) :
    evalCall eval cx c (some args) = .error (.unknownFunction c.name c.span) := by
  rw [evalCall, h]
  rfl

/-- **A call without overloads has a value only if it is a short circuit that stops,** at its
first argument. -/
theorem stop_of_overloads_eq_nil {value : Value} (hnil : c.library.overloads c.key = [])
    (h : evalCall eval cx c (some args) = .ok value) :
    ∃ stop first, c.library.strategy c.key = .shortCircuit stop ∧ args.head? = some first ∧
      value = .truth stop ∧ HasValue eval cx first (.truth stop) := by
  rcases evalCall_eq_ok_iff.1 h with ⟨-, hsettled⟩ | ⟨o, context, values, hrun, -⟩
  · cases evalOperands_eq_ok hsettled with
    | settled hs hfirst => exact ⟨_, _, hs, rfl, rfl, hfirst⟩
  · have ho := (Library.mem_of_select hrun.chosen).1
    rw [hnil] at ho
    cases ho

/-- The library has no answer without overloads. -/
theorem answer_of_overloads_eq_nil {values : List Value} {e : EvalError}
    (hc : c.library.contains c.key = true) (hnil : c.library.overloads c.key = [])
    (h : answer cx c values = .error e) :
    (∃ err, e = .config err) ∨ ∃ found, e = .noMatchingOverload c.name found c.span := by
  have hselect : c.library.select c.key (values.map Value.format) =
      .error (.wrongArgCount (c.library.arities c.key) (values.map Value.format).length) := by
    refine Library.select_eq_wrongArgCount_iff.2 ⟨hc, ?_, rfl, rfl⟩
    rw [Library.arities_eq_nil_iff.2 hnil]
    exact List.not_mem_nil
  unfold answer at h
  split at h
  · cases h
    exact .inl ⟨_, rfl⟩
  · split at h
    · cases h
      exact .inl ⟨_, rfl⟩
    · rw [Library.evaluate, hselect] at h
      cases h
      exact .inr ⟨_, rfl⟩

/-- **A call of a key that has only a strategy fails with an argument, or for want of an
overload,** unless there is no tolerance to be had. -/
theorem evalCall_eq_error_of_overloads_eq_nil {e : EvalError}
    (hc : c.library.contains c.key = true) (hnil : c.library.overloads c.key = [])
    (h : evalCall eval cx c (some args) = .error e) :
    (∃ arg ∈ args, Fails eval cx arg e) ∨ (∃ err, e = .config err) ∨
      ∃ found, e = .noMatchingOverload c.name found c.span := by
  simp only [evalCall, if_pos hc] at h
  split at h
  · rename_i e' hoperands
    cases h
    rcases evalOperands_eq_error hoperands with hfails | ⟨_, _, _, value, -, -, -, -, he⟩
    · exact .inl hfails
    · exact .inr (.inr ⟨_, he⟩)
  · cases h
  · exact .inr (answer_of_overloads_eq_nil hc hnil h)

end

end Evaluation

namespace Sample

/-- A function of a host. -/
def idle : Name := ⟨1⟩

/-- The host has said how the function is to be evaluated, and no more. -/
def idleHost : FormulaManager := { manager with
  names := (Interner.fresh.intern "idle").2
  functions := ({} : Library Name).after [.setStrategy idle (.shortCircuit true)]
  operators := {} }

/-- The formula `!idle(true)`. -/
def idleCall : FormulaTree where
  nodes := #[⟨.literal (.truth true), .dummy⟩, ⟨.call idle ⟨0, 1⟩, .dummy⟩,
    ⟨.operator .not ⟨1, 1⟩, .dummy⟩]
  args := #[⟨0⟩, ⟨1⟩]
  root := ⟨2⟩

end Sample

namespace FormulaManager

/-- **What becomes of a key without overloads.** A key has overloads when some were registered,
and it is in the library for these, or for a strategy that was set. A call of a key without
overloads is reported by a check, as unknown if the key is not in the library, and as one with
a wrong number of arguments if it is. Where a wrong number of arguments is reported, the numbers
are named that the overloads of a key of the library take, none if it has no overloads. An
evaluation fails with the unknown function if the key is not in the library. If it is, there
is a value only if the strategy is a short circuit that stops at the first argument, and an
error is one of an argument, or of the context, or it is that no overload fits. -/
theorem calls_without_overloads (m : FormulaManager) (scope : LegalScope) (i : ScopeInstance)
    (cx : ContextMap) (t : FormulaTree) :
    (∀ {κ : Type} [BEq κ] [LawfulBEq κ] (calls : List (LibraryCall κ)) (key : κ),
      ((({} : Library κ).after calls).overloads key ≠ [] ↔
        ∃ signature native, .register key signature native ∈ calls) ∧
      ((({} : Library κ).after calls).contains key = true ↔
        (({} : Library κ).after calls).overloads key ≠ [] ∨
          ∃ strategy, .setStrategy key strategy ∈ calls)) ∧
    (∀ v ∈ Semantics.visits m t m.config.maxTreeDepth cx t.root, 0 < v.levels →
      m.AtCall t v.id (fun c _ => c.library.overloads c.key = []) → m.AtCall t v.id fun c args =>
        (c.library.contains c.key = false → ∃ e, m.unknownAt? t v.id = some e ∧
          e ∈ Semantics.errorsOf (Semantics.run m scope cx t)) ∧
        (c.library.contains c.key = true → .wrongArgCount c.name [] args.length c.span ∈
          Semantics.errorsOf (Semantics.run m scope cx t))) ∧
    (∀ callee expected found span, .wrongArgCount callee expected found span ∈
        Semantics.errorsOf (Semantics.run m scope cx t) →
      ∃ v ∈ Semantics.visits m t m.config.maxTreeDepth cx t.root, m.AtCall t v.id fun c args =>
        (callee = c.name ∧ span = c.span ∧ found = args.length) ∧
        (c.library.contains c.key = true ∧ expected = c.library.arities c.key ∧
          found ∉ expected) ∧ (expected = [] ↔ c.library.overloads c.key = [])) ∧
    ∀ levels cx id, m.AtCall t id (fun c _ => c.library.overloads c.key = []) →
      m.AtCall t id fun c args =>
        (c.library.contains c.key = false → Evaluation.eval m i t (levels + 1) cx id =
          .error (.unknownFunction c.name c.span)) ∧
        (c.library.contains c.key = true →
          (∀ value, Evaluation.eval m i t (levels + 1) cx id = .ok value →
            ∃ stop first, c.library.strategy c.key = .shortCircuit stop ∧
              args.head? = some first ∧ value = .truth stop ∧
              Evaluation.HasValue (Evaluation.eval m i t levels) cx first (.truth stop)) ∧
          ∀ e, Evaluation.eval m i t (levels + 1) cx id = .error e →
            (∃ arg ∈ args, Evaluation.Fails (Evaluation.eval m i t levels) cx arg e) ∨
            (∃ err, e = .config err) ∨ ∃ found, e = .noMatchingOverload c.name found c.span) := by
  refine ⟨fun calls key => ⟨Library.overloads_after_ne_nil_iff, Library.contains_after_iff⟩,
    fun v hv hlevels hcall => Semantics.mem_errorsOf_run_of_overloads_eq_nil hv hlevels hcall,
    fun callee expected found span he => ?_, fun levels cx id hcall => ?_⟩
  · obtain ⟨v, hv, hcall⟩ := Semantics.exists_of_wrongArgCount_mem he
    refine ⟨v, hv, hcall.imp fun c args ⟨hsite, hc, hexpected, hfound⟩ =>
      ⟨hsite, ⟨hc, hexpected, hfound⟩, ?_⟩⟩
    rw [hexpected]
    exact Library.arities_eq_nil_iff
  · refine (hcall.eval i levels cx).imp fun c args ⟨hnil, heval⟩ => ?_
    rw [heval]
    exact ⟨Evaluation.evalCall_of_contains_eq_false, fun hc =>
      ⟨fun value => Evaluation.stop_of_overloads_eq_nil hnil,
        fun e => Evaluation.evalCall_eq_error_of_overloads_eq_nil hc hnil⟩⟩

/-- The host's function is in its library and has no overloads, and its negation is unknown: a
check of the formula says so. -/
theorem calls_without_overloads_idle :
    Sample.idleHost.functions.contains Sample.idle = true ∧
      Sample.idleHost.functions.overloads Sample.idle = [] ∧
      ∃ e, Sample.idleHost.unknownAt? Sample.idleCall ⟨2⟩ = some e ∧
        e ∈ Semantics.errorsOf (Semantics.run Sample.idleHost Sample.all {} Sample.idleCall) := by
  obtain ⟨hlibrary, hcheck, -⟩ := calls_without_overloads Sample.idleHost Sample.all Sample.someone
    {} Sample.idleCall
  have hidle := hlibrary [.setStrategy Sample.idle (.shortCircuit true)] Sample.idle
  refine ⟨hidle.2.2 (.inr ⟨_, List.mem_cons_self⟩), rfl, ?_⟩
  have hroot := hcheck ⟨256, {}, ⟨2⟩⟩ List.mem_cons_self (by decide) (.operator rfl rfl rfl)
  exact ((atCall_operator_iff rfl rfl).1 hroot).1 rfl

/-- **A function that nobody registered is known,** once a strategy is set for it. A check says
that it takes other numbers of arguments, and names none, and an evaluation has a value. -/
theorem known_of_setStrategy :
    Sample.idleHost.functions.contains Sample.idle = true ∧
      Sample.idleHost.functions.overloads Sample.idle = [] ∧
      Semantics.errorsOf
          (Semantics.run Sample.idleHost Sample.all {} { Sample.idleCall with root := ⟨1⟩ }) =
        [.wrongArgCount "idle" [] 1 .dummy] ∧
      Evaluation.run Sample.idleHost Sample.someone {} { Sample.idleCall with root := ⟨1⟩ } =
        .ok (.truth true) :=
  ⟨rfl, rfl, rfl, rfl⟩

end FormulaManager

end Formulary
