import Formulary.Proofs.Answers
import Formulary.Proofs.Library.Standard
import Formulary.Proofs.Tree.Unfolding
import Formulary.Proofs.Variable.Resolution
import Formulary.Semantics
/-!
# The format of a formula

The formats of the parts of a formula are given by rules (`HasFormat`): a literal
has its own, a variable that of its declaration, and a call that of the overload
whose parameters are the formats of the arguments. The rules go from the parts to
the whole. They expect nothing of an argument and know no limit.

A check does more: it tells each argument what the overloads agree on, it counts
levels, and it goes on after an error. What it accepts is nevertheless what the
rules give a format to, where the unfolding is in order (`format?_check_iff`).
Expecting something of the arguments neither turns a formula away nor lets one in.
-/

namespace Formulary

/-- The rules for the format of a part of a formula in a scope. -/
inductive HasFormat (m : FormulaManager) (scope : LegalScope) (t : FormulaTree) :
    NodeId → Format → Prop
  | number {id : NodeId} {x : Number} {span : Span}
      (hn : t.node? id = some ⟨.literal (.number x), span⟩) : HasFormat m scope t id .number
  | text {id : NodeId} {s : Name} {span : Span}
      (hn : t.node? id = some ⟨.literal (.text s), span⟩) : HasFormat m scope t id .text
  | truth {id : NodeId} {b : Bool} {span : Span}
      (hn : t.node? id = some ⟨.literal (.truth b), span⟩) : HasFormat m scope t id .truth
  | var {id : NodeId} {name : Name} {span : Span} {format : Format}
      (hn : t.node? id = some ⟨.var name, span⟩) (hd : m.Declares scope name format) :
      HasFormat m scope t id format
  | call {id : NodeId} {function : Name} {r : ArgRange} {span : Span} {args : List NodeId}
      {formats : List Format} {format : Format}
      (hn : t.node? id = some ⟨.call function r, span⟩) (ha : t.args? r = some args)
      (hargs : List.Forall₂ (HasFormat m scope t) args formats)
      (hg : m.functions.Gives function formats format) : HasFormat m scope t id format
  | operator {id : NodeId} {op : Operator} {r : ArgRange} {span : Span} {args : List NodeId}
      {formats : List Format} {format : Format}
      (hn : t.node? id = some ⟨.operator op r, span⟩) (ha : t.args? r = some args)
      (hargs : List.Forall₂ (HasFormat m scope t) args formats)
      (hg : m.operators.Gives op formats format) : HasFormat m scope t id format

variable {m : FormulaManager} {scope : LegalScope} {t : FormulaTree} {id : NodeId} {span : Span}
variable {format : Format}

/-! ## A formula to go by -/

namespace Sample

/-- A scope with no scope around it. -/
def all : LegalScope := ⟨⟨0, ⟨1⟩, "all"⟩, []⟩

/-- An instance of the scope. -/
def someone : ScopeInstance := ⟨⟨0, all, "someone"⟩, []⟩

/-- A flag of the scope. -/
def flag : Name := ⟨8⟩

/-- A number of the scope. -/
def amount : Name := ⟨9⟩

/-- The standard library, the scope with its two variables, and the instance. -/
def manager : FormulaManager where
  functions := (Standard.installFunctions {} .fresh).1
  operators := Standard.installOperators {}
  declarations := ⟨⟨[((0, flag), .truth), ((0, amount), .number)]⟩⟩
  scopes := ⟨[all]⟩
  instances := ⟨⟨[(⟨0, none, "someone"⟩, someone)]⟩, 1⟩

/-- The formula `flag && amount < 0`. -/
def guarded : FormulaTree where
  nodes := #[⟨.var flag, .dummy⟩, ⟨.var amount, .dummy⟩, ⟨.literal (.number .zero), .dummy⟩,
    ⟨.operator .lt ⟨0, 2⟩, .dummy⟩, ⟨.operator .and ⟨2, 2⟩, .dummy⟩]
  args := #[⟨1⟩, ⟨2⟩, ⟨0⟩, ⟨3⟩]
  root := ⟨4⟩

end Sample

/-! ## The rule for each kind of node -/

theorem hasFormat_literal_iff {value : Literal}
    (hn : t.node? id = some ⟨.literal value, span⟩) :
    HasFormat m scope t id format ↔ value.format = format := by
  constructor
  · intro h
    cases h with
    | number hn' | text hn' | truth hn' =>
      rw [hn] at hn'
      cases hn'
      rfl
    | var hn' _ | call hn' _ _ _ | operator hn' _ _ _ =>
      rw [hn] at hn'
      cases hn'
  · rintro rfl
    cases value with
    | number x => exact .number hn
    | text s => exact .text hn
    | truth b => exact .truth hn

theorem hasFormat_var_iff {name : Name} (hn : t.node? id = some ⟨.var name, span⟩) :
    HasFormat m scope t id format ↔ m.Declares scope name format := by
  refine ⟨fun h => ?_, .var hn⟩
  cases h with
  | var hn' hd =>
    rw [hn] at hn'
    cases hn'
    exact hd
  | number hn' | text hn' | truth hn' | call hn' _ _ _ | operator hn' _ _ _ =>
    rw [hn] at hn'
    cases hn'

theorem hasFormat_call_iff {function : Name} {r : ArgRange}
    (hn : t.node? id = some ⟨.call function r, span⟩) :
    HasFormat m scope t id format ↔ ∃ args formats, t.args? r = some args ∧
      List.Forall₂ (HasFormat m scope t) args formats ∧
      m.functions.Gives function formats format := by
  refine ⟨fun h => ?_, fun ⟨_, _, ha, hargs, hg⟩ => .call hn ha hargs hg⟩
  cases h with
  | call hn' ha hargs hg =>
    rw [hn] at hn'
    cases hn'
    exact ⟨_, _, ha, hargs, hg⟩
  | number hn' | text hn' | truth hn' | var hn' _ | operator hn' _ _ _ =>
    rw [hn] at hn'
    cases hn'

theorem hasFormat_operator_iff {op : Operator} {r : ArgRange}
    (hn : t.node? id = some ⟨.operator op r, span⟩) :
    HasFormat m scope t id format ↔ ∃ args formats, t.args? r = some args ∧
      List.Forall₂ (HasFormat m scope t) args formats ∧
      m.operators.Gives op formats format := by
  refine ⟨fun h => ?_, fun ⟨_, _, ha, hargs, hg⟩ => .operator hn ha hargs hg⟩
  cases h with
  | operator hn' ha hargs hg =>
    rw [hn] at hn'
    cases hn'
    exact ⟨_, _, ha, hargs, hg⟩
  | number hn' | text hn' | truth hn' | var hn' _ | call hn' _ _ _ =>
    rw [hn] at hn'
    cases hn'

/-- **Where a part has a format, what is reached from it has one.** -/
theorem HasFormat.exists_of_reaches {k : Nat} {below : NodeId} (h : HasFormat m scope t id format)
    (hk : t.Reaches k id below) : ∃ f, HasFormat m scope t below f := by
  induction hk generalizing format with
  | here => exact ⟨format, h⟩
  | @down k id arg below node r args hn hr ha harg _ ih =>
    have hargs : ∃ formats, List.Forall₂ (HasFormat m scope t) args formats := by
      cases h with
      | number hn' | text hn' | truth hn' | var hn' _ =>
        rw [hn, Option.some.injEq] at hn'
        rw [hn'] at hr
        exact absurd hr (by simp [NodeKind.range?])
      | call hn' ha' hargs _ | operator hn' ha' hargs _ =>
        rw [hn, Option.some.injEq] at hn'
        rw [hn', NodeKind.range?, Option.some.injEq] at hr
        rw [hr, ha, Option.some.injEq] at ha'
        exact ⟨_, ha' ▸ hargs⟩
    obtain ⟨formats, hformats⟩ := hargs
    obtain ⟨f, hf⟩ := exists_of_mem_of_forall₂ hformats harg
    exact ih hf

namespace Semantics

variable {cx : ContextMap}

/-! ## The check of a node -/

theorem get_forArgument (cx : ContextMap) (slot : Option Format) :
    (cx.forArgument slot).get Key.asserted = .ok slot :=
  cx.get_set Key.asserted slot

/-- What is asked of a part is asked of its format, and of nothing else. -/
theorem format?_checkAsserted_iff {v : Verdict} {asserted : Option Format}
    (ha : cx.get Key.asserted = .ok asserted) :
    (checkAsserted t cx id span v).format? = some format ↔
      v.format? = some format ∧ ∀ a, asserted = some a → (a == format) = true := by
  unfold checkAsserted
  cases hv : v.format? with
  | none => simp [hv]
  | some found =>
    rw [ha]
    cases asserted with
    | none => simp [hv]
    | some a =>
      by_cases hf : (a == found) = true
      · simp only [if_pos hf, hv, Option.some.injEq]
        constructor
        · rintro rfl
          exact ⟨rfl, fun b hb => hb ▸ hf⟩
        · exact And.left
      · have hnone : ¬ (some found = some format ∧
            ∀ b, some a = some b → (b == format) = true) := by
          rintro ⟨hff, hb⟩
          cases hff
          exact hf (hb a rfl)
        simp only [if_neg hf, iff_false_right hnone]
        split <;> simp

theorem format?_checkVariable_iff {name : Name} :
    (checkVariable m scope name span).format? = some format ↔ m.Declares scope name format := by
  rw [← FormulaManager.resolveInScope_eq_ok_iff]
  unfold checkVariable
  split <;> simp_all [Verdict.accept, Verdict.reject]

section

variable {κ : Type} [BEq κ] {check : ContextMap → NodeId → Verdict} {c : Callee κ}
variable {unknown : SemanticsError}

/-- A check selects an overload for a call: it gives the arguments formats, each told what
is expected of it, and the library chooses the overload for them. -/
def CallSelects (check : ContextMap → NodeId → Verdict) (cx : ContextMap) (c : Callee κ)
    (args : List NodeId) (o : Overload) : Prop :=
  ∃ slots formats, c.library.expectedFormats c.key args.length = some slots ∧
    List.Forall₂ (fun p f => (check (cx.forArgument p.2) p.1).format? = some f)
      (args.zip slots) formats ∧
    c.library.select c.key formats = .ok o

/-- The format of a call is that of the overload that is selected. -/
theorem format?_checkKnownCall_iff {args : List NodeId} :
    (checkKnownCall check cx c args).format? = some format ↔
      ∃ o, CallSelects check cx c args o ∧ o.signature.result = format := by
  unfold checkKnownCall CallSelects
  cases c.library.expectedFormats c.key args.length with
  | none => simp
  | some slots =>
    have hverdicts (formats : List Format) :
        ((args.zip slots).map fun p => check (cx.forArgument p.2) p.1).mapM Verdict.format? =
          some formats ↔
        List.Forall₂ (fun p f => (check (cx.forArgument p.2) p.1).format? = some f)
          (args.zip slots) formats := by
      rw [mapM_eq_some_iff, List.forall₂_map_left_iff]
    simp only [Option.some.injEq, exists_and_left, exists_eq_left', Verdict.allFormats,
      Library.resultFormat, ← hverdicts]
    split
    · rename_i hnone
      simp [hnone]
    · rename_i formats hsome
      simp only [hsome, Option.some.injEq, exists_eq_left']
      cases c.library.select c.key formats <;> simp [Except.map]

/-- **What the arguments are told to be is met by all that an overload takes,** so it makes
no difference to what is selected. -/
theorem callSelects_iff {P : NodeId → Format → Prop} {args : List NodeId} {o : Overload}
    (hcheck : ∀ slot arg f, (check (cx.forArgument slot) arg).format? = some f ↔
      P arg f ∧ ∀ e, slot = some e → (e == f) = true) :
    CallSelects check cx c args o ↔
      ∃ formats, List.Forall₂ P args formats ∧ c.library.select c.key formats = .ok o := by
  have hzip {slots : List (Option Format)} {formats : List Format}
      (hslots : c.library.expectedFormats c.key args.length = some slots) :
      List.Forall₂ (fun p f => P p.1 f ∧ ∀ e, p.2 = some e → (e == f) = true)
        (args.zip slots) formats ↔
      List.Forall₂ P args formats ∧ Library.Respects slots formats :=
    forall₂_zip_iff (Q := fun slot f => ∀ e, slot = some e → (e == f) = true)
      (Library.length_expectedFormats hslots).symm
  simp only [CallSelects, hcheck]
  constructor
  · rintro ⟨slots, formats, hslots, h, hselect⟩
    exact ⟨formats, ((hzip hslots).1 h).1, hselect⟩
  · rintro ⟨formats, h, hselect⟩
    -- the overload that takes the arguments has as many parameters, so something is
    -- expected of them, and what is expected is met
    obtain ⟨ho, hp⟩ := Library.mem_of_select hselect
    have hformats : formats.length = args.length := h.length_eq.symm
    have harity : o.signature.arity = formats.length := Library.arity_of_params_beq hp
    obtain ⟨slots, hslots⟩ := Library.exists_expectedFormats ho (harity.trans hformats)
    refine ⟨slots, formats, hslots, (hzip hslots).2 ⟨h, ?_⟩, hselect⟩
    rw [← hformats] at hslots
    exact Library.respects_of_expectedFormats hslots ho hp

/-- **What a call needs**: its range lies inside the array, the arguments have
formats, and some overload takes those. -/
theorem format?_checkCall_iff [LawfulBEq κ] (hmade : c.library.Made) {P : NodeId → Format → Prop}
    (hcheck : ∀ slot arg f, (check (cx.forArgument slot) arg).format? = some f ↔
      P arg f ∧ ∀ e, slot = some e → (e == f) = true) {args? : Option (List NodeId)} :
    (checkCall check cx c unknown args?).format? = some format ↔
      ∃ args formats, args? = some args ∧ List.Forall₂ P args formats ∧
        c.library.Gives c.key formats format := by
  cases args? with
  | none => simp [checkCall, Verdict.reject]
  | some args =>
    have hgives (formats : List Format) : c.library.Gives c.key formats format ↔
        ∃ o, c.library.select c.key formats = .ok o ∧ o.signature.result = format := by
      rw [← Library.resultFormat_eq_ok_iff hmade, Library.resultFormat, map_eq_ok_iff]
    simp only [checkCall, Option.some.injEq, exists_and_left, exists_eq_left', hgives]
    split
    · rw [format?_checkKnownCall_iff]
      simp only [callSelects_iff hcheck]
      constructor
      · rintro ⟨o, ⟨formats, h, hselect⟩, hresult⟩
        exact ⟨formats, h, o, hselect, hresult⟩
      · rintro ⟨formats, h, o, hselect, hresult⟩
        exact ⟨o, ⟨formats, h, hselect⟩, hresult⟩
    · rename_i habsent
      -- a library without the key has no overload to take anything
      constructor
      · intro h
        exact absurd h (by simp)
      · rintro ⟨formats, -, o, hselect, -⟩
        exact absurd (Library.contains_of_mem_overloads (Library.mem_of_select hselect).1) habsent

/-- A call that has a format has no errors, if its arguments are so. -/
theorem errors_checkCall (hcheck : ∀ cx arg f, (check cx arg).format? = some f →
      (check cx arg).errors = .empty) {args? : Option (List NodeId)}
    (h : (checkCall check cx c unknown args?).format? = some format) :
    (checkCall check cx c unknown args?).errors = .empty := by
  cases args? with
  | none => cases h
  | some args =>
    simp only [checkCall] at h ⊢
    split at h
    · rename_i hknown
      rw [if_pos hknown]
      obtain ⟨o, ⟨slots, formats, hslots, hargs, hselect⟩, -⟩ := format?_checkKnownCall_iff.1 h
      have hresult : c.library.resultFormat c.key formats = .ok o.signature.result := by
        rw [Library.resultFormat, hselect]
        rfl
      have hall : Verdict.allFormats
          ((args.zip slots).map fun p => check (cx.forArgument p.2) p.1) = some formats :=
        mapM_eq_some_iff.2 (List.forall₂_map_left_iff.2 hargs)
      simp only [checkKnownCall, hslots, hall, hresult]
      -- all that is left are the errors of arguments that have formats
      refine Findings.ext ?_
      rw [Verdict.allErrors, Findings.toList_flatten, Findings.toList_empty,
        List.flatMap_eq_nil_iff]
      intro errors herrors
      obtain ⟨v, hv, rfl⟩ := List.mem_map.1 herrors
      obtain ⟨p, hp, rfl⟩ := List.mem_map.1 hv
      obtain ⟨f, hf⟩ := exists_of_mem_of_forall₂ hargs hp
      rw [hcheck _ _ f hf]
      rfl
    · cases h

end

/-! ## The check of a formula -/

/-- Arguments unfold and have formats if they do both. -/
theorem exists_args_iff {levels : Nat} {r : ArgRange} {Gives : List Format → Prop} :
    (∃ args formats, t.args? r = some args ∧
      List.Forall₂ (fun arg f => t.Unfolds levels arg ∧ HasFormat m scope t arg f) args formats ∧
        Gives formats) ↔
      (∀ r', some r = some r' →
        ∃ args, t.args? r' = some args ∧ ∀ arg ∈ args, t.Unfolds levels arg) ∧
      ∃ args formats, t.args? r = some args ∧
        List.Forall₂ (HasFormat m scope t) args formats ∧ Gives formats := by
  constructor
  · rintro ⟨args, formats, ha, h, hg⟩
    obtain ⟨hunfold, hformat⟩ := (List.forall₂_and_left _ _).1 h
    refine ⟨?_, args, formats, ha, hformat, hg⟩
    rintro r' ⟨⟩
    exact ⟨args, ha, hunfold⟩
  · rintro ⟨hunfold, args, formats, ha, hformat, hg⟩
    obtain ⟨args', ha', hargs⟩ := hunfold r rfl
    rw [ha] at ha'
    cases ha'
    exact ⟨args, formats, ha, (List.forall₂_and_left _ _).2 ⟨hargs, hformat⟩, hg⟩

/-- **A check gives a part its format by the rules,** where the unfolding is in
order and the format is the one that is asked of the part. -/
theorem format?_check_iff (hf : m.functions.Made) (ho : m.operators.Made) {levels : Nat}
    {asserted : Option Format} (ha : cx.get Key.asserted = .ok asserted) :
    (check m scope t levels cx id).format? = some format ↔
      t.Unfolds levels id ∧ HasFormat m scope t id format ∧
        ∀ a, asserted = some a → (a == format) = true := by
  induction levels generalizing cx id format asserted with
  | zero =>
    refine iff_of_false ?_ fun h => FormulaTree.not_unfolds_zero h.1
    unfold check
    split
    · simp [Verdict.reject]
    · simp [Verdict.reject]
  | succ levels ih =>
    cases hn : t.node? id with
    | none =>
      refine iff_of_false ?_ fun h => ?_
      · simp [check, hn, Verdict.reject]
      · have := h.1.nodes 0 id .here
        rw [hn] at this
        cases this
    | some node =>
      obtain ⟨kind, span⟩ := node
      -- what is expected of an argument takes the place of what was asked of the call
      have hstep (slot : Option Format) (arg : NodeId) (f : Format) :
          (check m scope t levels (cx.forArgument slot) arg).format? = some f ↔
            (t.Unfolds levels arg ∧ HasFormat m scope t arg f) ∧
              ∀ e, slot = some e → (e == f) = true := by
        rw [ih (get_forArgument cx slot), and_assoc]
      simp only [check, hn]
      rw [format?_checkAsserted_iff ha, ← and_assoc]
      refine and_congr_left fun _ => ?_
      rw [FormulaTree.unfolds_succ_iff_of_node hn]
      cases kind with
      | literal value =>
        rw [hasFormat_literal_iff hn]
        simp [Verdict.accept, NodeKind.range?]
      | var name =>
        rw [format?_checkVariable_iff, hasFormat_var_iff hn]
        simp [NodeKind.range?]
      | call function r =>
        rw [format?_checkCall_iff hf hstep, hasFormat_call_iff hn]
        exact exists_args_iff
      | operator op r =>
        rw [format?_checkCall_iff ho hstep, hasFormat_operator_iff hn]
        exact exists_args_iff

/-- What is asked of a part that has a format changes nothing about it. -/
theorem checkAsserted_of_format? {v : Verdict}
    (h : (checkAsserted t cx id span v).format? = some format) :
    checkAsserted t cx id span v = v := by
  unfold checkAsserted at h ⊢
  split
  · rfl
  · rename_i found hv
    simp only [hv] at h
    split at h
    · cases h
    · rfl
    · split at h
      · rename_i hfound
        simp only [if_pos hfound]
      · split at h <;> cases h

/-- **A part that has a format has no errors.** -/
theorem errors_check {levels : Nat} (h : (check m scope t levels cx id).format? = some format) :
    (check m scope t levels cx id).errors = .empty := by
  induction levels generalizing cx id format with
  | zero =>
    unfold check at h
    split at h <;> cases h
  | succ levels ih =>
    cases hn : t.node? id with
    | none =>
      simp only [check, hn] at h
      cases h
    | some node =>
      obtain ⟨kind, span⟩ := node
      simp only [check, hn] at h ⊢
      have hasserted := checkAsserted_of_format? h
      rw [hasserted] at h ⊢
      cases kind with
      | literal value => rfl
      | var name =>
        simp only [checkVariable] at h ⊢
        split at h
        · rfl
        · cases h
        · cases h
      | call function r => exact errors_checkCall (fun _ _ _ => ih) h
      | operator op r => exact errors_checkCall (fun _ _ _ => ih) h

theorem format?_of_run (h : run m scope cx t = .ok format) :
    (check m scope t m.config.maxTreeDepth cx t.root).format? = some format := by
  simp only [run] at h
  split at h
  · rename_i hformat _
    cases h
    exact hformat
  · cases h

theorem format?_check_of_get_error {levels : Nat} {e : ConfigError}
    (ha : cx.get Key.asserted = .error e) :
    (check m scope t levels cx id).format? ≠ some format := by
  have hnone (span : Span) (v : Verdict) :
      (checkAsserted t cx id span v).format? ≠ some format := by
    unfold checkAsserted
    cases hv : v.format? with
    | none => simp [hv]
    | some found => simp [ha]
  unfold check
  split
  · simp [Verdict.reject]
  · split
    · simp [Verdict.reject]
    · exact hnone _ _

/-- What is accepted unfolds and has its format by the rules, whatever was asked of it. -/
theorem unfolds_and_hasFormat_of_run (hf : m.functions.Made) (ho : m.operators.Made)
    (h : run m scope cx t = .ok format) :
    t.Unfolds m.config.maxTreeDepth t.root ∧ HasFormat m scope t t.root format := by
  have hformat := format?_of_run h
  cases ha : cx.get Key.asserted with
  | ok asserted =>
    obtain ⟨hunfold, htyped, -⟩ := (format?_check_iff hf ho ha).1 hformat
    exact ⟨hunfold, htyped⟩
  | error e =>
    -- where it cannot be told what is asked of the root, nothing has a format
    exact absurd hformat (format?_check_of_get_error ha)

/-- **A check accepts a formula with a format exactly when** its unfolding is in
order and not too deep, the rules give it that format, and nothing else is asked
of it. -/
theorem run_eq_ok_iff (hf : m.functions.Made) (ho : m.operators.Made) {asserted : Option Format}
    (ha : cx.get Key.asserted = .ok asserted) :
    run m scope cx t = .ok format ↔
      t.Unfolds m.config.maxTreeDepth t.root ∧ HasFormat m scope t t.root format ∧
        ∀ a, asserted = some a → (a == format) = true := by
  rw [← format?_check_iff hf ho ha]
  refine ⟨format?_of_run, fun h => ?_⟩
  simp only [run, h, errors_check h, Findings.toList_empty]

/-- The formula has the truth format by the rules, on three levels of the 256. -/
theorem hasFormat_guarded :
    Sample.guarded.Unfolds Sample.manager.config.maxTreeDepth Sample.guarded.root ∧
      HasFormat Sample.manager Sample.all Sample.guarded Sample.guarded.root .truth ∧
        ∀ a, some Format.truth = some a → (a == Format.truth) = true :=
  (run_eq_ok_iff (Standard.builtOf_installFunctions .fresh).made
    Standard.builtOf_installOperators.made
    (ContextMap.get_set {} Key.asserted (some .truth))).1 rfl

end Semantics

end Formulary
