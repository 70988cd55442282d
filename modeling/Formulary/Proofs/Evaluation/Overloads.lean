import Formulary.Proofs.Evaluation.Preservation
/-!
# The overload of a check and the overload of an evaluation

A check selects an overload for a call by the formats of all arguments
(`Semantics.Selects`); an evaluation runs one for the values that it worked out
(`Evaluation.Runs`), or is settled by the first of them (`Evaluation.Settles`). A check
selects what the rules give (`selects_iff_chooses`), and where the overloads are steady
an evaluation runs that (`eq_of_runs`). Where they are not it may run another.
-/

namespace Formulary

/-! ## A host library to go by -/

namespace Sample

/-- A function of a host that chooses between two arguments. -/
def pick : Name := ⟨60⟩

/-- A function of a host that a truth value settles. -/
def settle : Name := ⟨61⟩

/-- An overload that answers zero. -/
def toNumber (params : List Format) : Overload :=
  ⟨⟨params, .number⟩, fun _ _ => .ok (.number .zero)⟩

/-- An overload that answers the empty text. -/
def toText (params : List Format) : Overload :=
  ⟨⟨params, .text⟩, fun _ _ => .ok (.text "")⟩

/-- Of a number and a text, `pick` makes a number, and of two numbers a text. Of a truth
value and a number, `settle` makes a number, unless the truth value settles it. -/
def hosted : Library Name :=
  let number := toNumber [.truth, .number, .text]
  let text := toText [.truth, .number, .number]
  let settled := toNumber [.truth, .number]
  ({} : Library Name)
    |>.register pick number.signature number.native
    |>.register pick text.signature text.native
    |>.setStrategy pick .select
    |>.register settle settled.signature settled.native
    |>.setStrategy settle (.shortCircuit true)

/-- The host's functions and no operators, in the scope of the sample. -/
def host : FormulaManager := { manager with functions := hosted, operators := {} }

/-- The formula `pick(true, 0, _)` with a literal in the last place. -/
def picked (ifFalse : Literal) : FormulaTree where
  nodes := #[⟨.literal (.truth true), .dummy⟩, ⟨.literal (.number .zero), .dummy⟩,
    ⟨.literal ifFalse, .dummy⟩, ⟨.call pick ⟨0, 3⟩, .dummy⟩]
  args := #[⟨0⟩, ⟨1⟩, ⟨2⟩]
  root := ⟨3⟩

/-- The formula `pick(true, 0, 0)`. -/
def even : FormulaTree := picked (.number .zero)

/-- The formula `pick(true, 0, "")`. -/
def uneven : FormulaTree := picked (.text ⟨0⟩)

/-- The formula `settle(true, 0)`. -/
def settled : FormulaTree where
  nodes := #[⟨.literal (.truth true), .dummy⟩, ⟨.literal (.number .zero), .dummy⟩,
    ⟨.call settle ⟨0, 2⟩, .dummy⟩]
  args := #[⟨0⟩, ⟨1⟩]
  root := ⟨2⟩

/-- The library came about by registering faithful overloads and setting strategies. -/
theorem builtOf_hosted : hosted.BuiltOf Overload.Faithful := by
  have hnumber (params : List Format) : (toNumber params).Faithful := by
    intro context args value _ h
    rw [← Except.ok.inj h]
    rfl
  have htext (params : List Format) : (toText params).Faithful := by
    intro context args value _ h
    rw [← Except.ok.inj h]
    rfl
  exact Library.BuiltOf.empty
    |>.register (hnumber _) |>.register (htext _) |>.setStrategy
    |>.register (hnumber _) |>.setStrategy

theorem reached_host : host.Reached [someone] :=
  ⟨reached.scopes, reached.formats, reached.instances⟩

/-- Of two numbers `pick` makes a text, whichever it passes over. -/
theorem steady_pick : hosted.Steady pick (toText [.truth, .number, .number]) where
  choice _ condition ifTrue ifFalse hparams _ other hother branch hbranch hp := by
    obtain ⟨rfl, rfl, rfl⟩ : Format.truth = condition ∧ Format.number = ifTrue ∧
        Format.number = ifFalse := by simpa [toText] using hparams
    obtain rfl : branch = .number := by simpa using hbranch
    have hoverloads : hosted.overloads pick =
        [toNumber [.truth, .number, .text], toText [.truth, .number, .number]] := rfl
    rw [hoverloads, List.mem_pair] at hother
    rcases hother with rfl | rfl
    · exact absurd hp (by decide)
    · rfl
  settled stop hs := by
    have hstrategy : hosted.strategy pick = .select := rfl
    rw [hstrategy] at hs
    exact absurd hs (by simp)

/-- The one call of the formula has the steady overload. -/
theorem steadyAt_even {below : NodeId} {o : Overload} (h : host.Chooses all even below o) :
    host.SteadyAt even below o := by
  cases h with
  | @call function r span args hn ha h =>
    obtain ⟨rfl, rfl⟩ : function = pick ∧ r = ⟨0, 3⟩ := by
      obtain ⟨index⟩ := below
      rcases index with _ | _ | _ | _ | index <;> simp [FormulaTree.node?, even, picked] at hn
      exact ⟨hn.1.1.symm, hn.1.2.symm⟩
    obtain rfl : [⟨0⟩, ⟨1⟩, ⟨2⟩] = args := Option.some.inj ha
    obtain ⟨formats, hargs, hselect⟩ := h
    obtain _ | ⟨h₁, _ | ⟨h₂, _ | ⟨h₃, _ | _⟩⟩⟩ := hargs
    obtain rfl := (hasFormat_literal_iff rfl).1 h₁
    obtain rfl := (hasFormat_literal_iff rfl).1 h₂
    obtain rfl := (hasFormat_literal_iff rfl).1 h₃
    obtain rfl : toText [.truth, .number, .number] = o := Except.ok.inj hselect
    exact .call hn ha steady_pick
  | operator hn _ _ =>
    obtain ⟨index⟩ := below
    rcases index with _ | _ | _ | _ | index <;> simp [FormulaTree.node?, even, picked] at hn

end Sample

namespace Semantics

/-- A check selects an overload for the call at a node, with so many levels below it. -/
def Selects (m : FormulaManager) (scope : LegalScope) (t : FormulaTree) (levels : Nat)
    (cx : ContextMap) (id : NodeId) (o : Overload) : Prop :=
  m.AtCall t id fun c args => CallSelects (check m scope t levels) cx c args o

end Semantics

namespace Evaluation

/-- An evaluation runs an overload for the call at a node, with so many levels below it. -/
def Runs (m : FormulaManager) (i : ScopeInstance) (t : FormulaTree) (levels : Nat)
    (cx : ContextMap) (id : NodeId) (o : Overload) : Prop :=
  m.AtCall t id fun c args =>
    ∃ context values, CallRuns (eval m i t levels) cx c args o context values

/-- The first argument of the call at a node is the value of the call. -/
def Settles (m : FormulaManager) (i : ScopeInstance) (t : FormulaTree) (levels : Nat)
    (cx : ContextMap) (id : NodeId) (value : Value) : Prop :=
  m.AtCall t id fun c args => c.library.contains c.key = true ∧
    evalOperands (eval m i t levels) cx c args = .ok (.settled value)

end Evaluation

variable {m : FormulaManager} {i : ScopeInstance} {scope : LegalScope} {t : FormulaTree}
variable {id : NodeId} {levels : Nat} {cx : ContextMap} {o : Overload} {format : Format}

namespace Semantics

/-- **A check selects what the rules give a call,** where the arguments unfold. -/
theorem selects_iff_chooses (hf : m.functions.Made) (ho : m.operators.Made) :
    Selects m scope t levels cx id o ↔
      m.Chooses scope t id o ∧ m.AtCall t id fun _ args => ∀ arg ∈ args, t.Unfolds levels arg := by
  have hcheck (slot : Option Format) (arg : NodeId) (f : Format) :
      (check m scope t levels (cx.forArgument slot) arg).format? = some f ↔
        (t.Unfolds levels arg ∧ HasFormat m scope t arg f) ∧
          ∀ e, slot = some e → (e == f) = true := by
    rw [format?_check_iff hf ho (get_forArgument cx slot), and_assoc]
  have hselects {κ : Type} [BEq κ] (c : Callee κ) (args : List NodeId) :
      CallSelects (check m scope t levels) cx c args o ↔
        (∃ formats, List.Forall₂ (HasFormat m scope t) args formats ∧
          c.library.select c.key formats = .ok o) ∧ ∀ arg ∈ args, t.Unfolds levels arg := by
    simp only [callSelects_iff hcheck, List.forall₂_and_left]
    constructor
    · rintro ⟨formats, ⟨hunfold, hformats⟩, hselect⟩
      exact ⟨⟨formats, hformats, hselect⟩, hunfold⟩
    · rintro ⟨⟨formats, hformats, hselect⟩, hunfold⟩
      exact ⟨formats, ⟨hunfold, hformats⟩, hselect⟩
  constructor
  · intro h
    exact ⟨h.imp fun c args hc => ((hselects c args).1 hc).1,
      h.imp fun c args hc => ((hselects c args).1 hc).2⟩
  · rintro ⟨hchooses, hunfolds⟩
    exact (hchooses.and hunfolds).imp fun c args hc => (hselects c args).2 hc

/-- Where a part unfolds, a check comes to every call below it, and selects what the rules
give the call. -/
theorem selects_of_chooses (hf : m.functions.Made) (ho : m.operators.Made)
    (hu : t.Unfolds levels id) {j : Nat} {below : NodeId} (hj : t.Reaches j id below)
    (h : m.Chooses scope t below o) (cx : ContextMap) :
    Selects m scope t (levels - (j + 1)) cx below o := by
  have hlt : j < levels := hu.depth j below hj
  have hbelow : t.Unfolds (levels - j) below := hu.of_reaches hj
  have hlevels : levels - j = levels - (j + 1) + 1 := by omega
  rw [hlevels] at hbelow
  exact (selects_iff_chooses hf ho).2 ⟨h, h.unfolds hbelow⟩

end Semantics

namespace Evaluation

/-! ## The evaluation of a call -/

section

variable (hm : HostSetting m i) (hsteady : m.SteadyFrom i.scope t id)
variable (hc : m.Chooses i.scope t id o)
include hm hsteady hc

/-- **The overload that is run is the one that the rules give.** -/
theorem eq_of_runs {o' : Overload} (h : Runs m i t levels cx id o') : o' = o := by
  cases (hm.atCall_of_chooses hsteady hc).and h with
  | call _ _ h | operator _ _ h =>
    obtain ⟨⟨⟨hl, hown⟩, formats, hargs, hselect⟩, context, values, hrun⟩ := h
    exact eq_of_select_operands hl (hm.keeps levels cx) hargs hselect hown
      (evalOperands_eq_ok hrun.operands) hrun.chosen

/-- **What settles a call has the format that the rules give.** -/
theorem beq_result_of_settles {value : Value} (h : Settles m i t levels cx id value) :
    (o.signature.result == value.format) = true := by
  cases (hm.atCall_of_chooses hsteady hc).and h with
  | call _ _ h | operator _ _ h =>
    obtain ⟨⟨⟨hl, hown⟩, formats, hargs, hselect⟩, -, hsettled⟩ := h
    exact beq_result_of_settled (hm.keeps levels cx) hargs hselect hown
      (evalOperands_eq_ok hsettled)

end

/-- **An evaluation runs the overload that a check selected,** at every call of a formula
that was accepted, if the overloads that the check selected are steady from there down.
What settles a call has the format of that overload, and so has what the call is worked
out to be. The libraries are any that came about by registering faithful overloads and
setting strategies; the store keeps to the declared formats; and the instance is one of
the scope of the check. The evaluation may meet the call in any context, and with any
number of levels left. -/
theorem runs_selected {handed : List ScopeInstance} (hm : m.Reached handed)
    (hf : m.functions.BuiltOf Overload.Faithful) (ho : m.operators.BuiltOf Overload.Faithful)
    (hs : scope ∈ m.scopes.scopes) (hi : i ∈ handed) (his : (i.scope == scope) = true)
    (hstored : ∀ v value, m.stored v = some value → (value.format == v.format) = true)
    (hcheck : Semantics.run m scope cx t = .ok format) {k : Nat} (hk : t.Reaches k t.root id)
    (hsteady : ∀ j below levels cx o, t.Reaches j id below →
      Semantics.Selects m scope t levels cx below o → m.SteadyAt t below o) :
    (∀ node r, t.node? id = some node → node.kind.range? = some r →
      ∃ o, ∀ cx, Semantics.Selects m scope t (m.config.maxTreeDepth - (k + 1)) cx id o) ∧
    ∀ levels cx o, Semantics.Selects m scope t levels cx id o → ∀ levels' cx',
      (∀ o', Runs m i t levels' cx' id o' → o' = o) ∧
      (∀ value, Settles m i t levels' cx' id value →
        (value.format == o.signature.result) = true) ∧
      ∀ value, eval m i t levels' cx' id = .ok value →
        (value.format == o.signature.result) = true := by
  obtain rfl : i.scope = scope := hm.scope_eq hi hs his
  have hset : HostSetting m i := ⟨hf.honest, ho.honest, hm.formats, hm.mirrors hi, hstored⟩
  obtain ⟨hunfold, htyped⟩ := Semantics.unfolds_and_hasFormat_of_run hf.made ho.made hcheck
  have hid : t.Unfolds (m.config.maxTreeDepth - k) id := hunfold.of_reaches hk
  have hfrom : m.SteadyFrom i.scope t id := fun j below o hj hc =>
    hsteady j below _ {} o hj (Semantics.selects_of_chooses hf.made ho.made hid hj hc {})
  refine ⟨fun node r hn hr => ?_, fun levels cx o hselected levels' cx' => ?_⟩
  · obtain ⟨f, hformat⟩ := htyped.exists_of_reaches hk
    obtain ⟨o, hc⟩ := FormulaManager.exists_chooses hf.made ho.made hformat hn hr
    exact ⟨o, Semantics.selects_of_chooses hf.made ho.made hunfold hk hc⟩
  · have hc : m.Chooses i.scope t id o :=
      ((Semantics.selects_iff_chooses hf.made ho.made).1 hselected).1
    refine ⟨fun o' hruns => eq_of_runs hset hfrom hc hruns, fun value hsettles => ?_,
      fun value hvalue => ?_⟩
    · exact BEq.symm (beq_result_of_settles hset hfrom hc hsettles)
    · exact BEq.symm (format_of_eval_of_steady hset hfrom hc.hasFormat hvalue)

/-- Where both branches are numbers, what `pick` passes over makes no difference, and the
overload that the check selected is run. -/
theorem runs_selected_even :
    Semantics.run Sample.host Sample.all {} Sample.even = .ok .text ∧
      Semantics.Selects Sample.host Sample.all Sample.even 255 {} Sample.even.root
        (Sample.toText [.truth, .number, .number]) ∧
      ∀ o, Runs Sample.host Sample.someone Sample.even 255 {} Sample.even.root o →
        o = Sample.toText [.truth, .number, .number] := by
  have hcheck : Semantics.run Sample.host Sample.all {} Sample.even = .ok .text := rfl
  have hselects : Semantics.Selects Sample.host Sample.all Sample.even 255 {} Sample.even.root
      (Sample.toText [.truth, .number, .number]) :=
    .call rfl rfl ⟨_, [.truth, .number, .number], rfl, .cons rfl (.cons rfl (.cons rfl .nil)), rfl⟩
  have hmade := Sample.builtOf_hosted.made
  refine ⟨hcheck, hselects, ?_⟩
  exact ((runs_selected Sample.reached_host Sample.builtOf_hosted .empty List.mem_cons_self
    List.mem_cons_self BEq.rfl (fun v value h => absurd h (by simp [Sample.host, Sample.manager]))
    hcheck .here fun j below levels cx o _ h => Sample.steadyAt_even
      ((Semantics.selects_iff_chooses hmade .empty).1 h).1).2 255 {} _ hselects 255 {}).1

/-- **Strategies can part the two passes.** A check accepts both formulas. For the first it
selects one overload of `pick`, and the evaluation passes the text over and runs another,
which answers in another format. The second is settled by a truth value, and the overload
that was selected for it answers numbers. -/
theorem runs_unselected :
    (Sample.host.Reached [Sample.someone] ∧ Sample.host.functions.BuiltOf Overload.Faithful ∧
      Sample.host.operators.BuiltOf Overload.Faithful ∧ ∀ v, Sample.host.stored v = none) ∧
    (Semantics.run Sample.host Sample.all {} Sample.uneven = .ok .number ∧
      Semantics.Selects Sample.host Sample.all Sample.uneven 255 {} Sample.uneven.root
        (Sample.toNumber [.truth, .number, .text]) ∧
      Runs Sample.host Sample.someone Sample.uneven 255 {} Sample.uneven.root
        (Sample.toText [.truth, .number, .number]) ∧
      Sample.toText [.truth, .number, .number] ≠ Sample.toNumber [.truth, .number, .text] ∧
      run Sample.host Sample.someone {} Sample.uneven = .ok (.text "")) ∧
    (Semantics.run Sample.host Sample.all {} Sample.settled = .ok .number ∧
      Semantics.Selects Sample.host Sample.all Sample.settled 255 {} Sample.settled.root
        (Sample.toNumber [.truth, .number]) ∧
      Settles Sample.host Sample.someone Sample.settled 255 {} Sample.settled.root
        (.truth true) ∧
      ((Value.truth true).format == (Sample.toNumber [.truth, .number]).signature.result) = false ∧
      run Sample.host Sample.someone {} Sample.settled = .ok (.truth true)) := by
  have huneven : Semantics.Selects Sample.host Sample.all Sample.uneven 255 {} Sample.uneven.root
      (Sample.toNumber [.truth, .number, .text]) :=
    .call rfl rfl ⟨_, [.truth, .number, .text], rfl, .cons rfl (.cons rfl (.cons rfl .nil)), rfl⟩
  have hruns : Runs Sample.host Sample.someone Sample.uneven 255 {} Sample.uneven.root
      (Sample.toText [.truth, .number, .number]) :=
    .call rfl rfl ⟨.exact, [.truth true, .number .zero, .number .zero], rfl, ⟨0, rfl, rfl⟩, rfl⟩
  have hsettled : Semantics.Selects Sample.host Sample.all Sample.settled 255 {}
      Sample.settled.root (Sample.toNumber [.truth, .number]) :=
    .call rfl rfl ⟨_, [.truth, .number], rfl, .cons rfl (.cons rfl .nil), rfl⟩
  have hsettles : Settles Sample.host Sample.someone Sample.settled 255 {} Sample.settled.root
      (.truth true) := .call rfl rfl ⟨rfl, rfl⟩
  have hother : Sample.toText [.truth, .number, .number] ≠
      Sample.toNumber [.truth, .number, .text] := by
    intro h
    have hresult := congrArg (fun o => o.signature.result) h
    exact absurd hresult (by simp [Sample.toText, Sample.toNumber])
  exact ⟨⟨Sample.reached_host, Sample.builtOf_hosted, .empty, fun _ => rfl⟩,
    ⟨rfl, huneven, hruns, hother, rfl⟩, ⟨rfl, hsettled, hsettles, rfl, rfl⟩⟩

end Evaluation

end Formulary
