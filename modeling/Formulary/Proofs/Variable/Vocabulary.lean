import Formulary.Proofs.Answers
import Formulary.Proofs.Format.Registry
import Formulary.Proofs.Name.Growth
import Formulary.Proofs.Variable.Agreement
/-!
# Asking for a variable by its text

A host may ask for a variable by the text of its name. The text need not have a name, and
gets one when some formula mentions it, or anything else that shares the interner. A
declared variable has a name (`Definitions.Made.spelled`), so a text without one is declared
nowhere, and is answered without a walk along the scopes.

That is the answer of the walk, unless the walk is too long (`resolve_of_growsTo`): where
there are more scopes than the limit allows, a text that nobody has mentioned is
undeclared, and the same text is a chain too deep once somebody has.
-/

namespace Formulary

namespace Standard

/-- The standard functions bring their names. -/
theorem growsTo_installFunctions (l : Library Name) (names : Interner) :
    names.GrowsTo (installFunctions l names).2 := by
  simp only [installFunctions, numericFunctions, List.foldl_cons, List.foldl_nil]
  exact Interner.growsTo_intern names "abs"
    |>.trans (Interner.growsTo_intern _ "ceil")
    |>.trans (Interner.growsTo_intern _ "floor")
    |>.trans (Interner.growsTo_intern _ "round")
    |>.trans (Interner.growsTo_intern _ "min")
    |>.trans (Interner.growsTo_intern _ "max")
    |>.trans (Interner.growsTo_intern _ "if")

end Standard

namespace VariableLibrary

/-- What is declared after a declaration was declared before, or is of the name that was
declared. -/
theorem declaredFormat?_of_declare {l l' : VariableLibrary} {scope place : LegalScope}
    {name other : Name} {label : String} {format found : Format}
    (h : l.declare scope name label format = .ok l')
    (hfound : l'.declaredFormat? place other = some found) :
    l.declaredFormat? place other = some found ∨ other = name := by
  rcases declare_eq_ok h with ⟨-, hnew⟩ | ⟨-, hsame⟩
  · rw [hnew, declaredFormat?, Table.find?_insert] at hfound
    split at hfound
    · rename_i hkey
      exact .inr (Prod.mk.inj (eq_of_beq hkey)).2.symm
    · exact .inl hfound
  · exact .inl (hsame ▸ hfound)

end VariableLibrary

namespace Definitions

/-- The definitions that a host can make, over an interner that others use too. -/
inductive Made : Definitions → Prop
  | start (names : Interner) : Made { names }
  | standard {d : Definitions} (h : Made d) : Made d.installStandard
  | rootScope {d d' : Definitions} {name : String} {scope : LegalScope} (h : Made d)
      (hs : d.addRootScope name = .ok (scope, d')) : Made d'
  | childScope {d d' : Definitions} {parent scope : LegalScope} {name : String} (h : Made d)
      (hs : d.addChildScope parent name = .ok (scope, d')) : Made d'
  | declare {d : Definitions} (h : Made d) (scope : LegalScope) (label : String)
      (format : Format) : Made (d.declare scope label format).2
  | format {d d' : Definitions} {name defaultKey : String} {format : Format} (h : Made d)
      (hf : d.registerFormat name defaultKey = .ok (format, d')) : Made d'
  | libraries {d : Definitions} (h : Made d) (functions : Library Name)
      (operators : Library Operator) : Made { d with functions, operators }
  | configure {d : Definitions} (h : Made d) (config : FormulaConfig) : Made { d with config }
  | grow {d : Definitions} {names : Interner} (h : Made d) (hg : d.names.GrowsTo names) :
      Made { d with names }

/-- Each declared name is one of the interner. -/
def Spelled (d : Definitions) : Prop := ∀ scope name format,
  d.declarations.declaredFormat? scope name = some format → name.raw < d.names.size

variable {d d' : Definitions}

/-- What adds names and no declarations leaves all declared names in the interner. -/
theorem Spelled.of_growsTo (h : d.Spelled) (hdecl : d'.declarations = d.declarations)
    (hnames : d.names.GrowsTo d'.names) : d'.Spelled := fun scope name format hformat =>
  Nat.lt_of_lt_of_le (h scope name format (hdecl ▸ hformat)) hnames.size_le

/-- The standard library adds the names of its functions. -/
theorem Spelled.installStandard (h : d.Spelled) : d.installStandard.Spelled := by
  have hgrown := Standard.growsTo_installFunctions d.functions d.names
  unfold Definitions.installStandard
  generalize Standard.installFunctions d.functions d.names = installed at hgrown ⊢
  exact h.of_growsTo rfl hgrown

/-- A scope adds its own name. -/
theorem Spelled.insertScope (h : d.Spelled) {name path : String} {enclosing : List ScopeLink}
    {scope : LegalScope}
    (hs : (d.scopes.insert d.names name path enclosing).map (fun (scope, scopes, names) =>
      (scope, ({ d with scopes, names } : Definitions))) = .ok (scope, d')) : d'.Spelled := by
  obtain ⟨⟨scope', scopes, names⟩, hinsert, hpair⟩ := map_eq_ok_iff.1 hs
  cases hpair
  obtain ⟨⟨-, -, hintern⟩, -⟩ := ScopeTree.insert_eq_ok hinsert
  exact h.of_growsTo rfl (Interner.tryIntern_eq_ok hintern).1

/-- **A declaration is of a name that was interned for it.** -/
theorem Spelled.declare (h : d.Spelled) (scope : LegalScope) (label : String) (format : Format) :
    (d.declare scope label format).2.Spelled := by
  unfold Definitions.declare
  split
  · exact h
  · rename_i name names hintern
    obtain ⟨hgrown, hname⟩ := Interner.tryIntern_eq_ok hintern
    dsimp only
    split
    · exact h.of_growsTo rfl hgrown
    · rename_i declarations hdeclare
      intro place other found hfound
      rcases VariableLibrary.declaredFormat?_of_declare hdeclare hfound with hbefore | rfl
      · exact Nat.lt_of_lt_of_le (h place other found hbefore) hgrown.size_le
      · exact Interner.raw_lt_size_of_get? hname

/-- **However definitions were made, each declared name is one of the interner.** -/
theorem Made.spelled (h : d.Made) : d.Spelled := by
  induction h with
  | start names =>
    intro scope name format hformat
    cases hformat
  | standard _ ih => exact ih.installStandard
  | rootScope _ hs ih => exact ih.insertScope hs
  | childScope _ hs ih => exact ih.insertScope hs
  | declare _ scope label format ih => exact ih.declare scope label format
  | format _ hf ih =>
    obtain ⟨⟨format, formats, names⟩, hregister, hpair⟩ := map_eq_ok_iff.1 hf
    cases hpair
    obtain ⟨-, interned, -, hintern, -⟩ := FormatRegistry.register_eq_ok hregister
    exact ih.of_growsTo rfl (Interner.tryIntern_eq_ok hintern).1
  | libraries _ functions operators ih => exact ih
  | configure _ config ih => exact ih
  | grow _ hg ih => exact ih.of_growsTo rfl hg

end Definitions

namespace Sample

/-- The manager of a company and its teams, which looks at one scope only. -/
def chart : FormulaManager where
  names := words
  declarations := budgets
  scopes := ⟨[company, team]⟩
  config := { maxScopeDepth := 1 }
  instances := factory

theorem made_chart : chart.toDefinitions.Made := by
  let one : Definitions :=
    { names := (Interner.fresh.intern "company").2
      scopes := ⟨[company]⟩ }
  let two : Definitions :=
    { names := (one.names.intern "team").2
      scopes := ⟨[company, team]⟩ }
  have hroot : ({} : Definitions).addRootScope "company" = .ok (company, one) := rfl
  have hchild : one.addChildScope company "team" = .ok (team, two) := rfl
  have hone : one.Made := (Definitions.Made.start .fresh).rootScope hroot
  exact ((hone.childScope hchild).declare company "budget" .number).configure { maxScopeDepth := 1 }

end Sample

namespace FormulaManager

variable {m : FormulaManager} {i : ScopeInstance} {s : String} {n : Name} {names : Interner}

/-- The manager when its interner holds other strings. -/
def withNames (m : FormulaManager) (names : Interner) : FormulaManager := { m with names }

/-- **To ask by a text that has a name is to ask by the name.** -/
theorem resolve_eq_resolveName (hn : m.names.get? s = some n) :
    m.resolve i s = m.resolveName i n := by
  rw [resolve, hn]

/-- **A name stands for the same however the interner has grown.** -/
theorem resolveName_withNames (hg : m.names.GrowsTo names) (hn : m.names.get? s = some n) :
    (m.withNames names).resolveName i n = m.resolveName i n := by
  have htext : names.lookup n = m.names.lookup n :=
    (Interner.lookup_of_get? (hg.get?_eq_some hn)).trans (Interner.lookup_of_get? hn).symm
  unfold resolveName VariableLibrary.resolve
  rw [withNames, htext]

/-- **A name that was given out after all declarations is declared nowhere,** and that is
the answer if the walk may go to the end. -/
theorem resolveName_of_new (hm : m.toDefinitions.Made) (hg : m.names.GrowsTo names)
    (hs : m.names.get? s = none) (hn : names.get? s = some n) :
    (m.withNames names).resolveName i n = .error (
      if i.ancestors.length ≤ m.config.maxScopeDepth then .undeclared s i.scope.path
      else .config (.scopeChainTooDeep i.scope.path m.config.maxScopeDepth)) := by
  have hnone : ∀ j ∈ i.ancestors.take m.config.maxScopeDepth,
      m.declarations.declaredFormat? j.scope n = none := by
    intro j _
    rw [Option.eq_none_iff_forall_ne_some]
    intro format hformat
    have hlt : n.raw < m.names.size := hm.spelled j.scope n format hformat
    exact absurd (hg.size_le_raw hs hn) (Nat.not_le_of_lt hlt)
  have hwalk := nearest_of_forall_none hnone
  unfold resolveName VariableLibrary.resolve
  by_cases hshort : i.ancestors.length ≤ m.config.maxScopeDepth
  · rw [if_pos hshort] at hwalk ⊢
    simp only [withNames, hwalk, Interner.lookup_of_get? hn]
  · rw [if_neg hshort] at hwalk ⊢
    simp only [withNames, hwalk]

/-- **To ask by a text is to ask by its name, once it has one.** Before, the answer is the
same if the chain may be walked to its end. If it may not, a text without a name is said to
be undeclared, and the chain is said to be too deep as soon as the text has one. -/
theorem resolve_of_growsTo (hm : m.toDefinitions.Made) (hg : m.names.GrowsTo names)
    (hn : names.get? s = some n) (i : ScopeInstance) :
    (m.withNames names).resolve i s = (m.withNames names).resolveName i n ∧
      ((m.names.get? s).isSome = true ∨ i.ancestors.length ≤ m.config.maxScopeDepth →
        m.resolve i s = (m.withNames names).resolve i s) ∧
      (m.names.get? s = none → m.config.maxScopeDepth < i.ancestors.length →
        m.resolve i s = .error (.undeclared s i.scope.path) ∧
          (m.withNames names).resolve i s =
            .error (.config (.scopeChainTooDeep i.scope.path m.config.maxScopeDepth))) := by
  have hname : (m.withNames names).resolve i s = (m.withNames names).resolveName i n :=
    resolve_eq_resolveName hn
  have hunknown (hs : m.names.get? s = none) :
      m.resolve i s = .error (.undeclared s i.scope.path) := by
    rw [resolve, hs]
  refine ⟨hname, fun h => ?_, fun hs hlong => ⟨hunknown hs, ?_⟩⟩
  · cases hs : m.names.get? s with
    | some k =>
      have hk : k = n := Option.some.inj ((hg.get?_eq_some hs).symm.trans hn)
      rw [hname, ← hk, resolveName_withNames hg hs, resolve_eq_resolveName hs]
    | none =>
      rw [hs] at h
      have hshort := h.resolve_left Bool.false_ne_true
      rw [hname, resolveName_of_new hm hg hs hn, if_pos hshort, hunknown hs]
  · rw [hname, resolveName_of_new hm hg hs hn, if_neg (Nat.not_le_of_lt hlong)]

/-- Nobody has mentioned a ghost. From the company it is undeclared, and stays so. -/
theorem resolve_of_growsTo_acme :
    Sample.chart.toDefinitions.Made ∧
      Sample.chart.names.GrowsTo (Sample.words.intern "ghost").2 ∧
      (Sample.words.intern "ghost").2.get? "ghost" = some ⟨4⟩ ∧
      Sample.chart.resolve Sample.acme "ghost" =
        (Sample.chart.withNames (Sample.words.intern "ghost").2).resolveName Sample.acme ⟨4⟩ := by
  have hg : Sample.chart.names.GrowsTo (Sample.words.intern "ghost").2 :=
    Interner.growsTo_intern Sample.words "ghost"
  have hn : (Sample.words.intern "ghost").2.get? "ghost" = some ⟨4⟩ := rfl
  obtain ⟨hname, hsame, -⟩ := resolve_of_growsTo Sample.made_chart hg hn Sample.acme
  exact ⟨Sample.made_chart, hg, hn, (hsame (.inr (by decide))).trans hname⟩

/-- From the team, whose chain has a scope more than the limit, the ghost is undeclared as
well. Once somebody mentions it, the chain is too deep. -/
theorem resolve_ghost :
    Sample.chart.toDefinitions.Made ∧
      History Sample.chart.scopes Sample.chart.instances [Sample.sales, Sample.acme] ∧
      Sample.chart.resolve Sample.sales "ghost" ≠
        (Sample.chart.withNames (Sample.words.intern "ghost").2).resolve Sample.sales "ghost" ∧
      Sample.chart.resolve Sample.sales "ghost" ≠
        (Sample.chart.withNames (Sample.words.intern "ghost").2).resolveName Sample.sales
          (Sample.words.intern "ghost").1 := by
  have hbefore : Sample.chart.resolve Sample.sales "ghost" =
      .error (.undeclared "ghost" "company.team") := rfl
  have hafter : (Sample.chart.withNames (Sample.words.intern "ghost").2).resolve Sample.sales
      "ghost" = .error (.config (.scopeChainTooDeep "company.team" 1)) := rfl
  have hname : (Sample.chart.withNames (Sample.words.intern "ghost").2).resolveName Sample.sales
      (Sample.words.intern "ghost").1 = .error (.config (.scopeChainTooDeep "company.team" 1)) :=
    rfl
  refine ⟨Sample.made_chart, Sample.history, ?_, ?_⟩
  · rw [hbefore, hafter]
    simp
  · rw [hbefore, hname]
    simp

end FormulaManager

end Formulary
