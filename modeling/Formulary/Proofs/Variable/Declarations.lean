import Formulary.Proofs.Chronicle
import Mathlib.Data.Finset.Card
/-!
# Declarations, once made

A variable carries the format that was declared when its name was resolved. The first
declaration of a name in a scope stands, whatever a host does next (`Kept.declared`,
`Later.declared`). So a variable that is resolved later has the same format
(`Later.format_eq`), and a name stands for one variable of an instance
(`Kept.eq_of_owner_beq`).
-/

namespace Formulary

namespace Chronicle

variable {r r' : Chronicle} {v w : VariableId}

/-! ## What is read off a chronicle -/

/-- What a declaration is known by: the number of its scope, and its name. -/
def pairs (r : Chronicle) : List (Nat × Name) := r.asked.map fun x => (x.scope.id, x.name)

/-- A pair is declared if a declaration of it was asked for. -/
theorem Kept.mem_keys_iff (h : r.Kept) {pair : Nat × Name} :
    pair ∈ r.manager.declarations.declarations.keys ↔ pair ∈ r.pairs := by
  -- any scope with the number will do
  let scope : LegalScope := ⟨⟨pair.1, pair.2, ""⟩, []⟩
  have hfind : r.manager.declarations.declarations.find? pair =
      r.declaredFormat? scope pair.2 := rfl
  rw [Table.mem_keys_iff, hfind, h.declared, Declaration.format?, Option.isSome_map,
    List.find?_isSome, pairs, List.mem_map]
  refine exists_congr fun x => and_congr_right fun _ => ?_
  rw [Bool.and_eq_true, LegalScope.beq_iff, beq_iff_eq, Prod.ext_iff]
  exact Iff.rfl

/-- **There are as many declarations as pairs.** -/
theorem Kept.size_eq (h : r.Kept) : r.manager.declarations.size = r.pairs.toFinset.card := by
  have hsame : r.manager.declarations.declarations.keys.toFinset = r.pairs.toFinset := by
    ext pair
    rw [List.mem_toFinset, List.mem_toFinset, h.mem_keys_iff]
  rw [← hsame, List.toFinset_card_of_nodup h.keys, Table.keys, List.length_map]
  rfl

/-- Equal scopes that were declared in are one. -/
theorem Kept.scope_eq (h : r.Kept) {x y : Declaration} (hx : x ∈ r.asked) (hy : y ∈ r.asked)
    (hxy : (x.scope == y.scope) = true) : x.scope = y.scope :=
  ScopeTree.eq_of_id_eq h.scopes.wellFormed (h.asked x hx) (h.asked y hy) (LegalScope.beq_iff.1 hxy)

/-- **A name has one format in a scope,** from whichever instance it is used, and whenever. -/
theorem Later.format_eq (hl : Later r r') {i j : ScopeInstance} {names names' : Interner}
    {name name' : Name} {limit limit' : Nat}
    (hv : r.manager.declarations.resolve names i name limit = .ok v)
    (hw : r'.manager.declarations.resolve names' j name' limit' = .ok w)
    (hscope : (v.owner.scope == w.owner.scope) = true) (hname : v.name = w.name) :
    v.format = w.format := by
  obtain ⟨⟨hvname, -⟩, -, -, -, -, -, hvformat⟩ := VariableLibrary.resolve_eq_ok_iff.1 hv
  obtain ⟨⟨hwname, -⟩, -, -, -, -, -, hwformat⟩ := VariableLibrary.resolve_eq_ok_iff.1 hw
  have hlater := hl.declared _ _ _ hvformat
  have hsame : (v.owner.scope == w.owner.scope && name == name') = true :=
    Bool.and_eq_true_iff.2 ⟨hscope, beq_iff_eq.2 (hvname.symm.trans (hname.trans hwname))⟩
  rw [declaredFormat?, ← VariableLibrary.declaredFormat?_congr hsame, hwformat] at hlater
  exact (Option.some.inj hlater).symm

/-- **A later declaration changes nothing,** and is accepted if it asks for what is declared. -/
theorem declare_of_declared {scope : LegalScope} {label : String} {name : Name}
    {existing : Format} (hname : r.manager.names.get? label = some name)
    (hexisting : r.declaredFormat? scope name = some existing) (format : Format) :
    (r.manager.declare scope label format).1 = (if existing == format then .ok name
        else .error (.conflictingDeclaration label scope.path existing format)) ∧
      (r.manager.declare scope label format).2.declarations = r.manager.declarations := by
  have hknown := Interner.tryIntern_of_get? hname
  rcases Definitions.declare_cases r.manager.toDefinitions scope label format with
    ⟨e, he, -⟩ | ⟨declared, names, hintern, hcases⟩
  · rw [hknown] at he
    cases he
  · rw [hknown] at hintern
    cases hintern
    rcases hcases with ⟨hnone, -⟩ | ⟨found, hfound, hd⟩
    · rw [declaredFormat?, hnone] at hexisting
      cases hexisting
    · rw [declaredFormat?, hfound] at hexisting
      cases hexisting
      rw [hd]
      exact ⟨rfl, rfl⟩

/-- The first declaration of a name in a scope is accepted. -/
theorem declare_of_new {scope : LegalScope} {label : String} {name : Name} {names : Interner}
    (hintern : r.manager.names.tryIntern label = .ok (name, names))
    (hnone : r.declaredFormat? scope name = none) (format : Format) :
    (r.manager.declare scope label format).1 = .ok name ∧
      (r.declare scope label format).declaredFormat? scope name = some format := by
  have hdeclared : (r.declare scope label format).declaredFormat? scope name =
      (r.manager.declare scope label format).2.declarations.declaredFormat? scope name := rfl
  rw [hdeclared]
  rcases Definitions.declare_cases r.manager.toDefinitions scope label format with
    ⟨e, he, -⟩ | ⟨declared, names', hintern', hcases⟩
  · rw [hintern] at he
    cases he
  · rw [hintern] at hintern'
    cases hintern'
    rcases hcases with ⟨-, hd⟩ | ⟨found, hfound, -⟩
    · rw [hd, VariableLibrary.declaredFormat?_insert, if_pos (by simp)]
      exact ⟨rfl, rfl⟩
    · rw [declaredFormat?, hfound] at hnone
      cases hnone

/-- A declaration that is refused declares nothing. -/
theorem declarations_of_error {scope : LegalScope} {label : String} {format : Format}
    {e : ConfigError} (he : (r.manager.declare scope label format).1 = .error e) :
    (r.manager.declare scope label format).2.declarations = r.manager.declarations := by
  have hanswer : r.manager.declare scope label format =
      (.error e, (r.manager.declare scope label format).2) := Prod.ext he rfl
  exact Definitions.declare_eq_error hanswer

end Chronicle

/-! ## A chronicle to go by -/

namespace Sample

/-- The budget of the company is a number; it was to be a text, and was not. A team had the
budget of its company until it declared one of its own. -/
def shadowed : Chronicle where
  manager := {
    names := words
    declarations := ⟨⟨[((0, budget), .number), ((1, budget), .text)]⟩⟩
    scopes := ⟨[company, team]⟩
    instances := staffed }
  asked := [⟨company, budget, .number⟩, ⟨company, budget, .text⟩, ⟨team, budget, .text⟩]
  log := [.resolved (budgetOf acme), .resolved (budgetOf acme), .obtained sales, .obtained acme]

theorem run_shadowed : Chronicle.Run blank shadowed := by
  let declared := (charted.declare company "budget" .number).declare company "budget" .text
  have hdeclared : Chronicle.Run blank declared :=
    (run_charted.tail (.declare List.mem_cons_self "budget" .number)).tail
      (.declare List.mem_cons_self "budget" .text)
  have hacme : declared.manager.newInstance company "acme" none =
      .ok (acme, { declared.manager with instances := ⟨⟨[(⟨0, none, "acme"⟩, acme)]⟩, 1⟩ }) := rfl
  have hsales : ({ declared.manager with
      instances := ⟨⟨[(⟨0, none, "acme"⟩, acme)]⟩, 1⟩ } : FormulaManager).newInstance team "sales"
      (some acme) = .ok (sales, { declared.manager with instances := staffed }) := rfl
  have hbudget : budgets.resolve words sales budget 64 = .ok (budgetOf acme) := rfl
  have hbudgetAgain : shadowed.manager.declarations.resolve words acme budget 64 =
      .ok (budgetOf acme) := rfl
  have hobtained := (hdeclared.tail (.obtain List.mem_cons_self (by simp) hacme)).tail
    (.obtain (List.mem_cons_of_mem _ List.mem_cons_self) (by simp) hsales)
  have hresolved := hobtained.tail (.resolve List.mem_cons_self hbudget)
  have hshadowed := hresolved.tail
    (.declare (List.mem_cons_of_mem _ List.mem_cons_self) "budget" .text)
  have hheld : .obtained acme ∈
      [Event.resolved (budgetOf acme), .obtained sales, .obtained acme] := by simp
  exact hshadowed.tail (.resolve hheld hbudgetAgain)

end Sample

namespace Chronicle

/-- What is declared in a chronicle was declared once. -/
structure DeclaredOnce (r : Chronicle) : Prop where
  /-- What is declared for a name in a scope is what the first declaration of it that was asked
  for says, -/
  first : ∀ scope name, r.declaredFormat? scope name = Declaration.format? r.asked scope name
  /-- and it stays so whatever the host does next. -/
  stays : ∀ r', Run r r' → ∀ scope name format, r.declaredFormat? scope name = some format →
    r'.declaredFormat? scope name = some format
  /-- The first declaration is accepted if its string can have a name. -/
  accepted : ∀ scope label name names format,
    r.manager.names.tryIntern label = .ok (name, names) → r.declaredFormat? scope name = none →
      (r.manager.declare scope label format).1 = .ok name ∧
        (r.declare scope label format).declaredFormat? scope name = some format
  /-- A later one changes nothing. It is accepted if it asks for the format that is declared,
  and is refused for a conflict if it asks for another. -/
  repeated : ∀ scope label name existing format, r.manager.names.get? label = some name →
    r.declaredFormat? scope name = some existing →
      (r.manager.declare scope label format).1 = (if existing == format then .ok name
        else .error (.conflictingDeclaration label scope.path existing format)) ∧
      (r.manager.declare scope label format).2.declarations = r.manager.declarations
  /-- Whatever the reason, to refuse changes no declaration. -/
  refused : ∀ scope label format e, (r.manager.declare scope label format).1 = .error e →
    (r.manager.declare scope label format).2.declarations = r.manager.declarations
  /-- There are as many declarations as scopes and names that were declared, -/
  counted : r.manager.declarations.size =
    (r.asked.map fun x => (x.scope.id, x.name)).toFinset.card
  /-- and the number of a scope stands for the scope. -/
  scopes : ∀ x ∈ r.asked, ∀ y ∈ r.asked, (x.scope == y.scope) = true → x.scope = y.scope
  /-- Variables of one instance and one name that were ever resolved have one format and are
  one. -/
  variable_eq : ∀ v w, .resolved v ∈ r.log → .resolved w ∈ r.log → (v.owner == w.owner) = true →
    v.name = w.name → v.format = w.format ∧ (v == w) = true
  /-- Variables of one scope and one name have one format, whatever the instances are that they
  are resolved from, now and later. -/
  format_eq : ∀ r', Run r r' → ∀ i j names names' name name' limit limit' v w,
    r.manager.declarations.resolve names i name limit = .ok v →
    r'.manager.declarations.resolve names' j name' limit' = .ok w →
    (v.owner.scope == w.owner.scope) = true → v.name = w.name → v.format = w.format

/-- **Declarations are made once,** whatever a host has done. -/
theorem declared_once {r₀ : Chronicle} (hblank : r₀.Blank) (hrun : Run r₀ r) :
    r.DeclaredOnce := by
  have hkept : r.Kept := hblank.kept.run hrun
  exact {
    first := hkept.declared
    stays := fun _ h => h.later.declared
    accepted := fun _ _ _ _ format hintern hnone => declare_of_new hintern hnone format
    repeated := fun _ _ _ _ format hname hfound => declare_of_declared hname hfound format
    refused := fun _ _ _ _ => declarations_of_error
    counted := hkept.size_eq
    scopes := fun _ hx _ hy => hkept.scope_eq hx hy
    variable_eq := fun v w hv hw howner hname => by
      obtain rfl : v = w := hkept.eq_of_owner_beq hv hw howner hname
      exact ⟨rfl, BEq.rfl⟩
    format_eq := fun _ h _ _ _ _ _ _ _ _ _ _ => h.later.format_eq }

/-- The first declaration of the budget stands, in the company as in the team. -/
theorem declared_once_shadowed :
    Sample.blank.Blank ∧ Run Sample.blank Sample.shadowed ∧
      Sample.shadowed.declaredFormat? Sample.company Sample.budget = some .number ∧
      Sample.shadowed.declaredFormat? Sample.team Sample.budget = some .text ∧
      (Sample.shadowed.manager.declare Sample.company "budget" .text).1 =
        .error (.conflictingDeclaration "budget" "company" .number .text) ∧
      Sample.shadowed.manager.declarations.size = 2 ∧
      (Sample.budgetOf Sample.acme == Sample.budgetOf Sample.acme) = true := by
  have honce := declared_once Sample.blank_blank Sample.run_shadowed
  have hcompany : Sample.shadowed.declaredFormat? Sample.company Sample.budget = some .number :=
    (honce.first _ _).trans rfl
  have hname : Sample.shadowed.manager.names.get? "budget" = some Sample.budget := rfl
  have hresolved : .resolved (Sample.budgetOf Sample.acme) ∈ Sample.shadowed.log :=
    List.mem_cons_self
  refine ⟨Sample.blank_blank, Sample.run_shadowed, hcompany, (honce.first _ _).trans rfl,
    ?_, ?_, ?_⟩
  · exact (honce.repeated Sample.company "budget" _ _ .text hname hcompany).1
  · exact honce.counted.trans (by decide)
  · exact (honce.variable_eq _ _ hresolved hresolved BEq.rfl rfl).2

end Chronicle

end Formulary
