import Formulary.Proofs.Variable.Agreement
/-!
# The nearest declaration, and how far it may be

A host declares variables while it makes its definitions. Some declarations are accepted and
some are refused, and the first that is accepted for a scope and a name stands
(`Definitions.Declared.declaredFormat?_eq`). So what a scope declares is read off the log of
what was accepted.

A look outwards from a scope stops at the limit before it looks at the next scope. What
it comes to is decided by the place of the first scope of the chain that declares the name,
by the length of the chain and by the limit: each of the three ways a look may end is
characterised by them alone (`nearest_eq_found_iff_findIdx?`, `nearest_eq_missing_iff`,
`nearest_eq_tooDeep_iff`).
-/

namespace Formulary

/-! ## Where a look ends -/

section

variable {α : Type} {format? : α → Option Format} {limit : Nat} {places : List α}

/-- **A look finds the first place that has a format,** if the limit lies beyond it. -/
theorem nearest_eq_found_iff_findIdx? {place : α} {format : Format} :
    nearest format? limit places = .found place format ↔
      ∃ k, places.findIdx? (fun p => (format? p).isSome) = some k ∧ k < limit ∧
        places[k]? = some place ∧ format? place = some format := by
  induction places generalizing limit with
  | nil => cases limit <;> simp [nearest]
  | cons p rest ih =>
    rw [List.findIdx?_cons]
    cases limit with
    | zero => simp [nearest]
    | succ limit =>
      cases hp : format? p with
      | some found =>
        have hfirst : nearest format? (limit + 1) (p :: rest) = .found p found := by
          simp only [nearest, hp]
        rw [hfirst]
        constructor
        · intro h
          cases h
          exact ⟨0, rfl, Nat.succ_pos limit, rfl, hp⟩
        · rintro ⟨k, hk, -, hplace, hformat⟩
          obtain rfl : 0 = k := Option.some.inj hk
          obtain rfl : p = place := Option.some.inj hplace
          rw [hp] at hformat
          rw [Option.some.inj hformat]
      | none =>
        -- one place further in, everything is one less
        have hrest : nearest format? (limit + 1) (p :: rest) = nearest format? limit rest := by
          simp only [nearest, hp]
        rw [hrest, ih]
        constructor
        · rintro ⟨k, hk, hlt, hplace, hformat⟩
          refine ⟨k + 1, ?_, Nat.succ_lt_succ hlt, hplace, hformat⟩
          rw [hk]
          rfl
        · rintro ⟨k, hk, hlt, hplace, hformat⟩
          obtain ⟨j, hj, rfl⟩ := Option.map_eq_some_iff.1 hk
          exact ⟨j, hj, Nat.lt_of_succ_lt_succ hlt, hplace, hformat⟩

/-- A look that ends at the end of the chain has passed all of it. -/
theorem nearest_eq_missing_iff :
    nearest format? limit places = .missing ↔
      places.findIdx? (fun p => (format? p).isSome) = none ∧ places.length ≤ limit := by
  constructor
  · intro h
    have hnone : ∀ p ∈ places.take limit, format? p = none := by
      intro p hp
      rw [← Option.not_isSome_iff_eq_none]
      intro hsome
      obtain ⟨place, format, hfound⟩ := exists_nearest_eq_found hp hsome
      rw [h] at hfound
      cases hfound
    have hshort : places.length ≤ limit := by
      have hend := nearest_of_forall_none hnone
      rw [h] at hend
      split at hend
      · assumption
      · cases hend
    refine ⟨List.findIdx?_eq_none_iff.2 fun p hp => ?_, hshort⟩
    rw [List.take_of_length_le hshort] at hnone
    rw [hnone p hp]
    rfl
  · rintro ⟨hnone, hshort⟩
    have hall : ∀ p ∈ places.take limit, format? p = none := by
      intro p hp
      have hp : (format? p).isSome = false :=
        List.findIdx?_eq_none_iff.1 hnone p (List.mem_of_mem_take hp)
      exact Option.not_isSome_iff_eq_none.1 (by rw [hp]; exact Bool.false_ne_true)
    rw [nearest_of_forall_none hall, if_pos hshort]

/-- A look comes to the limit in all other cases. -/
theorem nearest_eq_tooDeep_iff :
    nearest format? limit places = .tooDeep ↔
      (∀ k, places.findIdx? (fun p => (format? p).isSome) = some k → limit ≤ k) ∧
        (places.findIdx? (fun p => (format? p).isSome) = none → limit < places.length) := by
  constructor
  · intro h
    refine ⟨fun k hk => Nat.le_of_not_lt fun hlt => ?_,
      fun hnone => Nat.lt_of_not_le fun hshort => ?_⟩
    · obtain ⟨hbound, hsome, -⟩ := List.findIdx?_eq_some_iff_getElem.1 hk
      obtain ⟨format, hformat⟩ := Option.isSome_iff_exists.1 hsome
      have hfound : nearest format? limit places = .found places[k] format :=
        nearest_eq_found_iff_findIdx?.2
          ⟨k, hk, hlt, List.getElem?_eq_getElem hbound, hformat⟩
      rw [h] at hfound
      cases hfound
    · have hmissing := nearest_eq_missing_iff.2 ⟨hnone, hshort⟩
      rw [h] at hmissing
      cases hmissing
  · rintro ⟨hfar, hlong⟩
    cases hlook : nearest format? limit places with
    | tooDeep => rfl
    | found place format =>
      obtain ⟨k, hk, hlt, -⟩ := nearest_eq_found_iff_findIdx?.1 hlook
      have hle := hfar k hk
      omega
    | missing =>
      obtain ⟨hnone, hshort⟩ := nearest_eq_missing_iff.1 hlook
      have hlt := hlong hnone
      omega

end

/-! ## What was declared -/

/-- A declaration of a name in a scope. -/
structure Declaration where
  scope : LegalScope
  name : Name
  format : Format

/-- The format that the first declaration of a name in a scope gives it. -/
def Declaration.format? (log : List Declaration) (scope : LegalScope) (name : Name) :
    Option Format :=
  (log.find? fun x => x.scope == scope && x.name == name).map Declaration.format

/-- One more declaration counts where there was none before. -/
theorem Declaration.format?_concat (log : List Declaration) (x : Declaration) (scope : LegalScope)
    (name : Name) : Declaration.format? (log ++ [x]) scope name =
      (Declaration.format? log scope name).or
        (if x.scope == scope && x.name == name then some x.format else none) := by
  unfold Declaration.format?
  rw [List.find?_append, List.find?_singleton]
  cases log.find? fun x => x.scope == scope && x.name == name with
  | some x => rfl
  | none => cases x.scope == scope && x.name == name <;> rfl

namespace VariableLibrary

variable {l : VariableLibrary} {scope place : LegalScope} {name other : Name}

/-- A format that is put in is that of the name in the scope, and of no other. -/
theorem declaredFormat?_insert (l : VariableLibrary) (scope place : LegalScope)
    (name other : Name) (format : Format) :
    (⟨l.declarations.insert (scope.id, name) format⟩ : VariableLibrary).declaredFormat? place other =
      if scope == place && name == other then some format else l.declaredFormat? place other :=
  Table.find?_insert l.declarations (scope.id, name) (place.id, other) format

/-- Equal scopes declare alike. -/
theorem declaredFormat?_congr (h : (scope == place && name == other) = true) :
    l.declaredFormat? place other = l.declaredFormat? scope name := by
  obtain ⟨hscope, hname⟩ := Bool.and_eq_true_iff.1 h
  rw [declaredFormat?, declaredFormat?, LegalScope.beq_iff.1 hscope, eq_of_beq hname]

end VariableLibrary

namespace Definitions

/-- Definitions that began without declarations, and the declarations that were accepted since,
oldest first. Others may have been refused, and scopes, formats, functions, limits and names
may have been added at any time. -/
inductive Declared : Definitions → List Declaration → Prop
  | start {d : Definitions} (h : d.declarations = {}) : Declared d []
  | accept {d d' : Definitions} {log : List Declaration} {scope : LegalScope} {label : String}
      {name : Name} {format : Format} (h : Declared d log)
      (ha : d.declare scope label format = (.ok name, d')) :
      Declared d' (log ++ [⟨scope, name, format⟩])
  | refuse {d d' : Definitions} {log : List Declaration} {scope : LegalScope} {label : String}
      {format : Format} {e : ConfigError} (h : Declared d log)
      (ha : d.declare scope label format = (.error e, d')) : Declared d' log
  | define {d d' : Definitions} {log : List Declaration} (h : Declared d log)
      (hd : d'.declarations = d.declarations) : Declared d' log

variable {d d' : Definitions} {scope place : LegalScope} {label : String} {name : Name}
variable {format : Format} {log : List Declaration}

/-- A declaration that is accepted is one that the declarations accept. -/
theorem declare_eq_ok (h : d.declare scope label format = (.ok name, d')) :
    d.declarations.declare scope name label format = .ok d'.declarations := by
  unfold declare at h
  split at h
  · cases h
  · dsimp only at h
    split at h
    · cases h
    · rename_i declarations haccepted
      cases h
      exact haccepted

/-- A declaration that is refused declares nothing. -/
theorem declare_eq_error {e : ConfigError}
    (h : d.declare scope label format = (.error e, d')) : d'.declarations = d.declarations := by
  unfold declare at h
  split at h
  · cases h
    rfl
  · dsimp only at h
    split at h
    · cases h
      rfl
    · cases h

/-- **The first declaration that was accepted for a scope and a name stands.** -/
theorem Declared.declaredFormat?_eq (h : d.Declared log) :
    d.declarations.declaredFormat? place name = Declaration.format? log place name := by
  induction h with
  | start h => rw [h]; rfl
  | refuse _ ha ih => rw [declare_eq_error ha, ih]
  | define _ hd ih => rw [hd, ih]
  | @accept d d' log scope label declared format _ ha ih =>
    rw [Declaration.format?_concat, ← ih]
    rcases VariableLibrary.declare_eq_ok (declare_eq_ok ha) with
      ⟨hnone, hnew⟩ | ⟨⟨existing, hexisting⟩, hsame⟩
    · rw [hnew, VariableLibrary.declaredFormat?_insert]
      split
      · -- the place is the one where nothing was declared before
        rename_i h
        rw [VariableLibrary.declaredFormat?_congr h, hnone]
        rfl
      · rw [Option.or_none]
    · rw [hsame]
      split
      · rename_i h
        rw [VariableLibrary.declaredFormat?_congr h, hexisting]
        rfl
      · rw [Option.or_none]

end Definitions

/-! ## What a resolution comes to -/

/-- The place in the chain of a scope, counted from the scope itself, of the first scope that
declares a name. -/
def Declaration.place? (log : List Declaration) (scope : LegalScope) (name : Name) : Option Nat :=
  scope.ancestors.findIdx? fun s => (Declaration.format? log s name).isSome

namespace Definitions

/-- **A name used in a scope is resolved to the nearest declaration, within the limit.** If
the `k`-th scope of the chain is the first that declares the name, the resolution finds that
scope and its format just when `k` is below the limit. The name is undeclared just when no
scope of the chain declares it and the whole chain may be searched. In all other cases the
chain is too deep. Both errors name the scope where the search began. -/
theorem Declared.resolveInScope_nearest {d : Definitions} {log : List Declaration}
    (h : d.Declared log) (names : Interner) (scope : LegalScope) (name : Name) (limit : Nat) :
    (∀ place format,
      d.declarations.resolveInScope names scope name limit = .ok (place, format) ↔
        ∃ k, Declaration.place? log scope name = some k ∧ k < limit ∧
          scope.ancestors[k]? = some place ∧ Declaration.format? log place name = some format) ∧
    (∀ text path,
      d.declarations.resolveInScope names scope name limit = .error (.undeclared text path) ↔
        (text = names.lookup name ∧ path = scope.path) ∧
          Declaration.place? log scope name = none ∧ scope.ancestors.length ≤ limit) ∧
    ∀ e, d.declarations.resolveInScope names scope name limit = .error (.config e) ↔
      e = .scopeChainTooDeep scope.path limit ∧
        (∀ k, Declaration.place? log scope name = some k → limit ≤ k) ∧
        (Declaration.place? log scope name = none → limit < scope.ancestors.length) := by
  have hformats : (fun s => d.declarations.declaredFormat? s name) =
      fun s => Declaration.format? log s name := funext fun s => h.declaredFormat?_eq
  refine ⟨fun place format => ?_, fun text path => ?_, fun e => ?_⟩
  · rw [VariableLibrary.resolveInScope_eq_ok_iff_nearest, hformats,
      nearest_eq_found_iff_findIdx?, Declaration.place?]
  · rw [VariableLibrary.resolveInScope_eq_undeclared_iff_nearest, hformats,
      nearest_eq_missing_iff, Declaration.place?]
  · rw [VariableLibrary.resolveInScope_eq_config_iff_nearest, hformats,
      nearest_eq_tooDeep_iff, Declaration.place?]

/-- The company declares its budget as a number. A second declaration of it as text is refused,
but the team may have a text of that name. -/
theorem Declared.resolveInScope_team :
    ∃ (d : Definitions) (log : List Declaration), d.Declared log ∧
      d.declarations.resolveInScope d.names Sample.company Sample.budget 1 =
        .ok (Sample.company, .number) ∧
      d.declarations.resolveInScope d.names Sample.team Sample.budget 1 =
        .ok (Sample.team, .text) ∧
      d.declarations.resolveInScope d.names Sample.team Sample.budget 0 =
        .error (.config (.scopeChainTooDeep "company.team" 0)) ∧
      d.declarations.resolveInScope d.names Sample.team Sample.team.name 2 =
        .error (.undeclared "team" "company.team") ∧
      d.declarations.resolveInScope d.names Sample.team Sample.team.name 1 =
        .error (.config (.scopeChainTooDeep "company.team" 1)) := by
  let bare : Definitions := { names := Sample.words, scopes := ⟨[Sample.company, Sample.team]⟩ }
  let once : Definitions := { bare with declarations := Sample.budgets }
  let twice : Definitions :=
    { bare with declarations := ⟨⟨[((0, Sample.budget), .number), ((1, Sample.budget), .text)]⟩⟩ }
  have haccepted : bare.declare Sample.company "budget" .number = (.ok Sample.budget, once) := rfl
  have hrefused : once.declare Sample.company "budget" .text =
      (.error (.conflictingDeclaration "budget" "company" .number .text), once) := rfl
  have hshadow : once.declare Sample.team "budget" .text = (.ok Sample.budget, twice) := rfl
  have hstart : bare.Declared [] := .start rfl
  have hlog := ((hstart.accept haccepted).refuse hrefused).accept hshadow
  have hteam := hlog.resolveInScope_nearest Sample.words Sample.team
  refine ⟨twice, _, hlog, ?_, ?_, ?_, ?_, ?_⟩
  · have hcompany := hlog.resolveInScope_nearest Sample.words Sample.company Sample.budget 1
    exact (hcompany.1 _ _).2 ⟨0, rfl, by decide, rfl, rfl⟩
  · exact ((hteam Sample.budget 1).1 _ _).2 ⟨0, rfl, by decide, rfl, rfl⟩
  · refine ((hteam Sample.budget 0).2.2 _).2 ⟨rfl, fun k _ => Nat.zero_le k, fun hnone => ?_⟩
    cases hnone
  · exact ((hteam Sample.team.name 2).2.1 _ _).2 ⟨⟨rfl, rfl⟩, rfl, by decide⟩
  · refine ((hteam Sample.team.name 1).2.2 _).2 ⟨rfl, fun k hk => ?_, fun _ => by decide⟩
    cases hk

end Definitions

end Formulary
