import Formulary.Manager
import Formulary.Proofs.Instance.Run
/-!
# What a name stands for

A name used in a scope has a format there if some scope of the chain, among as
many as the limit allows, declares it with that format and none before it
declares it at all (`Declares`). That is what a resolution in the scope finds
(`resolveInScope_eq_ok_iff`). Used from an instance it stands for the variable of
the nearest instance whose scope declares it (`StandsFor`), and that is what a
resolution from the instance finds (`resolveName_eq_ok_iff`). The two agree
(`resolveInScope_eq_map_resolve`).
-/

namespace Formulary

/-- **A look along a chain ends at the first place that has a format,** and only
if the limit allows for the places before it. -/
theorem nearest_eq_found_iff {α : Type} {format? : α → Option Format} {limit : Nat}
    {places : List α} {place : α} {format : Format} :
    nearest format? limit places = .found place format ↔
      ∃ before after, places = before ++ place :: after ∧ before.length < limit ∧
        (∀ p ∈ before, format? p = none) ∧ format? place = some format := by
  induction places generalizing limit with
  | nil => cases limit <;> simp [nearest]
  | cons p rest ih =>
    cases limit with
    | zero => simp [nearest]
    | succ limit =>
      rw [nearest]
      cases hp : format? p with
      | some found =>
        constructor
        · intro h
          cases h
          exact ⟨[], rest, rfl, Nat.succ_pos limit, by simp, hp⟩
        · rintro ⟨before, after, hsplit, -, hnone, hplace⟩
          cases before with
          | nil =>
            cases hsplit
            rw [hp] at hplace
            cases hplace
            rfl
          | cons b before =>
            -- the first place would be one without a format
            cases hsplit
            rw [hnone p List.mem_cons_self] at hp
            cases hp
      | none =>
        rw [ih]
        constructor
        · rintro ⟨before, after, rfl, hlt, hnone, hplace⟩
          refine ⟨p :: before, after, rfl, Nat.succ_lt_succ hlt, fun q hq => ?_, hplace⟩
          rcases List.mem_cons.1 hq with rfl | hq
          · exact hp
          · exact hnone q hq
        · rintro ⟨before, after, hsplit, hlt, hnone, hplace⟩
          cases before with
          | nil =>
            cases hsplit
            rw [hp] at hplace
            cases hplace
          | cons b before =>
            cases hsplit
            exact ⟨before, after, rfl, Nat.lt_of_succ_lt_succ hlt,
              fun q hq => hnone q (List.mem_cons_of_mem _ hq), hplace⟩

/-- A look that finds nothing in the places it may search ends at the limit or at the end. -/
theorem nearest_of_forall_none {α : Type} {format? : α → Option Format} {limit : Nat}
    {places : List α} (h : ∀ p ∈ places.take limit, format? p = none) :
    nearest format? limit places = if places.length ≤ limit then .missing else .tooDeep := by
  induction places generalizing limit with
  | nil => cases limit <;> rfl
  | cons p rest ih =>
    cases limit with
    | zero => rfl
    | succ limit =>
      rw [List.take_succ_cons] at h
      have hp : format? p = none := h p List.mem_cons_self
      have hrest := ih fun q hq => h q (List.mem_cons_of_mem _ hq)
      simp only [nearest, hp, hrest, List.length_cons, Nat.add_le_add_iff_right]

/-- A look finds something if a place that it may search has a format. -/
theorem exists_nearest_eq_found {α : Type} {format? : α → Option Format} {limit : Nat}
    {places : List α} {p : α} (hp : p ∈ places.take limit) (h : (format? p).isSome = true) :
    ∃ place format, nearest format? limit places = .found place format := by
  induction places generalizing limit with
  | nil => simp at hp
  | cons q rest ih =>
    cases limit with
    | zero => simp at hp
    | succ limit =>
      rw [List.take_succ_cons] at hp
      cases hq : format? q with
      | some format => exact ⟨q, format, by simp only [nearest, hq]⟩
      | none =>
        rcases List.mem_cons.1 hp with rfl | hp
        · rw [hq] at h
          cases h
        · obtain ⟨place, format, hfound⟩ := ih hp
          exact ⟨place, format, by simp only [nearest, hq, hfound]⟩

namespace VariableLibrary

variable {l : VariableLibrary} {names : Interner} {i : ScopeInstance} {name : Name}
variable {limit : Nat}

/-- **A resolution from an instance finds the nearest instance whose scope declares
the name,** if the limit reaches so far. -/
theorem resolve_eq_ok_iff {v : VariableId} :
    l.resolve names i name limit = .ok v ↔
      (v.name = name ∧ v.label = names.lookup name) ∧
        ∃ before after, i.ancestors = before ++ v.owner :: after ∧ before.length < limit ∧
          (∀ j ∈ before, l.declaredFormat? j.scope name = none) ∧
          l.declaredFormat? v.owner.scope name = some v.format := by
  obtain ⟨owner, name', format, label⟩ := v
  have hfound_iff : nearest (fun j => l.declaredFormat? j.scope name) limit i.ancestors =
      .found owner format ↔ _ := nearest_eq_found_iff
  rw [← hfound_iff]
  unfold resolve
  split
  · rename_i place found hfound
    simp only [hfound, Except.ok.injEq, VariableId.mk.injEq, Search.found.injEq]
    constructor
    · rintro ⟨rfl, rfl, rfl, rfl⟩
      exact ⟨⟨rfl, rfl⟩, rfl, rfl⟩
    · rintro ⟨⟨rfl, rfl⟩, rfl, rfl⟩
      exact ⟨rfl, rfl, rfl, rfl⟩
  · rename_i hdeep
    simp [hdeep]
  · rename_i hmissing
    simp [hmissing]

/-- **A declaration that is accepted** is the first of its name in its scope, or asks for the
format that is declared there already and changes nothing. -/
theorem declare_eq_ok {l' : VariableLibrary} {scope : LegalScope} {label : String}
    {format : Format} (h : l.declare scope name label format = .ok l') :
    l.declaredFormat? scope name = none ∧
        l' = ⟨l.declarations.insert (scope.id, name) format⟩ ∨
      (∃ existing, l.declaredFormat? scope name = some existing) ∧ l' = l := by
  unfold declare at h
  split at h
  · rename_i existing hexisting
    split at h
    · cases h
      exact .inr ⟨⟨existing, hexisting⟩, rfl⟩
    · cases h
  · rename_i hnone
    cases h
    exact .inl ⟨hnone, rfl⟩

/-- **A name means the same seen from an instance as seen in its scope,** and where it
means nothing the same is wrong. -/
theorem resolveInScope_eq_map_resolve (h : i.Mirrors) :
    l.resolveInScope names i.scope name limit =
      (l.resolve names i name limit).map fun v => (v.owner.scope, v.format) := by
  unfold resolveInScope
  rw [← h, nearest_map]
  unfold resolve
  cases nearest (fun j => l.declaredFormat? j.scope name) limit i.ancestors <;> rfl

/-! What a resolution in a scope comes to is how the look along the chain of the scope ends. -/

variable {scope : LegalScope}

theorem resolveInScope_eq_ok_iff_nearest {place : LegalScope} {format : Format} :
    l.resolveInScope names scope name limit = .ok (place, format) ↔
      nearest (fun s => l.declaredFormat? s name) limit scope.ancestors = .found place format := by
  unfold resolveInScope
  cases nearest (fun s => l.declaredFormat? s name) limit scope.ancestors <;> simp

theorem resolveInScope_eq_undeclared_iff_nearest {text path : String} :
    l.resolveInScope names scope name limit = .error (.undeclared text path) ↔
      (text = names.lookup name ∧ path = scope.path) ∧
        nearest (fun s => l.declaredFormat? s name) limit scope.ancestors = .missing := by
  unfold resolveInScope
  cases nearest (fun s => l.declaredFormat? s name) limit scope.ancestors <;> simp [eq_comm]

theorem resolveInScope_eq_config_iff_nearest {e : ConfigError} :
    l.resolveInScope names scope name limit = .error (.config e) ↔
      e = .scopeChainTooDeep scope.path limit ∧
        nearest (fun s => l.declaredFormat? s name) limit scope.ancestors = .tooDeep := by
  unfold resolveInScope
  cases nearest (fun s => l.declaredFormat? s name) limit scope.ancestors <;> simp [eq_comm]

end VariableLibrary

namespace FormulaManager

/-- The format of a name in a scope: that with which the nearest scope declares
it, if the limit reaches so far. -/
def Declares (m : FormulaManager) (scope : LegalScope) (name : Name) (format : Format) : Prop :=
  ∃ before place after, scope.ancestors = before ++ place :: after ∧
    before.length < m.config.maxScopeDepth ∧
    (∀ s ∈ before, m.declarations.declaredFormat? s name = none) ∧
    m.declarations.declaredFormat? place name = some format

variable {m : FormulaManager} {scope : LegalScope} {name : Name} {i : ScopeInstance}

/-- **A resolution in a scope finds what is declared for it.** -/
theorem resolveInScope_eq_ok_iff {format : Format} :
    (∃ place, m.resolveInScope scope name = .ok (place, format)) ↔
      m.Declares scope name format := by
  have hfound (place : LegalScope) : m.resolveInScope scope name = .ok (place, format) ↔
      nearest (fun s => m.declarations.declaredFormat? s name) m.config.maxScopeDepth
        scope.ancestors = .found place format :=
    VariableLibrary.resolveInScope_eq_ok_iff_nearest
  constructor
  · rintro ⟨place, h⟩
    obtain ⟨before, after, h⟩ := nearest_eq_found_iff.1 ((hfound place).1 h)
    exact ⟨before, place, after, h⟩
  · rintro ⟨before, place, after, h⟩
    exact ⟨place, (hfound place).2 (nearest_eq_found_iff.2 ⟨before, after, h⟩)⟩

theorem resolveInScope_eq_map_resolveName (h : i.Mirrors) :
    m.resolveInScope i.scope name =
      (m.resolveName i name).map fun v => (v.owner.scope, v.format) :=
  VariableLibrary.resolveInScope_eq_map_resolve h

/-- The variable of a name, seen from an instance: that of the nearest instance around
whose scope declares the name, if the limit reaches so far. -/
structure StandsFor (m : FormulaManager) (i : ScopeInstance) (name : Name) (v : VariableId) :
    Prop where
  /-- The variable has the name. -/
  name_eq : v.name = name
  /-- It is shown by the text of the name. -/
  label_eq : v.label = m.names.lookup name
  /-- It is declared for its owner, and for no instance nearer than that. -/
  nearest : ∃ before after, i.ancestors = before ++ v.owner :: after ∧
    before.length < m.config.maxScopeDepth ∧
    (∀ j ∈ before, m.declarations.declaredFormat? j.scope name = none) ∧
    m.declarations.declaredFormat? v.owner.scope name = some v.format

/-- **A resolution from an instance finds the variable that the name stands for.** -/
theorem resolveName_eq_ok_iff {v : VariableId} :
    m.resolveName i name = .ok v ↔ m.StandsFor i name v := by
  unfold resolveName
  rw [VariableLibrary.resolve_eq_ok_iff]
  constructor
  · rintro ⟨⟨hname, hlabel⟩, hnearest⟩
    exact ⟨hname, hlabel, hnearest⟩
  · rintro ⟨hname, hlabel, hnearest⟩
    exact ⟨⟨hname, hlabel⟩, hnearest⟩

end FormulaManager

end Formulary
