import Formulary.Proofs.Session
import Formulary.Proofs.Table
import Formulary.Proofs.Variable.Nearest
import Formulary.Proofs.Variable.Vocabulary
import Mathlib.Logic.Relation
/-!
# Chronicles — a host at work

A host may declare variables at any time: before scopes are added and after, between requests
for instances, and after names were resolved. `Chronicle` keeps the manager that it works on,
every declaration that it asked for, accepted or refused, and what it obtained and resolved.

A declaration that is asked for does one of three things (`Definitions.declare_cases`), and
only the first for its scope and name writes a format. So what was declared stays declared
(`Later.declared`), and what a scope declares is read off the declarations that were asked
for (`Kept.declared`). `Kept` collects what holds of every chronicle; one step leaves it
(`Kept.step`), and so does a run.
-/

namespace Formulary

/-! ## One declaration -/

namespace Interner

variable {t : Interner} {s : String}

/-- A string that cannot be interned has no name. -/
theorem get?_of_tryIntern_eq_error {e : InternError} (h : t.tryIntern s = .error e) :
    t.get? s = none := by
  unfold tryIntern at h
  split at h
  · rename_i hfull
    exact hfull.1
  · cases h

/-- A string that has a name can always be interned, and nothing is added. -/
theorem tryIntern_of_get? {n : Name} (h : t.get? s = some n) : t.tryIntern s = .ok (n, t) := by
  have hroom : ¬ (t.get? s = none ∧ capacity ≤ t.size) := by
    rw [h]
    exact fun hfull => absurd hfull.1 (by simp)
  rw [tryIntern, if_neg hroom, intern_of_get?_eq_some h]

end Interner

namespace Definitions

variable {d : Definitions} {scope place : LegalScope} {label : String} {name : Name}
variable {format found : Format}

/-- **What a declaration does.** A string that can have no name declares nothing. The first
declaration of a name in a scope is accepted and writes its format; any later one writes
nothing, and is accepted if it asks for that format. -/
theorem declare_cases (d : Definitions) (scope : LegalScope) (label : String) (format : Format) :
    (∃ e, d.names.tryIntern label = .error e ∧
      d.declare scope label format = (.error (.ofIntern e), d)) ∨
    ∃ name names, d.names.tryIntern label = .ok (name, names) ∧
      (d.declarations.declaredFormat? scope name = none ∧
          d.declare scope label format = (.ok name, { d with
            names
            declarations := ⟨d.declarations.declarations.insert (scope.id, name) format⟩ }) ∨
        ∃ existing, d.declarations.declaredFormat? scope name = some existing ∧
          d.declare scope label format =
            (if existing == format then .ok name
              else .error (.conflictingDeclaration label scope.path existing format),
              { d with names })) := by
  unfold declare
  cases hintern : d.names.tryIntern label with
  | error e => exact .inl ⟨e, rfl, rfl⟩
  | ok interned =>
    obtain ⟨name, names⟩ := interned
    refine .inr ⟨name, names, rfl, ?_⟩
    dsimp only
    unfold VariableLibrary.declare
    cases hdeclared : d.declarations.declaredFormat? scope name with
    | none => exact .inl ⟨rfl, rfl⟩
    | some existing =>
      refine .inr ⟨existing, rfl, ?_⟩
      dsimp only
      cases existing == format <;> rfl

/-- A declaration brings at most its name. -/
theorem growsTo_declare : d.names.GrowsTo (d.declare scope label format).2.names := by
  rcases declare_cases d scope label format with
    ⟨e, -, hd⟩ | ⟨name, names, hintern, ⟨-, hd⟩ | ⟨existing, -, hd⟩⟩
  · rw [hd]
    exact .refl _
  · rw [hd]
    exact (Interner.tryIntern_eq_ok hintern).1
  · rw [hd]
    exact (Interner.tryIntern_eq_ok hintern).1

/-- A declaration is of the scopes there are. -/
theorem scopes_declare : (d.declare scope label format).2.scopes = d.scopes := by
  rcases declare_cases d scope label format with
    ⟨e, -, hd⟩ | ⟨name, names, -, ⟨-, hd⟩ | ⟨existing, -, hd⟩⟩ <;> rw [hd]

/-- **What was declared stays as it was declared.** -/
theorem declaredFormat?_declare (h : d.declarations.declaredFormat? place name = some found) :
    (d.declare scope label format).2.declarations.declaredFormat? place name = some found := by
  rcases declare_cases d scope label format with
    ⟨e, -, hd⟩ | ⟨declared, names, -, ⟨hnone, hd⟩ | ⟨existing, -, hd⟩⟩
  · rw [hd]
    exact h
  · rw [hd, VariableLibrary.declaredFormat?_insert]
    split
    · rename_i hsame
      rw [VariableLibrary.declaredFormat?_congr hsame, hnone] at h
      cases h
    · exact h
  · rw [hd]
    exact h

/-- No key is written twice. -/
theorem nodup_keys_declare (h : d.declarations.declarations.keys.Nodup) :
    (d.declare scope label format).2.declarations.declarations.keys.Nodup := by
  rcases declare_cases d scope label format with
    ⟨e, -, hd⟩ | ⟨name, names, -, ⟨-, hd⟩ | ⟨existing, -, hd⟩⟩
  · rw [hd]
    exact h
  · rw [hd]
    exact Table.nodup_keys_insert h
  · rw [hd]
    exact h

end Definitions

/-! ## A host at work -/

/-- A manager that a host works on, and what the host has done with it. -/
structure Chronicle where
  manager : FormulaManager
  /-- The declarations that were asked for, accepted or refused, oldest first. -/
  asked : List Declaration := []
  /-- What was obtained, released and resolved, latest first. -/
  log : List Event := []

namespace Chronicle

/-- The chronicle with other definitions. -/
def define (r : Chronicle) (d : Definitions) : Chronicle :=
  { r with manager := { r.manager with toDefinitions := d } }

/-- One more declaration is asked for. It is one of the name that its string then has. -/
def declare (r : Chronicle) (scope : LegalScope) (label : String) (format : Format) : Chronicle :=
  let d := (r.manager.declare scope label format).2
  { r.define d with
    asked := r.asked ++ ((d.names.get? label).map fun name => ⟨scope, name, format⟩).toList }

/-- Nothing was done yet. -/
structure Blank (r : Chronicle) : Prop where
  declarations : r.manager.declarations = {}
  scopes : r.manager.scopes = {}
  instances : r.manager.instances = {}
  asked : r.asked = []
  log : r.log = []

/-- What a host may do. It declares variables in scopes of the tree, asks for instances of
them inside instances that it was given, and resolves names from instances that it was given.
Apart from scopes and declarations it may define what it likes, and others may name strings. -/
inductive Step : Chronicle → Chronicle → Prop
  | rootScope {r : Chronicle} {d : Definitions} {name : String} {scope : LegalScope}
      (hs : r.manager.addRootScope name = .ok (scope, d)) : Step r (r.define d)
  | childScope {r : Chronicle} {d : Definitions} {parent scope : LegalScope} {name : String}
      (hp : parent ∈ r.manager.scopes.scopes)
      (hs : r.manager.addChildScope parent name = .ok (scope, d)) : Step r (r.define d)
  | declare {r : Chronicle} {scope : LegalScope} (hs : scope ∈ r.manager.scopes.scopes)
      (label : String) (format : Format) : Step r (r.declare scope label format)
  | define {r : Chronicle} {d : Definitions} (hd : d.declarations = r.manager.declarations)
      (hs : d.scopes = r.manager.scopes) (hn : r.manager.names.GrowsTo d.names) :
      Step r (r.define d)
  | obtain {r : Chronicle} {m : FormulaManager} {scope : LegalScope} {subject : String}
      {parent : Option ScopeInstance} {i : ScopeInstance}
      (hs : scope ∈ r.manager.scopes.scopes) (hp : ∀ p, parent = some p → .obtained p ∈ r.log)
      (hi : r.manager.newInstance scope subject parent = .ok (i, m)) :
      Step r { r with manager := m, log := .obtained i :: r.log }
  | release {r : Chronicle} (i : ScopeInstance) :
      Step r { r with manager := r.manager.releaseInstance i, log := .released i :: r.log }
  | resolve {r : Chronicle} {i : ScopeInstance} {name : Name} {limit : Nat} {v : VariableId}
      (hi : .obtained i ∈ r.log)
      (hv : r.manager.declarations.resolve r.manager.names i name limit = .ok v) :
      Step r { r with log := .resolved v :: r.log }

/-- A host goes on for as long as it likes. -/
abbrev Run : Chronicle → Chronicle → Prop := Relation.ReflTransGen Step

/-- The format of a name in a scope, as declared so far. -/
def declaredFormat? (r : Chronicle) (scope : LegalScope) (name : Name) : Option Format :=
  r.manager.declarations.declaredFormat? scope name

variable {r r' r'' : Chronicle} {i : ScopeInstance} {v w : VariableId}

/-! ## What is never undone -/

/-- One chronicle continues another: names, scopes, declarations and events are still there. -/
structure Later (r r' : Chronicle) : Prop where
  names : r.manager.names.GrowsTo r'.manager.names
  scopes : ∀ s ∈ r.manager.scopes.scopes, s ∈ r'.manager.scopes.scopes
  declared : ∀ scope name format, r.declaredFormat? scope name = some format →
    r'.declaredFormat? scope name = some format
  log : ∀ e ∈ r.log, e ∈ r'.log

theorem Later.refl (r : Chronicle) : Later r r :=
  ⟨.refl _, fun _ hs => hs, fun _ _ _ h => h, fun _ he => he⟩

theorem Later.trans (h : Later r r') (h' : Later r' r'') : Later r r'' where
  names := h.names.trans h'.names
  scopes s hs := h'.scopes s (h.scopes s hs)
  declared scope name format hf := h'.declared scope name format (h.declared scope name format hf)
  log e he := h'.log e (h.log e he)

/-- An added scope brings its name, and leaves what is declared. -/
theorem later_of_insert {d : Definitions} {name path : String} {enclosing : List ScopeLink}
    {scope : LegalScope}
    (hs : (r.manager.scopes.insert r.manager.names name path enclosing).map
      (fun (scope, scopes, names) =>
        (scope, ({ r.manager.toDefinitions with scopes, names } : Definitions))) = .ok (scope, d)) :
    Later r (r.define d) := by
  obtain ⟨⟨s, scopes, names⟩, hinsert, hpair⟩ := map_eq_ok_iff.1 hs
  cases hpair
  obtain ⟨⟨-, -, hintern⟩, -, -⟩ := ScopeTree.insert_eq_ok hinsert
  exact ⟨(Interner.tryIntern_eq_ok hintern).1, fun _ => History.mem_scopes_of_insert hinsert,
    fun _ _ _ h => h, fun _ he => he⟩

/-- **A step undoes nothing.** -/
theorem Step.later (h : Step r r') : Later r r' := by
  cases h with
  | rootScope hs => exact later_of_insert hs
  | childScope _ hs => exact later_of_insert hs
  | declare _ label format =>
    refine ⟨Definitions.growsTo_declare, fun s hs => ?_, fun place name found hf => ?_,
      fun e he => he⟩
    · exact Definitions.scopes_declare.symm ▸ hs
    · exact Definitions.declaredFormat?_declare hf
  | define hd hs hn =>
    refine ⟨hn, fun s hmem => ?_, fun scope name format hf => ?_, fun e he => he⟩
    · exact hs.symm ▸ hmem
    · exact (congrArg (·.declaredFormat? scope name) hd).trans hf
  | obtain _ _ hi =>
    obtain ⟨⟨j, f⟩, -, heq⟩ := map_eq_ok_iff.1 hi
    cases heq
    exact ⟨.refl _, fun _ hs => hs, fun _ _ _ h => h, fun _ he => List.mem_cons_of_mem _ he⟩
  | release i =>
    exact ⟨.refl _, fun _ hs => hs, fun _ _ _ h => h, fun _ he => List.mem_cons_of_mem _ he⟩
  | resolve _ _ =>
    exact ⟨.refl _, fun _ hs => hs, fun _ _ _ h => h, fun _ he => List.mem_cons_of_mem _ he⟩

/-- And neither does a run. -/
theorem Run.later (h : Run r r') : Later r r' := by
  induction h with
  | refl => exact .refl r
  | tail _ hstep ih => exact ih.trans hstep.later

/-! ## What is always so -/

/-- What holds of a manager and of what was done with it. -/
structure Kept (r : Chronicle) : Prop where
  sound : Session.Sound r.log r.manager
  scopes : r.manager.scopes.Grown
  /-- What was asked for is of scopes of the tree. -/
  asked : ∀ x ∈ r.asked, x.scope ∈ r.manager.scopes.scopes
  /-- So is what was obtained. -/
  instances : ∀ i, .obtained i ∈ r.log → i.scope ∈ r.manager.scopes.scopes
  /-- The first declaration that was asked for stands. -/
  declared : ∀ scope name, r.declaredFormat? scope name = Declaration.format? r.asked scope name
  /-- No name is declared twice in a scope. -/
  keys : r.manager.declarations.declarations.keys.Nodup
  spelled : r.manager.toDefinitions.Spelled
  /-- A variable is of an instance that was obtained, has the declared format, and is shown by
  the string of its name. -/
  resolved : ∀ v, .resolved v ∈ r.log → .obtained v.owner ∈ r.log ∧
    r.declaredFormat? v.owner.scope v.name = some v.format ∧
    r.manager.names.get? v.label = some v.name
  /-- An instance is still the one for its key, or it was released, be it with one around it. -/
  held : ∀ i, .obtained i ∈ r.log → r.manager.instances.cached.find? i.key = some i ∨
    ∃ a ∈ i.ancestors, ∃ j, .released j ∈ r.log ∧ (a == j) = true

theorem Blank.kept (h : r.Blank) : r.Kept where
  sound := h.log ▸ Session.sound_of_instances_eq_empty h.instances
  scopes := h.scopes ▸ .empty
  asked := by simp [h.asked]
  instances := by simp [h.log]
  declared scope name := by
    rw [declaredFormat?, h.declarations, h.asked]
    rfl
  keys := by
    rw [h.declarations]
    exact List.nodup_nil
  spelled scope name format hf := by
    rw [h.declarations] at hf
    cases hf
  resolved := by simp [h.log]
  held := by simp [h.log]

/-- What is known of a variable goes on to be so. -/
theorem Kept.resolved_later (h : r.Kept) (hl : Later r r') (hv : .resolved v ∈ r.log) :
    .obtained v.owner ∈ r'.log ∧ r'.declaredFormat? v.owner.scope v.name = some v.format ∧
      r'.manager.names.get? v.label = some v.name := by
  obtain ⟨howner, hformat, hlabel⟩ := h.resolved v hv
  exact ⟨hl.log _ howner, hl.declared _ _ _ hformat, hl.names.get?_eq_some hlabel⟩

/-- Definitions that declare the same, of a tree that has grown, leave what is always so. -/
theorem Kept.define (h : r.Kept) {d : Definitions} (hl : Later r (r.define d))
    (hd : d.declarations = r.manager.declarations) (hs : d.scopes.Grown) : (r.define d).Kept where
  sound := h.sound.of_instances_eq rfl
  scopes := hs
  asked x hx := hl.scopes _ (h.asked x hx)
  instances i hi := hl.scopes _ (h.instances i hi)
  declared scope name := (congrArg (·.declaredFormat? scope name) hd).trans (h.declared scope name)
  keys := hd.symm ▸ h.keys
  spelled := h.spelled.of_growsTo hd hl.names
  resolved _ hv := h.resolved_later hl hv
  held := h.held

/-- **Of the declarations that are asked for, the first of its name in its scope stands.** -/
theorem Kept.declared_declare (h : r.Kept) (scope : LegalScope) (label : String) (format : Format)
    (place : LegalScope) (name : Name) : (r.declare scope label format).declaredFormat? place name =
      Declaration.format? (r.declare scope label format).asked place name := by
  have hasked : (r.declare scope label format).asked = r.asked ++
      (((r.manager.declare scope label format).2.names.get? label).map
        fun name => (⟨scope, name, format⟩ : Declaration)).toList := rfl
  have hdeclared : (r.declare scope label format).declaredFormat? place name =
      (r.manager.declare scope label format).2.declarations.declaredFormat? place name := rfl
  rw [hasked, hdeclared]
  rcases Definitions.declare_cases r.manager.toDefinitions scope label format with
    ⟨e, he, hd⟩ | ⟨declared, names, hintern, ⟨hnone, hd⟩ | ⟨existing, hexisting, hd⟩⟩
  · rw [hd, Interner.get?_of_tryIntern_eq_error he, Option.map_none, Option.toList_none,
      List.append_nil]
    exact h.declared place name
  · rw [hd]
    dsimp only
    rw [(Interner.tryIntern_eq_ok hintern).2, Option.map_some, Option.toList_some,
      Declaration.format?_concat, ← h.declared, VariableLibrary.declaredFormat?_insert]
    split
    · rename_i hsame
      rw [declaredFormat?, VariableLibrary.declaredFormat?_congr hsame, hnone]
      rfl
    · rw [Option.or_none]
      rfl
  · rw [hd]
    dsimp only
    rw [(Interner.tryIntern_eq_ok hintern).2, Option.map_some, Option.toList_some,
      Declaration.format?_concat, ← h.declared]
    split
    · rename_i hsame
      rw [declaredFormat?, VariableLibrary.declaredFormat?_congr hsame, hexisting]
      rfl
    · rw [Option.or_none]
      rfl

/-- A declaration in a scope of the tree leaves what is always so. -/
theorem Kept.declare (h : r.Kept) {scope : LegalScope} (hs : scope ∈ r.manager.scopes.scopes)
    (label : String) (format : Format) : (r.declare scope label format).Kept := by
  have hl : Later r (r.declare scope label format) := (Step.declare hs label format).later
  exact
    { sound := h.sound.of_instances_eq rfl
      scopes := (Definitions.scopes_declare (d := r.manager.toDefinitions)).symm ▸ h.scopes
      asked := fun x hx => by
        rcases List.mem_append.1 hx with hx | hx
        · exact hl.scopes _ (h.asked x hx)
        · obtain ⟨name, -, rfl⟩ := Option.map_eq_some_iff.1 (Option.mem_toList.1 hx)
          exact hl.scopes _ hs
      instances := fun i hi => hl.scopes _ (h.instances i hi)
      declared := h.declared_declare scope label format
      keys := Definitions.nodup_keys_declare h.keys
      spelled := h.spelled.declare scope label format
      resolved := fun _ hv => h.resolved_later hl hv
      held := h.held }

/-- **One more event leaves what is always so** if the definitions stay. What is obtained is of
the tree and in the cache, what is resolved was declared, and what leaves the cache is
released, be it with one around it. -/
theorem Kept.cons (h : r.Kept) {m : FormulaManager} {e : Event}
    (hd : m.toDefinitions = r.manager.toDefinitions) (hsound : Session.Sound (e :: r.log) m)
    (hobtained : ∀ i, e = .obtained i → i.scope ∈ r.manager.scopes.scopes ∧
      m.instances.cached.find? i.key = some i)
    (hresolved : ∀ v, e = .resolved v → .obtained v.owner ∈ r.log ∧
      r.declaredFormat? v.owner.scope v.name = some v.format ∧
      r.manager.names.get? v.label = some v.name)
    (hheld : ∀ i, r.manager.instances.cached.find? i.key = some i →
      m.instances.cached.find? i.key = some i ∨
        ∃ a ∈ i.ancestors, ∃ j, e = .released j ∧ (a == j) = true) :
    Kept { r with manager := m, log := e :: r.log } := by
  obtain ⟨d, instances, stored⟩ := m
  obtain rfl : d = r.manager.toDefinitions := hd
  exact
    { sound := hsound
      scopes := h.scopes
      asked := h.asked
      instances := fun i hi => by
        rcases List.mem_cons.1 hi with hi | hi
        · exact (hobtained i hi.symm).1
        · exact h.instances i hi
      declared := h.declared
      keys := h.keys
      spelled := h.spelled
      resolved := fun v hv => by
        rcases List.mem_cons.1 hv with hv | hv
        · exact (hresolved v hv.symm).imp_left (List.mem_cons_of_mem _)
        · exact (h.resolved v hv).imp_left (List.mem_cons_of_mem _)
      held := fun i hi => by
        rcases List.mem_cons.1 hi with hi | hi
        · exact .inl (hobtained i hi.symm).2
        · rcases h.held i hi with hcached | ⟨a, ha, j, hj, haj⟩
          · rcases hheld i hcached with hcached | ⟨a, ha, j, rfl, haj⟩
            · exact .inl hcached
            · exact .inr ⟨a, ha, j, List.mem_cons_self, haj⟩
          · exact .inr ⟨a, ha, j, List.mem_cons_of_mem _ hj, haj⟩ }

/-- So does a request for an instance of a scope of the tree. -/
theorem Kept.obtain (h : r.Kept) {m : FormulaManager} {scope : LegalScope} {subject : String}
    {parent : Option ScopeInstance} (hs : scope ∈ r.manager.scopes.scopes)
    (hp : ∀ p, parent = some p → .obtained p ∈ r.log)
    (hi : r.manager.newInstance scope subject parent = .ok (i, m)) :
    Kept { r with manager := m, log := .obtained i :: r.log } := by
  obtain ⟨hget, hafter, hdefinitions⟩ := FormulaManager.newInstance_eq_ok hi
  obtain ⟨-, hfind, -⟩ := h.sound.ordered.get hget
  have hscope : i.scope ∈ r.manager.scopes.scopes := by
    obtain ⟨-, ⟨hcached, -⟩ | ⟨-, hmade, -⟩⟩ := InstanceFactory.get_eq_ok hget
    · obtain ⟨e, he, -, rfl⟩ := Table.mem_of_find? hcached
      exact h.instances _ (h.sound.cached e he)
    · rw [hmade]
      exact hs
  refine h.cons hdefinitions (h.sound.obtain hp hi) (fun j hj => ?_) (fun v hv => ?_)
    fun j hcached => ?_
  · cases hj
    exact ⟨hscope, hfind⟩
  · cases hv
  · rw [hafter]
    exact .inl (InstanceFactory.find?_after hcached fun _ hrelease => by cases hrelease)

/-- So does a release. -/
theorem Kept.release (h : r.Kept) (i : ScopeInstance) :
    Kept { r with manager := r.manager.releaseInstance i, log := .released i :: r.log } := by
  refine h.cons rfl (h.sound.release i) (fun j hj => ?_) (fun v hv => ?_) fun j hcached => ?_
  · cases hj
  · cases hv
  · by_cases hhit : ∃ a ∈ j.ancestors, (a == i) = true
    · obtain ⟨a, ha, hai⟩ := hhit
      exact .inr ⟨a, ha, i, rfl, hai⟩
    · have hspared : ∀ k, InstanceFactory.Request.release i = .release k →
          ∀ a ∈ j.ancestors, (a == k) = false := by
        rintro _ ⟨⟩ a ha
        exact Bool.eq_false_iff.2 fun hai => hhit ⟨a, ha, hai⟩
      exact .inl (InstanceFactory.find?_after hcached hspared)

/-- **What a name is resolved to** is a variable of an instance that was obtained. -/
theorem Kept.resolve (h : r.Kept) {name : Name} {limit : Nat} (hi : .obtained i ∈ r.log)
    (hv : r.manager.declarations.resolve r.manager.names i name limit = .ok v) :
    Kept { r with log := .resolved v :: r.log } := by
  obtain ⟨⟨hname, hlabel⟩, before, after, hsplit, -, -, hformat⟩ :=
    VariableLibrary.resolve_eq_ok_iff.1 hv
  have howner : v.owner ∈ i.ancestors := hsplit ▸ List.mem_append_right _ List.mem_cons_self
  have hspelled : name.raw < r.manager.names.size := h.spelled _ _ _ hformat
  have htext : r.manager.names.get? v.label = some v.name := by
    rw [hname, hlabel, Interner.get?_eq_some_iff, Interner.lookup,
      List.getElem?_eq_getElem hspelled, Option.getD_some]
  refine h.cons rfl (h.sound.cons fun _ he => by cases he) (fun j hj => ?_) (fun w hw => ?_)
    fun j hcached => .inl hcached
  · cases hj
  · cases hw
    exact ⟨h.sound.closed i hi _ howner, hname ▸ hformat, htext⟩

/-- **Each step leaves what is always so.** -/
theorem Kept.step (h : r.Kept) (hstep : Step r r') : r'.Kept := by
  have hl := hstep.later
  cases hstep with
  | rootScope hs =>
    obtain ⟨⟨s, scopes, names⟩, hadd, heq⟩ := map_eq_ok_iff.1 hs
    cases heq
    exact h.define hl rfl (h.scopes.root hadd)
  | childScope hp hs =>
    obtain ⟨⟨s, scopes, names⟩, hadd, heq⟩ := map_eq_ok_iff.1 hs
    cases heq
    exact h.define hl rfl (h.scopes.child hp hadd)
  | declare hs label format => exact h.declare hs label format
  | define hd hs hn => exact h.define hl hd (hs.symm ▸ h.scopes)
  | obtain hs hp hi => exact h.obtain hs hp hi
  | release i => exact h.release i
  | resolve hi hv => exact h.resolve hi hv

/-- **And so does a run.** -/
theorem Kept.run (h : r.Kept) (hrun : Run r r') : r'.Kept := by
  induction hrun with
  | refl => exact h
  | tail _ hstep ih => exact ih.step hstep

/-! ## Variables that were resolved -/

/-- A name has one text. -/
theorem Kept.label_eq (h : r.Kept) (hv : .resolved v ∈ r.log) (hw : .resolved w ∈ r.log)
    (hname : v.name = w.name) : v.label = w.label := by
  obtain ⟨-, -, hvlabel⟩ := h.resolved v hv
  obtain ⟨-, -, hwlabel⟩ := h.resolved w hw
  rw [← Interner.lookup_of_get? hvlabel, hname, Interner.lookup_of_get? hwlabel]

/-- **A name has one format in a scope.** -/
theorem Kept.format_eq (h : r.Kept) (hv : .resolved v ∈ r.log) (hw : .resolved w ∈ r.log)
    (hname : v.name = w.name) (hscope : v.owner.scope = w.owner.scope) : v.format = w.format := by
  obtain ⟨-, hvformat, -⟩ := h.resolved v hv
  obtain ⟨-, hwformat, -⟩ := h.resolved w hw
  rw [hname, hscope, hwformat] at hvformat
  exact (Option.some.inj hvformat).symm

/-- **And is one variable of an instance.** -/
theorem Kept.eq_of_owner_beq (h : r.Kept) (hv : .resolved v ∈ r.log) (hw : .resolved w ∈ r.log)
    (howner : (v.owner == w.owner) = true) (hname : v.name = w.name) : v = w := by
  have hsame : v.owner = w.owner :=
    h.sound.unique _ _ (h.resolved v hv).1 (h.resolved w hw).1 howner
  have hformat : v.format = w.format := h.format_eq hv hw hname (by rw [hsame])
  calc v = ⟨v.owner, v.name, v.format, v.label⟩ := rfl
    _ = ⟨w.owner, w.name, w.format, w.label⟩ := by
      rw [hsame, hname, hformat, h.label_eq hv hw hname]
    _ = w := rfl

end Chronicle

namespace Sample

/-- Nothing is defined yet. -/
def blank : Chronicle := { manager := {} }

theorem blank_blank : blank.Blank := ⟨rfl, rfl, rfl, rfl, rfl⟩

/-- The company and its team are there, and nothing else. -/
def charted : Chronicle where
  manager := {
    names := ((Interner.fresh.intern "company").2.intern "team").2
    scopes := ⟨[company, team]⟩ }

theorem run_charted : Chronicle.Run blank charted := by
  let founded : Definitions :=
    { names := (Interner.fresh.intern "company").2
      scopes := ⟨[company]⟩ }
  have hroot : blank.manager.addRootScope "company" = .ok (company, founded) := rfl
  have hchild : (blank.define founded).manager.addChildScope company "team" =
      .ok (team, charted.manager.toDefinitions) := rfl
  exact .tail (.single (.rootScope hroot)) (.childScope List.mem_cons_self hchild)

end Sample

end Formulary
