import Formulary.Proofs.Answers
import Formulary.Proofs.Instance.Identity
import Formulary.Proofs.Store
/-!
# Sessions — what is stored in the end

A host makes a manager from its definitions. It then asks for instances and releases them,
has names resolved from the instances that it holds, and sets and removes the values of the
variables that it was told of, in any order. `Session` says what the manager and the store
come to, and keeps a log of what was done.

What a store holds is read off the log: the value of a variable is the last one that was set
for it, or for one that equals it, and not removed since (`get?_eq_some_iff`). An instance
that was handed out is still the one for its key, or it is gone for good (`Sound.current`).
So once an instance is released, no variable of the one that takes its place has anything to
do with what was set before (`new_of_released`, `get?_eq_none_of_new`).
-/

namespace Formulary

/-- What was done in a session. -/
inductive Event where
  /-- An instance was handed out. -/
  | obtained (i : ScopeInstance)
  /-- An instance was released. -/
  | released (i : ScopeInstance)
  /-- A name was resolved to a variable. -/
  | resolved (v : VariableId)
  /-- A variable was given a value. -/
  | stored (v : VariableId) (value : Value)
  /-- A value was refused for a variable. -/
  | refused (v : VariableId) (value : Value)
  /-- The value of a variable was taken away. -/
  | removed (v : VariableId)

/-- Whether what was done is to set or to remove the value of a variable. -/
def Event.writes (v : VariableId) : Event → Bool
  | stored w _ | removed w => w == v
  | obtained _ | released _ | resolved _ | refused .. => false

/-- What a manager made from definitions and the store of its values have come to, and what
was done until then, latest first. A parent, and an instance from which a name is resolved,
was handed out before; a variable that is written was resolved before. A name may be resolved
with more names than there were at first, and within any limit. -/
inductive Session (d : Definitions) : List Event → FormulaManager → VariableStore → Prop
  | start : Session d [] (.ofDefinitions d) {}
  | obtain {log : List Event} {m m' : FormulaManager} {s : VariableStore} {scope : LegalScope}
      {subject : String} {parent : Option ScopeInstance} {i : ScopeInstance}
      (h : Session d log m s) (hp : ∀ p, parent = some p → .obtained p ∈ log)
      (hi : m.newInstance scope subject parent = .ok (i, m')) : Session d (.obtained i :: log) m' s
  | release {log : List Event} {m : FormulaManager} {s : VariableStore} (h : Session d log m s)
      (i : ScopeInstance) : Session d (.released i :: log) (m.releaseInstance i) s
  | resolve {log : List Event} {m : FormulaManager} {s : VariableStore} {names : Interner}
      {i : ScopeInstance} {name : Name} {limit : Nat} {v : VariableId} (h : Session d log m s)
      (hi : .obtained i ∈ log) (hv : m.declarations.resolve names i name limit = .ok v) :
      Session d (.resolved v :: log) m s
  | set {log : List Event} {m : FormulaManager} {s s' : VariableStore} {v : VariableId}
      {value : Value} {before : Option Value} (h : Session d log m s) (hv : .resolved v ∈ log)
      (hs : s.set v value = .ok (before, s')) : Session d (.stored v value :: log) m s'
  | refuse {log : List Event} {m : FormulaManager} {s : VariableStore} {v : VariableId}
      {value : Value} {e : ConfigError} (h : Session d log m s) (hv : .resolved v ∈ log)
      (hs : s.set v value = .error e) : Session d (.refused v value :: log) m s
  | remove {log : List Event} {m : FormulaManager} {s : VariableStore} {v : VariableId}
      (h : Session d log m s) (hv : .resolved v ∈ log) :
      Session d (.removed v :: log) m (s.remove v).2

variable {d : Definitions} {log recent old : List Event} {m : FormulaManager}
variable {s : VariableStore} {v w : VariableId} {value : Value} {i j k : ScopeInstance}

/-! ## The last value that was set -/

/-- The last event that wrote a variable stored a value. -/
def LastStored (v : VariableId) (value : Value) (log : List Event) : Prop :=
  ∃ later w earlier, log = later ++ .stored w value :: earlier ∧ (w == v) = true ∧
    ∀ e ∈ later, e.writes v = false

theorem not_lastStored_nil : ¬ LastStored v value [] := by
  rintro ⟨later, w, earlier, hlog, -⟩
  exact absurd hlog (by simp)

/-- What does not write a variable does not count. -/
theorem lastStored_cons_iff {e : Event} (he : e.writes v = false) :
    LastStored v value (e :: log) ↔ LastStored v value log := by
  constructor
  · rintro ⟨later, w, earlier, hlog, hw, hlater⟩
    cases later with
    | nil =>
      cases hlog
      exact absurd (hw.symm.trans he) (by simp)
    | cons first later =>
      obtain ⟨rfl, rfl⟩ := List.cons.inj hlog
      exact ⟨later, w, earlier, rfl, hw, fun e he => hlater e (List.mem_cons_of_mem _ he)⟩
  · rintro ⟨later, w, earlier, rfl, hw, hlater⟩
    refine ⟨e :: later, w, earlier, rfl, hw, fun e' he' => ?_⟩
    rcases List.mem_cons.1 he' with rfl | he'
    · exact he
    · exact hlater e' he'

/-- What writes a variable has the last word. -/
theorem lastStored_cons_iff_of_writes {e : Event} (he : e.writes v = true) :
    LastStored v value (e :: log) ↔ ∃ w, e = .stored w value := by
  constructor
  · rintro ⟨later, w, earlier, hlog, -, hlater⟩
    cases later with
    | nil =>
      cases hlog
      exact ⟨w, rfl⟩
    | cons first later =>
      obtain ⟨rfl, -⟩ := List.cons.inj hlog
      exact absurd (he.symm.trans (hlater _ List.mem_cons_self)) (by simp)
  · rintro ⟨w, rfl⟩
    exact ⟨[], w, log, rfl, he, by simp⟩

theorem LastStored.mem (h : LastStored v value log) :
    ∃ w, .stored w value ∈ log ∧ (w == v) = true := by
  obtain ⟨later, w, earlier, rfl, hw, -⟩ := h
  exact ⟨w, List.mem_append_right _ List.mem_cons_self, hw⟩

namespace Session

/-- **The value of a variable is the last one that was set for it,** if it was not removed
since. -/
theorem get?_eq_some_iff (h : Session d log m s) :
    s.get? v = some value ↔ LastStored v value log := by
  induction h generalizing value with
  | start => exact iff_of_false (by simp [VariableStore.get?]) not_lastStored_nil
  | obtain _ _ _ ih | release _ _ ih | resolve _ _ _ ih | refuse _ _ _ ih =>
    rw [ih, lastStored_cons_iff rfl]
  | @set log m s s' w stored _ _ _ hs ih =>
    obtain ⟨-, -, rfl⟩ := VariableStore.set_eq_ok_iff.1 hs
    rw [VariableStore.get?_put]
    cases hw : w == v with
    | true =>
      have hwrites : (Event.stored w stored).writes v = true := hw
      rw [if_pos rfl, lastStored_cons_iff_of_writes hwrites, Option.some.injEq]
      exact ⟨fun h => ⟨w, by rw [h]⟩, fun ⟨_, h⟩ => (Event.stored.inj h).2⟩
    | false =>
      have hwrites : (Event.stored w stored).writes v = false := hw
      rw [if_neg Bool.false_ne_true, ih, lastStored_cons_iff hwrites]
  | @remove log m s w _ _ ih =>
    rw [VariableStore.get?_remove]
    cases hw : w == v with
    | true =>
      have hwrites : (Event.removed w).writes v = true := hw
      rw [if_pos rfl, lastStored_cons_iff_of_writes hwrites]
      exact iff_of_false (by simp) fun ⟨_, h⟩ => by cases h
    | false =>
      have hwrites : (Event.removed w).writes v = false := hw
      rw [if_neg Bool.false_ne_true, ih, lastStored_cons_iff hwrites]

/-- **What is held for a variable has its format.** -/
theorem beq_format_of_mem (h : Session d log m s) :
    ∀ e ∈ s.values.entries, (e.2.format == e.1.format) = true := by
  induction h with
  | start => exact fun e he => absurd he List.not_mem_nil
  | obtain _ _ _ ih | release _ _ ih | resolve _ _ _ ih | refuse _ _ _ ih => exact ih
  | @set log m s s' w stored _ _ _ hs ih =>
    obtain ⟨hformat, -, rfl⟩ := VariableStore.set_eq_ok_iff.1 hs
    intro e he
    rcases Table.mem_insert he with he | ⟨hkey, hvalue⟩
    · exact ih e he
    · rw [hvalue]
      -- an entry keeps the key under which it was first written, which equals the variable
      exact BEq.trans hformat (Format.beq_iff.2 (VariableId.beq_iff.1 hkey).2.2.symm)
  | remove _ _ ih => exact fun e he => ih e (List.mem_filter.1 he).1

/-- The value of a variable has its format. -/
theorem beq_format_of_get? (h : Session d log m s) (hv : s.get? v = some value) :
    (value.format == v.format) = true := by
  obtain ⟨e, he, hkey, rfl⟩ := Table.mem_of_find? hv
  exact BEq.trans (h.beq_format_of_mem e he) (Format.beq_iff.2 (VariableId.beq_iff.1 hkey).2.2)

end Session

/-! ## Instances -/

namespace FormulaManager

/-- A request for an instance is one to the factory of the manager, and defines nothing. -/
theorem newInstance_eq_ok {m' : FormulaManager} {scope : LegalScope} {subject : String}
    {parent : Option ScopeInstance} (h : m.newInstance scope subject parent = .ok (i, m')) :
    m.instances.get scope subject parent = .ok (i, m'.instances) ∧
      m'.instances = m.instances.after (.get scope subject parent) ∧
      m'.toDefinitions = m.toDefinitions := by
  obtain ⟨⟨i', f⟩, hget, heq⟩ := map_eq_ok_iff.1 h
  cases heq
  exact ⟨hget, by simp only [InstanceFactory.after, hget], rfl⟩

end FormulaManager

namespace Session

open InstanceFactory (Request)

/-- What is known of the instances that were handed out in a session. -/
structure Sound (log : List Event) (m : FormulaManager) : Prop where
  ordered : m.instances.Ordered
  /-- What is cached was handed out. -/
  cached : ∀ e ∈ m.instances.cached.entries, .obtained e.2 ∈ log
  /-- The number of an instance is its own. -/
  given : ∀ i, .obtained i ∈ log → m.instances.Given i (· = i)
  /-- Instances with one number are one. -/
  unique : ∀ i j, .obtained i ∈ log → .obtained j ∈ log → (i == j) = true → i = j
  /-- The instances around an instance were handed out. -/
  closed : ∀ i, .obtained i ∈ log → ∀ a ∈ i.ancestors, .obtained a ∈ log
  /-- An instance is the one for its key, or it is gone for good. -/
  current : ∀ i, .obtained i ∈ log →
    m.instances.cached.find? i.key = some i ∨ m.instances.Given i fun _ => False

/-- What is known is known of the factory of the manager, and of nothing else in it. -/
theorem Sound.of_instances_eq {m' : FormulaManager} (h : Sound log m)
    (hi : m'.instances = m.instances) : Sound log m' where
  ordered := hi ▸ h.ordered
  cached := hi ▸ h.cached
  given := hi ▸ h.given
  unique := h.unique
  closed := h.closed
  current := hi ▸ h.current

/-- Of a manager that handed out nothing, all of this is known. -/
theorem sound_of_instances_eq_empty (hi : m.instances = {}) : Sound [] m := by
  have hempty : Sound [] ({} : FormulaManager) :=
    ⟨InstanceFactory.ordered_empty, fun _ he => absurd he List.not_mem_nil,
      fun _ hi => absurd hi List.not_mem_nil, fun _ _ hi => absurd hi List.not_mem_nil,
      fun _ hi => absurd hi List.not_mem_nil, fun _ hi => absurd hi List.not_mem_nil⟩
  exact hempty.of_instances_eq hi

/-- An event that hands out no instance leaves what is known. -/
theorem Sound.cons {e : Event} (h : Sound log m) (he : ∀ i, e ≠ .obtained i) :
    Sound (e :: log) m := by
  have hold {i : ScopeInstance} (hi : .obtained i ∈ e :: log) : .obtained i ∈ log :=
    (List.mem_cons.1 hi).resolve_left (he i).symm
  exact ⟨h.ordered, fun e he => List.mem_cons_of_mem _ (h.cached e he),
    fun i hi => h.given i (hold hi), fun i j hi hj => h.unique i j (hold hi) (hold hj),
    fun i hi a ha => List.mem_cons_of_mem _ (h.closed i (hold hi) a ha),
    fun i hi => h.current i (hold hi)⟩

/-- **A request leaves what is known, and adds the instance that it comes to.** -/
theorem Sound.obtain {m' : FormulaManager} {scope : LegalScope} {subject : String}
    {parent : Option ScopeInstance} (h : Sound log m)
    (hp : ∀ p, parent = some p → .obtained p ∈ log)
    (hi : m.newInstance scope subject parent = .ok (i, m')) : Sound (.obtained i :: log) m' := by
  obtain ⟨hget, hafter, -⟩ := FormulaManager.newInstance_eq_ok hi
  obtain ⟨-, hfind, hgiven⟩ := h.ordered.get hget
  have hold {j : ScopeInstance} (hj : .obtained j ∈ log) (hsame : (j == i) = true) : i = j :=
    (h.given j hj).of_get_beq hget hsame
  have hnew {j : ScopeInstance} (hj : .obtained j ∈ Event.obtained i :: log) :
      j = i ∨ .obtained j ∈ log :=
    (List.mem_cons.1 hj).imp_left Event.obtained.inj
  exact
    { ordered := hafter ▸ h.ordered.after _
      cached := fun e he => by
        obtain ⟨-, ⟨-, hsame⟩ | ⟨-, -, hmade⟩⟩ := InstanceFactory.get_eq_ok hget
        · rw [hsame] at he
          exact List.mem_cons_of_mem _ (h.cached e he)
        · rw [hmade] at he
          rcases Table.mem_insert he with he | ⟨-, hvalue⟩
          · exact List.mem_cons_of_mem _ (h.cached e he)
          · rw [hvalue]
            exact List.mem_cons_self
      given := fun j hj => by
        rcases hnew hj with rfl | hj
        · exact hgiven
        · exact hafter ▸ (h.given j hj).after _
      unique := fun j k hj hk hjk => by
        rcases hnew hj with rfl | hjlog
        · rcases hnew hk with rfl | hklog
          · rfl
          · exact hold hklog (BEq.symm hjk)
        · rcases hnew hk with rfl | hklog
          · exact (hold hjlog hjk).symm
          · exact h.unique j k hjlog hklog hjk
      closed := fun j hj a ha => by
        rcases hnew hj with rfl | hj
        · obtain ⟨-, ⟨hcached, -⟩ | ⟨-, hmade, -⟩⟩ := InstanceFactory.get_eq_ok hget
          · obtain ⟨e, he, -, rfl⟩ := Table.mem_of_find? hcached
            exact List.mem_cons_of_mem _ (h.closed _ (h.cached e he) a ha)
          · rw [hmade] at ha ⊢
            rcases InstanceFactory.ancestors_made ha with rfl | ⟨p, hpp, ha⟩
            · exact List.mem_cons_self
            · exact List.mem_cons_of_mem _ (h.closed p (hp p hpp) a ha)
        · exact List.mem_cons_of_mem _ (h.closed j hj a ha)
      current := fun j hj => by
        rcases hnew hj with rfl | hj
        · exact .inl hfind
        · rw [hafter]
          refine (h.current j hj).imp (fun hcached => ?_) fun hgone => hgone.after _
          exact InstanceFactory.find?_after hcached fun _ hrelease => by cases hrelease }

/-- **A release leaves what is known.** The instances that it takes away are gone for good. -/
theorem Sound.release (h : Sound log m) (j : ScopeInstance) :
    Sound (.released j :: log) (m.releaseInstance j) := by
  have hsound : Sound log (m.releaseInstance j) :=
    { ordered := h.ordered.after (.release j)
      cached := fun e he => h.cached e (InstanceFactory.mem_of_mem_release he)
      given := fun i hi => (h.given i hi).after (.release j)
      unique := h.unique
      closed := h.closed
      current := fun i hi => by
        rcases h.current i hi with hcached | hgone
        · by_cases hhit : ∃ a ∈ i.ancestors, (a == j) = true
          · obtain ⟨a, ha, haj⟩ := hhit
            exact .inr (InstanceFactory.given_release (h.given i hi) ha haj)
          · have hkept : ∀ j', Request.release j = .release j' → ∀ a ∈ i.ancestors,
                (a == j') = false := by
              rintro _ ⟨⟩ a ha
              exact Bool.eq_false_iff.2 fun haj => hhit ⟨a, ha, haj⟩
            exact .inl (InstanceFactory.find?_after hcached hkept)
        · exact .inr (hgone.after (.release j)) }
  exact hsound.cons fun _ h => by cases h

/-- **All of this is known after any session.** -/
theorem sound (h : Session d log m s) : Sound log m := by
  induction h with
  | start => exact sound_of_instances_eq_empty rfl
  | obtain _ hp hi ih => exact ih.obtain hp hi
  | release _ i ih => exact ih.release i
  | resolve _ _ _ ih | set _ _ _ ih | refuse _ _ _ ih | remove _ _ ih =>
    exact ih.cons fun _ h => by cases h

/-! ## The part of a session up to a point -/

/-- Before what was done last, there was a session too. Since then the factory of the manager
was told of at most one thing, and to release only what was released. -/
theorem tail {e : Event} (h : Session d (e :: log) m s) :
    ∃ (m₀ : FormulaManager) (s₀ : VariableStore) (requests : List Request), Session d log m₀ s₀ ∧
      m.instances = m₀.instances.afterAll requests ∧
      ∀ j, .release j ∈ requests → .released j = e := by
  cases h with
  | @obtain _ m₀ _ _ scope subject parent i h hp hi =>
    obtain ⟨-, hafter, -⟩ := FormulaManager.newInstance_eq_ok hi
    exact ⟨m₀, _, [.get scope subject parent], h, hafter, by simp⟩
  | @release _ m₀ _ h j => exact ⟨m₀, _, [.release j], h, rfl, by simp⟩
  | resolve h _ _ | set h _ _ | refuse h _ _ | remove h _ => exact ⟨_, _, [], h, rfl, by simp⟩

/-- **Up to any point there was a session.** Since then the factory of the manager was told
to release only what was released. -/
theorem split (h : Session d (recent ++ old) m s) :
    ∃ (m₀ : FormulaManager) (s₀ : VariableStore) (requests : List Request), Session d old m₀ s₀ ∧
      m.instances = m₀.instances.afterAll requests ∧
      ∀ j, .release j ∈ requests → .released j ∈ recent := by
  induction recent generalizing m s with
  | nil => exact ⟨m, s, [], h, rfl, by simp⟩
  | cons e recent ih =>
    obtain ⟨m₁, s₁, last, h₁, hlast, hreleased⟩ := h.tail
    obtain ⟨m₀, s₀, requests, h₀, hrequests, hearlier⟩ := ih h₁
    refine ⟨m₀, s₀, requests ++ last, h₀, ?_, fun j hj => ?_⟩
    · rw [InstanceFactory.afterAll_append, ← hrequests, hlast]
    · rcases List.mem_append.1 hj with hj | hj
      · exact List.mem_cons_of_mem _ (hearlier j hj)
      · rw [hreleased j hj]
        exact List.mem_cons_self

/-! ## Variables -/

/-- The declarations are those from which the manager was made. -/
theorem declarations_eq (h : Session d log m s) : m.declarations = d.declarations := by
  induction h with
  | start => rfl
  | obtain _ _ hi ih =>
    obtain ⟨-, -, hdefinitions⟩ := FormulaManager.newInstance_eq_ok hi
    rw [hdefinitions, ih]
  | release _ _ ih | resolve _ _ _ ih | set _ _ _ ih | refuse _ _ _ ih | remove _ _ ih => exact ih

/-- **A variable is one of an instance that was handed out,** and has the declared format. -/
theorem owner_of_resolved (h : Session d log m s) (hv : .resolved v ∈ log) :
    .obtained v.owner ∈ log ∧
      d.declarations.declaredFormat? v.owner.scope v.name = some v.format := by
  induction h with
  | start => exact absurd hv List.not_mem_nil
  | obtain _ _ _ ih | release _ _ ih | set _ _ _ ih | refuse _ _ _ ih | remove _ _ ih =>
    rcases List.mem_cons.1 hv with hv | hv
    · cases hv
    · exact (ih hv).imp_left (List.mem_cons_of_mem _)
  | resolve h hi hfound ih =>
    rcases List.mem_cons.1 hv with hv | hv
    · cases hv
      rw [h.declarations_eq] at hfound
      obtain ⟨⟨hname, -⟩, before, after, hsplit, -, -, hformat⟩ :=
        VariableLibrary.resolve_eq_ok_iff.1 hfound
      have howner : v.owner ∈ ScopeInstance.ancestors _ :=
        hsplit ▸ List.mem_append_right _ List.mem_cons_self
      exact ⟨List.mem_cons_of_mem _ (h.sound.closed _ hi _ howner), hname ▸ hformat⟩
    · exact (ih hv).imp_left (List.mem_cons_of_mem _)

/-- What is set is a variable that was resolved. -/
theorem resolved_of_stored (h : Session d log m s) (hv : .stored v value ∈ log) :
    .resolved v ∈ log := by
  induction h with
  | start => exact absurd hv List.not_mem_nil
  | obtain _ _ _ ih | release _ _ ih | resolve _ _ _ ih | refuse _ _ _ ih | remove _ _ ih =>
    rcases List.mem_cons.1 hv with hv | hv
    · cases hv
    · exact List.mem_cons_of_mem _ (ih hv)
  | set _ hresolved _ ih =>
    rcases List.mem_cons.1 hv with hv | hv
    · cases hv
      exact List.mem_cons_of_mem _ hresolved
    · exact List.mem_cons_of_mem _ (ih hv)

/-- **A name stands for one variable of an instance,** from whichever instance it is used. -/
theorem beq_of_owner_beq (h : Session d log m s) (hv : .resolved v ∈ log)
    (hw : .resolved w ∈ log) (howner : (v.owner == w.owner) = true) (hname : v.name = w.name) :
    (v == w) = true := by
  obtain ⟨hvowner, hvformat⟩ := h.owner_of_resolved hv
  obtain ⟨hwowner, hwformat⟩ := h.owner_of_resolved hw
  have hsame : v.owner = w.owner := h.sound.unique _ _ hvowner hwowner howner
  rw [hsame, hname, hwformat, Option.some.injEq] at hvformat
  exact VariableId.beq_iff.2 ⟨by rw [hsame], hname, by rw [hvformat]⟩

/-! ## Instances that are new -/

/-- No instance that equals it was handed out so far. -/
def New (i : ScopeInstance) (log : List Event) : Prop :=
  ∀ k, .obtained k ∈ log → (k == i) = false

/-- **A variable of a new instance was never set,** until it is. -/
theorem get?_eq_none_of_new (h : Session d (recent ++ old) m s) (hnew : New i old)
    (hv : (v.owner == i) = true)
    (hunset : ∀ w value, .stored w value ∈ recent → (w == v) = false) : s.get? v = none := by
  rw [Option.eq_none_iff_forall_ne_some]
  intro value hvalue
  obtain ⟨w, hw, hsame⟩ := (h.get?_eq_some_iff.1 hvalue).mem
  rcases List.mem_append.1 hw with hw | hw
  · exact absurd (hsame.symm.trans (hunset w value hw)) (by simp)
  · -- what was set before is a variable of an instance that was handed out before
    obtain ⟨m₀, s₀, -, h₀, -⟩ := h.split
    have howner : .obtained w.owner ∈ old := (h₀.owner_of_resolved (h₀.resolved_of_stored hw)).1
    have hid : w.owner.id = v.owner.id := (VariableId.beq_iff.1 hsame).1
    have hbeq : (w.owner == i) = true := BEq.trans (ScopeInstance.beq_iff.2 hid) hv
    exact absurd (hbeq.symm.trans (hnew w.owner howner)) (by simp)

variable {kept earlier : List Event}

/-- **After a release all instances with the key of the one released are gone.** -/
theorem given_of_released (h : Session d (.released j :: (kept ++ .obtained i :: earlier)) m s)
    (hj : ∃ a ∈ i.ancestors, (a == j) = true)
    (hkept : ∀ j', .released j' ∈ kept → ∀ a ∈ i.ancestors, (a == j') = false)
    (hk : .obtained k ∈ kept ++ .obtained i :: earlier) (hkey : k.key = i.key) :
    m.instances.Given k fun _ => False := by
  cases h with
  | @release _ m _ h =>
    -- until the release, the instance was the one for its key
    obtain ⟨m₁, s₁, requests, h₁, hrequests, hreleased⟩ := h.split
    have hfind : m.instances.cached.find? i.key = some i := by
      cases h₁ with
      | obtain h₀ _ hi =>
        obtain ⟨hget, -, -⟩ := FormulaManager.newInstance_eq_ok hi
        obtain ⟨-, hfind, -⟩ := h₀.sound.ordered.get hget
        rw [hrequests]
        exact InstanceFactory.find?_afterAll hfind fun j' hj' => hkept j' (hreleased j' hj')
    obtain ⟨a, ha, haj⟩ := hj
    rcases h.sound.current k hk with hcached | hgone
    · rw [hkey, hfind, Option.some.injEq] at hcached
      rw [← hcached]
      have hi : .obtained i ∈ kept ++ .obtained i :: earlier := by simp
      exact InstanceFactory.given_release (h.sound.given i hi) ha haj
    · exact hgone.after (.release j)

/-- **An instance that takes the place of one that was released is new,** and so is one inside
an instance that is new. -/
theorem new_of_released
    (h : Session d (recent ++ .released j :: (kept ++ .obtained i :: earlier)) m s)
    (hj : ∃ a ∈ i.ancestors, (a == j) = true)
    (hkept : ∀ j', .released j' ∈ kept → ∀ a ∈ i.ancestors, (a == j') = false)
    (hk : .obtained k ∈ recent)
    (hagain : k.key = i.key ∨
      ∃ p, k.parent? = some p ∧ New p (.released j :: (kept ++ .obtained i :: earlier))) :
    New k (.released j :: (kept ++ .obtained i :: earlier)) := by
  intro k' hk'
  rw [Bool.eq_false_iff]
  intro hbeq
  -- it would be one that was handed out before
  obtain rfl : k' = k := h.sound.unique k' k (List.mem_append_right _ hk')
    (List.mem_append_left _ hk) hbeq
  rcases hagain with hkey | ⟨p, hparent, hnew⟩
  · obtain ⟨later, between, rfl⟩ := List.append_of_mem hk
    rw [List.append_assoc, List.cons_append] at h
    obtain ⟨m₁, s₁, -, h₁, -⟩ := h.split
    cases h₁ with
    | obtain h₂ _ hi =>
      obtain ⟨hget, -, -⟩ := FormulaManager.newInstance_eq_ok hi
      obtain ⟨m₀, s₀, requests, h₀, hrequests, -⟩ := h₂.split
      have hlog : .obtained k' ∈ kept ++ .obtained i :: earlier :=
        (List.mem_cons.1 hk').resolve_left fun h => by cases h
      have hgone := (h₀.given_of_released hj hkept hlog hkey).afterAll requests
      rw [← hrequests] at hgone
      exact hgone.of_get_beq hget BEq.rfl
  · obtain ⟨m₀, s₀, -, h₀, -⟩ := h.split
    have hmem : p ∈ k'.ancestors := by
      rw [ScopeInstance.ancestors_eq, hparent, Option.map_some, Option.getD_some,
        ScopeInstance.ancestors_eq p]
      exact List.mem_cons_of_mem _ List.mem_cons_self
    exact absurd (hnew p (h₀.sound.closed k' hk' p hmem)) (by simp)

end Session

/-! ## A session to go by -/

namespace Sample

/-- The company with its team, and its one number. -/
def budgeted : Definitions where
  names := words
  declarations := budgets
  scopes := ⟨[company, team]⟩

/-- The manager made from them, once it has handed out and released some instances. -/
def budgetedWith (instances : InstanceFactory) : FormulaManager :=
  { FormulaManager.ofDefinitions budgeted with instances }

/-- The outer instance, made again. -/
def acmeAgain : ScopeInstance := ⟨⟨2, company, "acme"⟩, []⟩

/-- The budget of an instance of the company. -/
def budgetOf (i : ScopeInstance) : VariableId := ⟨i, budget, .number, "budget"⟩

/-- Since the release, the company is asked for again and its budget resolved. -/
def sinceRelease : List Event := [.resolved (budgetOf acmeAgain), .obtained acmeAgain]

/-- Until the release, the team resolves the budget of the company, and it is set. -/
def untilRelease : List Event :=
  [.stored (budgetOf acme) (.number .zero), .resolved (budgetOf acme), .obtained sales]

theorem session : Session budgeted
    (sinceRelease ++ .released acme :: (untilRelease ++ .obtained acme :: []))
    (budgetedWith ⟨⟨[(⟨0, none, "acme"⟩, acmeAgain)]⟩, 3⟩)
    (({} : VariableStore).put (budgetOf acme) (.number .zero)) := by
  have hacme : (FormulaManager.ofDefinitions budgeted).newInstance company "acme" none =
      .ok (acme, budgetedWith ⟨⟨[(⟨0, none, "acme"⟩, acme)]⟩, 1⟩) := rfl
  have hsales : (budgetedWith ⟨⟨[(⟨0, none, "acme"⟩, acme)]⟩, 1⟩).newInstance team "sales"
      (some acme) = .ok (sales, budgetedWith staffed) := rfl
  have hbudget : budgets.resolve words sales budget 64 = .ok (budgetOf acme) := rfl
  have hbudgetAgain : budgets.resolve words acmeAgain budget 64 = .ok (budgetOf acmeAgain) := rfl
  have hset : ({} : VariableStore).set (budgetOf acme) (.number .zero) =
      .ok (none, ({} : VariableStore).put (budgetOf acme) (.number .zero)) := rfl
  have hagain : ((budgetedWith staffed).releaseInstance acme).newInstance company "acme" none =
      .ok (acmeAgain, budgetedWith ⟨⟨[(⟨0, none, "acme"⟩, acmeAgain)]⟩, 3⟩) := rfl
  have hstaffed := (Session.start.obtain (by simp) hacme).obtain (by simp) hsales
  have hstored := (hstaffed.resolve List.mem_cons_self hbudget).set List.mem_cons_self hset
  have hremade := (hstored.release acme).obtain (by simp) hagain
  exact hremade.resolve List.mem_cons_self hbudgetAgain

end Sample

namespace Session

/-- What is stored crosses neither instances nor variables. -/
structure Separate (log : List Event) (s : VariableStore) : Prop where
  /-- A variable has the last value that was set for a variable equal to it, by instance, name
  and format, and not removed since. -/
  last : ∀ v value, s.get? v = some value ↔ ∃ later w earlier,
    log = later ++ .stored w value :: earlier ∧ (w == v) = true ∧
      ∀ e ∈ later, e.writes v = false
  /-- A value is refused for its format and for nothing else. -/
  refused : ∀ v value e, s.set v value = .error e ↔
    (value.format == v.format) = false ∧ e = .storeFormatMismatch v.format value.format
  /-- Whatever is held has the format of the variable that it is held for. -/
  entries : ∀ e ∈ s.values.entries, (e.2.format == e.1.format) = true
  /-- Whatever is read has the format of the variable that it is read for. -/
  format : ∀ v value, s.get? v = some value → (value.format == v.format) = true
  /-- A name stands for one variable of an instance, from wherever it is used. -/
  shared : ∀ v w, .resolved v ∈ log → .resolved w ∈ log → (v.owner == w.owner) = true →
    v.name = w.name → (v == w) = true
  /-- Once an instance that was handed out is released, be it with one around it, and is asked
  for again, inside the same parent or one that is new, it is another instance, and its
  variables have no value until they are set. -/
  again : ∀ recent kept earlier i j k,
    log = recent ++ .released j :: (kept ++ .obtained i :: earlier) →
      (∃ a ∈ i.ancestors, (a == j) = true) →
      (∀ j', .released j' ∈ kept → ∀ a ∈ i.ancestors, (a == j') = false) →
      .obtained k ∈ recent →
      (k.key = i.key ∨
        ∃ p, k.parent? = some p ∧ New p (.released j :: (kept ++ .obtained i :: earlier))) →
      (i == k) = false ∧ ∀ v, (v.owner == k) = true →
        (∀ w value, .stored w value ∈ recent → (w == v) = false) → s.get? v = none

/-- **What is stored crosses neither instances nor variables,** at any point of any session. To
refuse a value counts for nothing. -/
theorem reads_what_was_set (h : Session d log m s) : Separate log s where
  last _ _ := h.get?_eq_some_iff
  refused _ _ _ := VariableStore.set_eq_error_iff
  entries := h.beq_format_of_mem
  format _ _ := h.beq_format_of_get?
  shared _ _ := h.beq_of_owner_beq
  again := by
    rintro recent kept earlier i j k rfl hj hkept hk hagain
    have hnew := h.new_of_released hj hkept hk hagain
    exact ⟨hnew i (by simp), fun v hv hunset => h.get?_eq_none_of_new hnew hv hunset⟩

/-- The budget that was set is that of the company as it was. The company that is asked for
again has none. -/
theorem reads_budget :
    ∃ m s, Session Sample.budgeted (Sample.sinceRelease ++
        .released Sample.acme :: (Sample.untilRelease ++ .obtained Sample.acme :: [])) m s ∧
      s.get? (Sample.budgetOf Sample.acme) = some (.number .zero) ∧
      (Sample.acme == Sample.acmeAgain) = false ∧
      s.get? (Sample.budgetOf Sample.acmeAgain) = none := by
  have hseparate := reads_what_was_set Sample.session
  refine ⟨_, _, Sample.session, (hseparate.last _ _).2 ?_, ?_⟩
  · exact ⟨_ :: _ :: _ :: [], _, _, rfl, by decide, by simp [Event.writes]⟩
  · have hkept : ∀ j', .released j' ∈ Sample.untilRelease → ∀ a ∈ Sample.acme.ancestors,
        (a == j') = false := by simp [Sample.untilRelease]
    obtain ⟨hother, hnone⟩ := hseparate.again Sample.sinceRelease Sample.untilRelease []
      Sample.acme Sample.acme Sample.acmeAgain rfl ⟨Sample.acme, List.mem_cons_self, BEq.rfl⟩
      hkept (by simp [Sample.sinceRelease]) (.inl rfl)
    exact ⟨hother, hnone _ BEq.rfl (by simp [Sample.sinceRelease])⟩

end Session

end Formulary
