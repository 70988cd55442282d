import Formulary.Proofs.Format.Registry
import Formulary.Proofs.Name.Growth
import Mathlib.Logic.Function.Basic
/-!
# Formats by name, in registries that share an interner

A format is held under a text, is equal to another by its name, and its default is found by
the text and then compared by the name. The three agree because the name is that of the text
in the interner, and one interner serves all registries (`Interner.formatOf?`).

What a registry holds is read off the registrations that succeeded in it (`Kept`): each put
there its own format and default, and none took anything away (`Kept.register`). The rest
follows from that at every point of a run, for one registry and between any two
(`Ran.holds_what_was_registered`).
-/

namespace Formulary

/-! ## The format of a name -/

namespace Format

/-- A built-in format is the one of its name. -/
theorem label_of_builtin? {name : String} {f : Format} (h : builtin? name = some f) :
    f.label = name ∧ f.isCustom = false := by
  unfold builtin? at h
  split at h
  all_goals cases h
  all_goals exact ⟨rfl, rfl⟩

end Format

namespace Interner

variable {t t' : Interner} {name name' : String} {f f' : Format}

/-- The format that has a name, wherever it is registered: a built-in one, or the one by the
name of its text. -/
def formatOf? (t : Interner) (name : String) : Option Format :=
  match Format.builtin? name with
  | some f => some f
  | none => (t.get? name).map fun n => .custom n name

/-- **What the format of a name can be**: a built-in one, or else one by the text. -/
theorem formatOf?_eq_some_iff : t.formatOf? name = some f ↔
    Format.builtin? name = some f ∨
      Format.builtin? name = none ∧ ∃ n, t.get? name = some n ∧ f = .custom n name := by
  unfold formatOf?
  cases Format.builtin? name with
  | some g => simp only [reduceCtorEq, false_and, or_false]
  | none =>
    simp only [reduceCtorEq, true_and, false_or, Option.map_eq_some_iff]
    exact exists_congr fun n => and_congr_right fun _ => eq_comm

/-- The format of a name stays while the interner grows. -/
theorem GrowsTo.formatOf? (h : t.GrowsTo t') (hf : t.formatOf? name = some f) :
    t'.formatOf? name = some f := by
  rw [formatOf?_eq_some_iff] at hf ⊢
  rcases hf with hb | ⟨hb, n, hn, rfl⟩
  · exact .inl hb
  · exact .inr ⟨hb, n, h.get?_eq_some hn, rfl⟩

/-- A custom format is by the text that it shows. -/
theorem formatOf?_custom {n : Name} {label : String}
    (h : t.formatOf? name = some (.custom n label)) : t.get? name = some n ∧ label = name := by
  rcases formatOf?_eq_some_iff.1 h with hb | ⟨-, m, hm, hf⟩
  · cases (Format.label_of_builtin? hb).2
  · cases hf
    exact ⟨hm, rfl⟩

theorem label_of_formatOf? (h : t.formatOf? name = some f) : f.label = name := by
  rcases formatOf?_eq_some_iff.1 h with hb | ⟨-, n, -, rfl⟩
  · exact (Format.label_of_builtin? hb).1
  · rfl

/-- **Formats are equal exactly if their names are.** -/
theorem beq_iff_of_formatOf? (h : t.formatOf? name = some f) (h' : t.formatOf? name' = some f') :
    (f == f') = true ↔ name = name' := by
  constructor
  · intro heq
    have hidentity := Format.beq_iff.1 heq
    rw [← label_of_formatOf? h, ← label_of_formatOf? h']
    cases f with
    | number | text | truth =>
      cases f' <;> cases hidentity
      rfl
    | custom n label =>
      cases f' with
      | number | text | truth => cases hidentity
      | custom n' label' =>
        obtain rfl : n = n' := Format.Identity.custom.inj hidentity
        obtain ⟨hn, rfl⟩ := formatOf?_custom h
        obtain ⟨hn', rfl⟩ := formatOf?_custom h'
        rw [← lookup_of_get? hn, ← lookup_of_get? hn']
  · rintro rfl
    obtain rfl : f = f' := Option.some.inj (h.symm.trans h')
    exact Format.beq_iff.2 rfl

end Interner

namespace FormatRegistry

/-- A registration is refused for its name exactly if there is a format of that name. -/
theorem register_duplicateFormat_iff {r : FormatRegistry} {names : Interner}
    {name defaultKey : String} :
    r.register names name defaultKey = .error (.duplicateFormat name) ↔
      ∃ f, r.get? name = some f := by
  unfold register
  cases hget : r.get? name with
  | some f => simp
  | none =>
    cases names.tryIntern name with
    | error e => cases e; simp [ConfigError.ofIntern]
    | ok pair => simp

end FormatRegistry

/-! ## Registries over one interner -/

/-- Registries of formats, by number, and the interner that they share. -/
structure FormatRegistries where
  names : Interner
  registry : Nat → FormatRegistry := fun _ => {}

/-- A registration: in which registry, what, and with which answer. -/
structure Registration where
  place : Nat
  name : String
  defaultKey : String
  answer : Except ConfigError Format

namespace FormatRegistries

/-- Registers a format in one of the registries, and leaves all as they are if that fails. -/
def register (s : FormatRegistries) (k : Nat) (name defaultKey : String) :
    Except ConfigError Format × FormatRegistries :=
  match (s.registry k).register s.names name defaultKey with
  | .ok (f, registry, names) => (.ok f, ⟨names, Function.update s.registry k registry⟩)
  | .error e => (.error e, s)

/-- The registries after some registrations, oldest first. Others have strings interned in
between. -/
inductive Ran : FormatRegistries → List Registration → Prop
  | start (names : Interner) : Ran { names } []
  | register {s s' : FormatRegistries} {log : List Registration} {k : Nat}
      {name defaultKey : String} {answer : Except ConfigError Format} (h : Ran s log)
      (hr : s.register k name defaultKey = (answer, s')) :
      Ran s' (log ++ [⟨k, name, defaultKey, answer⟩])
  | share {s : FormatRegistries} {log : List Registration} {names : Interner} (h : Ran s log)
      (hn : s.names.GrowsTo names) : Ran { s with names } log

/-- A registration succeeded. -/
def Registered (log : List Registration) (k : Nat) (name defaultKey : String) (f : Format) :
    Prop :=
  (⟨k, name, defaultKey, .ok f⟩ : Registration) ∈ log

variable {s s' : FormatRegistries} {log : List Registration} {k k' : Nat} {f f' : Format}
variable {name name' defaultKey defaultKey' : String} {answer : Except ConfigError Format}

theorem registered_concat :
    Registered (log ++ [⟨k', name', defaultKey', answer⟩]) k name defaultKey f ↔
      Registered log k name defaultKey f ∨
        k = k' ∧ name = name' ∧ defaultKey = defaultKey' ∧ .ok f = answer := by
  simp only [Registered, List.mem_append, List.mem_singleton, Registration.mk.injEq]

/-- **What a registration does**: it fails and nothing changes, or the name was free and is
now that of a format, which this registry holds with its default. -/
theorem register_cases (h : s.register k name defaultKey = (answer, s')) :
    (∃ e, answer = .error e ∧ s' = s) ∨
    ∃ n, answer = .ok (.custom n name) ∧ (s.registry k).get? name = none ∧
      s.names.GrowsTo s'.names ∧ s'.names.get? name = some n ∧
      s'.registry = Function.update s.registry k
        ⟨(s.registry k).custom.insert name
          (.custom n name, .object (.custom n name) defaultKey)⟩ := by
  unfold register at h
  split at h
  · rename_i f registry names hr
    cases h
    obtain ⟨hfree, n, rfl, hintern, rfl⟩ := FormatRegistry.register_eq_ok hr
    obtain ⟨hgrown, hn⟩ := Interner.tryIntern_eq_ok hintern
    exact .inr ⟨n, rfl, hfree, hgrown, hn, rfl⟩
  · cases h
    exact .inl ⟨_, rfl, rfl⟩

/-- The registries hold what was registered in them, and every format is the one of its name. -/
structure Kept (s : FormatRegistries) (log : List Registration) : Prop where
  held : ∀ k name f v, (s.registry k).custom.find? name = some (f, v) ↔
    ∃ key, v = .object f key ∧ Registered log k name key f
  named : ∀ k name key f, Registered log k name key f →
    f.isCustom = true ∧ s.names.formatOf? name = some f

theorem kept_start (names : Interner) : Kept { names } [] where
  held k name f v := by simp [Registered]
  named _ _ _ _ h := by cases h

theorem Kept.share {names : Interner} (h : s.Kept log) (hn : s.names.GrowsTo names) :
    Kept { s with names } log where
  held := h.held
  named k name key f hf := ⟨(h.named k name key f hf).1, hn.formatOf? (h.named k name key f hf).2⟩

/-- Under a free name nothing was registered, and the name is not that of a built-in format. -/
theorem Kept.free (h : s.Kept log) (hfree : (s.registry k).get? name = none) :
    Format.builtin? name = none ∧ ∀ key f, ¬ Registered log k name key f := by
  unfold FormatRegistry.get? at hfree
  split at hfree
  · cases hfree
  · rename_i hbuiltin
    refine ⟨hbuiltin, fun key f hf => ?_⟩
    rw [Option.map_eq_none_iff, ((h.held k name f _).2 ⟨key, rfl, hf⟩)] at hfree
    cases hfree

/-- What a registry holds under a name when one of the registries was given one more entry. -/
theorem find?_update {registry : Nat → FormatRegistry} {entry : Format × Value} :
    (Function.update registry k ⟨(registry k).custom.insert name entry⟩ k').custom.find? name' =
      if k' = k ∧ name' = name then some entry else (registry k').custom.find? name' := by
  by_cases hk : k' = k
  · subst hk
    simp only [Function.update_self, Table.find?_insert, true_and, beq_iff_eq,
      @eq_comm _ name' name]
  · rw [Function.update_of_ne hk, if_neg (mt And.left hk)]

/-- **One registration** adds what it registers, if it succeeds. -/
theorem Kept.register (h : s.Kept log) (hr : s.register k name defaultKey = (answer, s')) :
    s'.Kept (log ++ [⟨k, name, defaultKey, answer⟩]) := by
  rcases register_cases hr with ⟨e, rfl, rfl⟩ | ⟨n, rfl, hfree, hgrown, hn, hupdate⟩
  · -- a failure is no registration
    have hsame {k' name' key f} :
        Registered (log ++ [⟨k, name, defaultKey, .error e⟩]) k' name' key f ↔
          Registered log k' name' key f := by
      simp only [registered_concat, reduceCtorEq, and_false, or_false]
    exact ⟨fun k' name' f v => by simp only [hsame, h.held],
      fun k' name' key f hf => h.named k' name' key f (hsame.1 hf)⟩
  · obtain ⟨hbuiltin, hnew⟩ := h.free hfree
    refine ⟨fun k' name' f v => ?_, fun k' name' key f hf => ?_⟩
    · rw [hupdate, find?_update]
      simp only [registered_concat, Except.ok.injEq]
      split
      · -- here stands what was registered just now, and nothing did before
        rename_i hplace
        obtain ⟨rfl, rfl⟩ := hplace
        simp only [hnew, false_or, true_and, Option.some.injEq, Prod.mk.injEq]
        constructor
        · rintro ⟨rfl, rfl⟩
          exact ⟨defaultKey, rfl, rfl, rfl⟩
        · rintro ⟨key, rfl, rfl, rfl⟩
          exact ⟨rfl, rfl⟩
      · rename_i hplace
        have hother {key : String} :
            ¬ (k' = k ∧ name' = name ∧ key = defaultKey ∧ f = .custom n name) :=
          fun hall => hplace ⟨hall.1, hall.2.1⟩
        simp only [h.held, hother, or_false]
    · rcases registered_concat.1 hf with hf | ⟨rfl, rfl, rfl, hok⟩
      · exact ⟨(h.named k' name' key f hf).1, hgrown.formatOf? (h.named k' name' key f hf).2⟩
      · obtain rfl := Except.ok.inj hok
        exact ⟨rfl, Interner.formatOf?_eq_some_iff.2 (.inr ⟨hbuiltin, n, hn, rfl⟩)⟩

/-- **What the registries hold after a run is read off its registrations.** -/
theorem Ran.kept (h : Ran s log) : s.Kept log := by
  induction h with
  | start names => exact kept_start names
  | register _ hr ih => exact ih.register hr
  | share _ hn ih => exact ih.share hn

/-- A format is found if it is built in or was registered here. -/
theorem Kept.get?_eq_some_iff (h : s.Kept log) : (s.registry k).get? name = some f ↔
    Format.builtin? name = some f ∨ ∃ key, Registered log k name key f := by
  unfold FormatRegistry.get?
  cases hb : Format.builtin? name with
  | some g =>
    refine ⟨fun hg => .inl hg, ?_⟩
    rintro (hg | ⟨key, hf⟩)
    · exact hg
    · have hformat := Interner.formatOf?_eq_some_iff.1 (h.named k name key f hf).2
      simpa only [hb, reduceCtorEq, false_and, or_false] using hformat
  | none =>
    simp only [Option.map_eq_some_iff, Prod.exists, h.held, reduceCtorEq, false_or]
    constructor
    · rintro ⟨g, v, ⟨key, -, hf⟩, rfl⟩
      exact ⟨key, hf⟩
    · rintro ⟨key, hf⟩
      exact ⟨f, _, ⟨key, rfl, hf⟩, rfl⟩

/-- What is found under a name is the format of that name. -/
theorem Kept.formatOf? (h : s.Kept log) (hf : (s.registry k).get? name = some f) :
    s.names.formatOf? name = some f := by
  rcases h.get?_eq_some_iff.1 hf with hb | ⟨key, hr⟩
  · exact Interner.formatOf?_eq_some_iff.2 (.inl hb)
  · exact (h.named k name key f hr).2

/-- What was registered under a name, and only that, is custom. -/
theorem Kept.get?_custom_iff (h : s.Kept log) :
    (s.registry k).get? name = some f ∧ f.isCustom = true ↔
      ∃ key, Registered log k name key f := by
  rw [h.get?_eq_some_iff]
  constructor
  · rintro ⟨hb | hr, hcustom⟩
    · rw [(Format.label_of_builtin? hb).2] at hcustom
      cases hcustom
    · exact hr
  · rintro ⟨key, hr⟩
    exact ⟨.inr ⟨key, hr⟩, (h.named k name key f hr).1⟩

/-- **The default of a custom format is the one it was registered with here.** -/
theorem Kept.default?_eq_some_iff (h : s.Kept log) {v : Value} (hf : f.isCustom = true) :
    (s.registry k).default? f = some v ↔
      ∃ key, v = .object f key ∧ Registered log k f.label key f := by
  rw [← h.held]
  cases f with
  | number | text | truth => cases hf
  | custom n label =>
    simp only [FormatRegistry.default?, Format.label]
    cases hfind : (s.registry k).custom.find? label with
    | none => simp only [reduceCtorEq]
    | some entry =>
      obtain ⟨g, w⟩ := entry
      simp only [Option.ite_none_right_eq_some, Option.some.injEq, Prod.mk.injEq]
      refine and_congr_left fun _ => ?_
      -- both are formats of this text, so they are the same if they are equal
      obtain ⟨key, -, hr⟩ := (h.held k label g w).1 hfind
      obtain ⟨hcustom, hg⟩ := h.named k label key g hr
      cases g with
      | number | text | truth => cases hcustom
      | custom m label' =>
        obtain ⟨-, rfl⟩ := Interner.formatOf?_custom hg
        simp only [Format.beq_iff, Format.identity, Format.Identity.custom.injEq,
          Format.custom.injEq, and_true]

/-- A format was registered under the text that it shows. -/
theorem Kept.label_eq (h : s.Kept log) (hr : Registered log k name defaultKey f) :
    f.label = name :=
  Interner.label_of_formatOf? (h.named k name defaultKey f hr).2

/-- What registry `k` holds is what was registered in it. -/
structure Holds (s : FormatRegistries) (log : List Registration) (k : Nat) : Prop where
  /-- A registration is refused as a duplicate exactly if the name is that of a built-in format
  or a registration of it succeeded before. -/
  duplicate : ∀ name defaultKey,
    (s.register k name defaultKey).1 = .error (.duplicateFormat name) ↔
      (∃ f, Format.builtin? name = some f) ∨ ∃ key f, Registered log k name key f
  /-- Whatever fails changes nothing. -/
  failed : ∀ name defaultKey e, (s.register k name defaultKey).1 = .error e →
    (s.register k name defaultKey).2 = s
  /-- A custom format is found exactly under a name that was registered. -/
  custom : ∀ name f, (s.registry k).get? name = some f ∧ f.isCustom = true ↔
    ∃ key, Registered log k name key f
  /-- What two registries find is equal exactly if the names are. -/
  equal : ∀ k' name name' f f', (s.registry k).get? name = some f →
    (s.registry k').get? name' = some f' → ((f == f') = true ↔ name = name')
  /-- A default has the format that it is asked for. -/
  defaultFormat : ∀ f v, (s.registry k).default? f = some v → (v.format == f) = true
  /-- The default of a format that was registered here has the key that was given then. -/
  registered : ∀ name key f, Registered log k name key f →
    (s.registry k).default? f = some (.object f key)
  /-- A custom format that was not registered here has no default. -/
  unregistered : ∀ f, f.isCustom = true → (∀ name key, ¬ Registered log k name key f) →
    (s.registry k).default? f = none

/-- **A registry holds what was registered in it,** under the names of the formats, which are the
same in every registry over an interner, at every point of a run. -/
theorem Ran.holds_what_was_registered (h : Ran s log) (k : Nat) : s.Holds log k := by
  have hkept := h.kept
  exact
    { duplicate := fun name key => by
        have hanswer : (s.register k name key).1 = .error (.duplicateFormat name) ↔
            (s.registry k).register s.names name key = .error (.duplicateFormat name) := by
          simp only [FormatRegistries.register]
          cases (s.registry k).register s.names name key with
          | error e => simp only [Except.error.injEq]
          | ok added => simp only [reduceCtorEq]
        simp only [hanswer, FormatRegistry.register_duplicateFormat_iff, hkept.get?_eq_some_iff,
          exists_or]
        rw [exists_comm]
      failed := fun name key e he => by
        have hr : s.register k name key =
            ((s.register k name key).1, (s.register k name key).2) := rfl
        rcases register_cases hr with ⟨_, -, hsame⟩ | ⟨n, hok, -⟩
        · exact hsame
        · rw [hok] at he
          cases he
      custom := fun name f => hkept.get?_custom_iff
      equal := fun k' name name' f f' hf hf' =>
        Interner.beq_iff_of_formatOf? (hkept.formatOf? hf) (hkept.formatOf? hf')
      defaultFormat := fun f v hv => by
        cases hcustom : f.isCustom with
        | true =>
          obtain ⟨key, rfl, -⟩ := (hkept.default?_eq_some_iff hcustom).1 hv
          exact Format.beq_iff.2 rfl
        | false =>
          cases f with
          | number | text | truth =>
            cases hv
            rfl
          | custom n label => cases hcustom
      registered := fun name key f hr => by
        refine (hkept.default?_eq_some_iff (hkept.named k name key f hr).1).2 ⟨key, rfl, ?_⟩
        rw [hkept.label_eq hr]
        exact hr
      unregistered := fun f hf hnew => by
        refine Option.eq_none_iff_forall_ne_some.2 fun v hv => ?_
        obtain ⟨key, -, hr⟩ := (hkept.default?_eq_some_iff hf).1 hv
        exact hnew f.label key hr }

end FormatRegistries

namespace Sample

/-- The format of the first string that is interned, a currency. -/
def currency : Format := .custom ⟨1⟩ "Currency"

/-- A currency is registered in one registry, with nothing for its default, and again; then in
another registry, with a cent. -/
def currencies : List Registration :=
  [⟨0, "Currency", "nothing", .ok currency⟩,
    ⟨0, "Currency", "cent", .error (.duplicateFormat "Currency")⟩,
    ⟨1, "Currency", "cent", .ok currency⟩]

/-- The registries after the first registration. -/
def exchange : FormatRegistries :=
  (({ names := .fresh } : FormatRegistries).register 0 "Currency" "nothing").2

/-- The registries in the end. -/
def exchanges : FormatRegistries := (exchange.register 1 "Currency" "cent").2

theorem ran_currencies : FormatRegistries.Ran exchanges currencies := by
  have hfirst : ({ names := .fresh } : FormatRegistries).register 0 "Currency" "nothing" =
      (.ok currency, exchange) := rfl
  have hagain : exchange.register 0 "Currency" "cent" =
      (.error (.duplicateFormat "Currency"), exchange) := rfl
  have hother : exchange.register 1 "Currency" "cent" = (.ok currency, exchanges) := rfl
  exact (((FormatRegistries.Ran.start .fresh).register hfirst).register hagain).register hother

end Sample

namespace FormatRegistries

/-- The currency is one format in both registries, and its default is nothing in the one and a
cent in the other. The failed registration did not change that. -/
theorem holds_what_was_registered_currencies : Ran Sample.exchanges Sample.currencies ∧
    (Sample.exchanges.registry 0).get? "Currency" = some Sample.currency ∧
    (Sample.exchanges.registry 0).default? Sample.currency =
      some (.object Sample.currency "nothing") ∧
    (Sample.exchanges.registry 1).default? Sample.currency =
      some (.object Sample.currency "cent") := by
  have hran := Sample.ran_currencies
  have hfirst : Registered Sample.currencies 0 "Currency" "nothing" Sample.currency := by
    simp [Registered, Sample.currencies]
  have hother : Registered Sample.currencies 1 "Currency" "cent" Sample.currency := by
    simp [Registered, Sample.currencies]
  have h := Ran.holds_what_was_registered hran 0
  have h' := Ran.holds_what_was_registered hran 1
  exact ⟨hran, ((h.custom "Currency" Sample.currency).2 ⟨"nothing", hfirst⟩).1,
    h.registered _ _ _ hfirst, h'.registered _ _ _ hother⟩

end FormatRegistries

end Formulary
