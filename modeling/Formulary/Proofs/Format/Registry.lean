import Formulary.Format.Registry
/-!
# Registries of formats, and their defaults

A registry comes about by registering one format after another. What it then
holds under a name is a format of that name and an object of that format
(`find?_of_grown`), so a default always has the format it was asked for
(`identity_default?`). Only a registered format can be without one
(`isCustom_of_default?_eq_none`).

A value is genuine unless it is an object that claims to be of a built-in
format. A genuine value of a built-in format can be read (`Value.Genuine.isOf`).
-/

namespace Formulary

namespace Value

/-- An object is of a registered format; every other value is genuine. -/
def Genuine : Value → Prop
  | object format _ => format.isCustom = true
  | _ => True

/-- The values that can be read where a format is asked for. Nothing reads the
objects of a registered format. -/
def IsOf : Format → Value → Prop
  | .number, v => ∃ x, v = number x
  | .text, v => ∃ s, v = text s
  | .truth, v => ∃ b, v = truth b
  | .custom _ _, _ => True

/-- **A genuine value can be read as what its format says.** -/
theorem Genuine.isOf {f : Format} {v : Value} (h : v.Genuine)
    (hv : f.identity = v.format.identity) : v.IsOf f := by
  cases v with
  | number x => cases f <;> cases hv; exact ⟨x, rfl⟩
  | text s => cases f <;> cases hv; exact ⟨s, rfl⟩
  | truth b => cases f <;> cases hv; exact ⟨b, rfl⟩
  | object g key =>
    cases g with
    | number | text | truth => cases h
    | custom name label =>
      cases f with
      | custom name' label' => trivial
      | number | text | truth => cases hv

end Value

namespace FormatRegistry

/-- The registries that come about by registering formats. -/
inductive Grown : FormatRegistry → Prop
  | empty : Grown {}
  | register {r r' : FormatRegistry} {names names' : Interner} {name defaultKey : String}
      {format : Format} (h : Grown r)
      (hr : r.register names name defaultKey = .ok (format, r', names')) : Grown r'

variable {r r' : FormatRegistry}

/-- **What a registration does**: the name was free, and is now held by a format
of that name, with an object of it for its default. -/
theorem register_eq_ok {names names' : Interner} {name defaultKey : String} {format : Format}
    (h : r.register names name defaultKey = .ok (format, r', names')) :
    r.get? name = none ∧ ∃ interned, format = .custom interned name ∧
      names.tryIntern name = .ok (interned, names') ∧
      r' = ⟨r.custom.insert name (format, .object format defaultKey)⟩ := by
  unfold register at h
  split at h
  · cases h
  · rename_i hfree
    split at h
    · cases h
    · rename_i interned names₁ hintern
      cases h
      exact ⟨hfree, interned, rfl, hintern, rfl⟩

/-- **Under a name stands a format of that name**, and an object of it. -/
theorem find?_of_grown (h : r.Grown) {label : String} {format : Format} {value : Value}
    (hf : r.custom.find? label = some (format, value)) :
    (∃ name, format = .custom name label) ∧ ∃ key, value = .object format key := by
  induction h generalizing label format value with
  | empty => cases hf
  | @register r r' names names' name defaultKey format' _ hr ih =>
    obtain ⟨-, interned, rfl, -, rfl⟩ := register_eq_ok hr
    rw [Table.find?_insert] at hf
    split at hf
    · rename_i hname
      cases eq_of_beq hname
      cases hf
      exact ⟨⟨interned, rfl⟩, defaultKey, rfl⟩
    · exact ih hf

/-- The default of a registered format is an object of it. -/
theorem default?_custom (h : r.Grown) {name : Name} {label : String} {value : Value}
    (hv : r.default? (.custom name label) = some value) :
    ∃ key, value = .object (.custom name label) key := by
  simp only [default?] at hv
  split at hv
  · rename_i registered v hfind
    split at hv
    · rename_i heq
      cases hv
      obtain ⟨⟨name', rfl⟩, key, rfl⟩ := find?_of_grown h hfind
      have hname : name' = name := Format.Identity.custom.inj (Format.beq_iff.1 heq)
      exact ⟨key, by rw [hname]⟩
    · cases hv
  · cases hv

/-- **A default has the format it was asked for.** -/
theorem identity_default? (h : r.Grown) {f : Format} {value : Value}
    (hv : r.default? f = some value) : value.format.identity = f.identity := by
  cases f with
  | number | text | truth => cases hv; rfl
  | custom name label =>
    obtain ⟨key, rfl⟩ := default?_custom h hv
    rfl

/-- And it is genuine. -/
theorem genuine_default? (h : r.Grown) {f : Format} {value : Value}
    (hv : r.default? f = some value) : value.Genuine := by
  cases f with
  | number | text | truth => cases hv; trivial
  | custom name label =>
    obtain ⟨key, rfl⟩ := default?_custom h hv
    rfl

/-- Every built-in format has a default. -/
theorem isCustom_of_default?_eq_none {f : Format} (h : r.default? f = none) :
    f.isCustom = true := by
  cases f with
  | number | text | truth => cases h
  | custom name label => rfl

end FormatRegistry

end Formulary
