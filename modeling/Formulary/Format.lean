import Formulary.Name
/-!
# Formats — what kind of value a formula works with

There are three built-in formats, and a host registers formats for the objects
of its domain. A registered format is identified by its name in the interner;
the text of that name is carried along to be shown.
-/

namespace Formulary

/-- A kind of value. -/
inductive Format where
  | number
  | text
  | truth
  /-- A registered format, by its name and the text of that name. -/
  | custom (name : Name) (label : String)
  deriving Inhabited

namespace Format

/-- What a format is identified by. -/
inductive Identity where
  | number
  | text
  | truth
  | custom (name : Name)
  deriving DecidableEq

/-- The identity of a format: all of it but the text to show. -/
def identity : Format → Identity
  | number => .number
  | text => .text
  | truth => .truth
  | custom name _ => .custom name

/-- Formats are equal when they have the same identity. -/
instance : BEq Format := ⟨fun f g => f.identity == g.identity⟩

theorem beq_iff {f g : Format} : (f == g) = true ↔ f.identity = g.identity := by
  show (f.identity == g.identity) = true ↔ _
  exact beq_iff_eq

instance : EquivBEq Format where
  rfl := beq_iff.2 rfl
  symm h := beq_iff.2 (beq_iff.1 h).symm
  trans h₁ h₂ := beq_iff.2 ((beq_iff.1 h₁).trans (beq_iff.1 h₂))

theorem beq_list_iff {fs gs : List Format} :
    (fs == gs) = true ↔ fs.map identity = gs.map identity := by
  induction fs generalizing gs with
  | nil => cases gs <;> simp
  | cons f fs ih =>
    cases gs with
    | nil => simp
    | cons g gs =>
      rw [List.cons_beq_cons, Bool.and_eq_true, beq_iff, ih, List.map_cons, List.map_cons,
        List.cons.injEq]

instance : EquivBEq (List Format) where
  rfl := beq_list_iff.2 rfl
  symm h := beq_list_iff.2 (beq_list_iff.1 h).symm
  trans h₁ h₂ := beq_list_iff.2 ((beq_list_iff.1 h₁).trans (beq_list_iff.1 h₂))

def label : Format → String
  | number => "Number"
  | text => "String"
  | truth => "Boolean"
  | custom _ label => label

/-- Whether a host registered the format. -/
def isCustom : Format → Bool
  | custom _ _ => true
  | _ => false

/-- A list of formats as shown in messages. -/
def labels (fs : List Format) : String := ", ".intercalate (fs.map label)

/-- The built-in format with a given name. -/
def builtin? : String → Option Format
  | "Number" => some number
  | "String" => some text
  | "Boolean" => some truth
  | _ => none

end Format

end Formulary
