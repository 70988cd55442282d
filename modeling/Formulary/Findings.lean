/-!
# Findings — what a walk meets, in order

A walk of a formula hands on what it meets in a part before what it meets in
the next part. A formula may be deep and broad, so putting two findings
together must not depend on how many there are of either. Findings are held as
what they put before a list: then one is put before the other in one step, and
the list is written once, at the end of the walk.
-/

namespace Formulary

/-- Members in an order, held as what they put before a list. -/
structure Findings (α : Type) where
  /-- The members, followed by those of a list. -/
  before : List α → List α
  /-- What is put before a list does not depend on the list. -/
  before_eq : ∀ rest, before rest = before [] ++ rest

namespace Findings

variable {α : Type}

/-- The members. -/
def toList (f : Findings α) : List α := f.before []

/-- No members. -/
def empty : Findings α := ⟨fun rest => rest, fun _ => rfl⟩

/-- One member. -/
def singleton (a : α) : Findings α := ⟨fun rest => a :: rest, fun _ => rfl⟩

/-- The members of one, and then those of another. -/
def append (f g : Findings α) : Findings α :=
  ⟨fun rest => f.before (g.before rest), fun rest => by
    rw [g.before_eq, f.before_eq, f.before_eq (g.before []), List.append_assoc]⟩

instance : Append (Findings α) := ⟨append⟩

/-- The members of several, one after another. -/
def flatten (fs : List (Findings α)) : Findings α := fs.foldl (· ++ ·) empty

/-- **Findings with the same members are the same.** -/
theorem ext {f g : Findings α} (h : f.toList = g.toList) : f = g := by
  obtain ⟨before, hf⟩ := f
  obtain ⟨before', hg⟩ := g
  obtain rfl : before = before' := funext fun rest => by rw [hf, hg]; exact congrArg (· ++ rest) h
  rfl

@[simp] theorem toList_empty : (empty : Findings α).toList = [] := rfl

@[simp] theorem toList_singleton (a : α) : (singleton a).toList = [a] := rfl

@[simp] theorem toList_append (f g : Findings α) : (f ++ g).toList = f.toList ++ g.toList :=
  f.before_eq _

@[simp] theorem append_empty (f : Findings α) : f ++ empty = f := rfl

@[simp] theorem empty_append (f : Findings α) : empty ++ f = f := rfl

theorem append_assoc (f g h : Findings α) : f ++ g ++ h = f ++ (g ++ h) := rfl

/-- **Several findings have the members of each, in order.** -/
@[simp] theorem toList_flatten (fs : List (Findings α)) :
    (flatten fs).toList = fs.flatMap toList := by
  have from_any (f : Findings α) :
      (fs.foldl (· ++ ·) f).toList = f.toList ++ fs.flatMap toList := by
    induction fs generalizing f with
    | nil => simp
    | cons g gs ih => simp [ih]
  exact from_any empty

end Findings

end Formulary
