/-!
# Names — strings by number

An interner numbers strings in the order in which they are first given to
it, the empty string first. A name is such a number: looking it up gives its
string back (`lookup_of_get?`), the string has no other name
(`get?_eq_some_iff`), and both stay so while the interner grows
(`get?_intern_of_get?`).
-/

namespace Formulary

/-- The number of a string in an interner. -/
structure Name where
  raw : Nat
  deriving DecidableEq, Ord

namespace Name

/-- The name of the empty string. -/
def empty : Name := ⟨0⟩

instance : Inhabited Name := ⟨empty⟩

def inspect (n : Name) : String := s!"Name({n.raw})"

end Name

/-- Why a string could not be given a name. -/
inductive InternError where
  /-- The interner holds this many strings and takes no more. -/
  | overflow (count : Nat)
  deriving DecidableEq

/-- The strings that have names, each once, the empty string first. -/
structure Interner where
  /-- The strings, each at the place its name numbers. -/
  strings : List String
  /-- The empty string has number zero. -/
  empty_first : strings[0]? = some ""
  /-- No string is held twice. -/
  distinct : strings.Nodup

namespace Interner

/-- The interner that has named the empty string only. -/
def fresh : Interner where
  strings := [""]
  empty_first := rfl
  distinct := List.pairwise_singleton _ _

instance : Inhabited Interner := ⟨fresh⟩

/-- The number of strings an interner can hold. -/
def capacity : Nat := 4294967296

/-- The largest number a name can have. -/
def maxRaw : Nat := capacity - 1

/-- The name of a string that has one. -/
def get? (t : Interner) (s : String) : Option Name :=
  (t.strings.findIdx? (· == s)).map Name.mk

/-- The string of a name, empty for a name not handed out. -/
def lookup (t : Interner) (n : Name) : String :=
  t.strings[n.raw]?.getD ""

/-- The number of strings, the empty one counted. -/
def size (t : Interner) : Nat := t.strings.length

theorem mem_strings_of_get? {t : Interner} {s : String} (h : t.get? s = none) :
    s ∉ t.strings := by
  simp only [get?, Option.map_eq_none_iff, List.findIdx?_eq_none_iff] at h
  intro hs
  simpa using h s hs

/-- Gives a new string the next number. -/
def add (t : Interner) (s : String) (h : t.get? s = none) : Interner where
  strings := t.strings ++ [s]
  empty_first := by
    obtain ⟨hlt, -⟩ := List.getElem?_eq_some_iff.1 t.empty_first
    rw [List.getElem?_append_left hlt, t.empty_first]
  distinct := by
    refine List.nodup_append.2 ⟨t.distinct, by simp, ?_⟩
    rintro a ha b hb rfl
    rw [List.mem_singleton] at hb
    exact mem_strings_of_get? h (hb ▸ ha)

/-- The name of a string, new if it had none. -/
def intern (t : Interner) (s : String) : Name × Interner :=
  match h : t.get? s with
  | some n => (n, t)
  | none => (⟨t.size⟩, t.add s h)

/-- The name of a string, unless it had none and the interner is full. -/
def tryIntern (t : Interner) (s : String) : Except InternError (Name × Interner) :=
  if t.get? s = none ∧ capacity ≤ t.size then .error (.overflow t.size) else .ok (t.intern s)

/-! ## Names and strings are one to one -/

/-- **A string is the text of exactly one name,** the one it is found under. -/
theorem get?_eq_some_iff (t : Interner) (s : String) (n : Name) :
    t.get? s = some n ↔ t.strings[n.raw]? = some s := by
  simp only [get?, Option.map_eq_some_iff, List.findIdx?_eq_some_iff_getElem]
  constructor
  · rintro ⟨i, ⟨hlt, heq, -⟩, rfl⟩
    exact List.getElem?_eq_some_iff.2 ⟨hlt, by simpa using heq⟩
  · intro h
    obtain ⟨hlt, heq⟩ := List.getElem?_eq_some_iff.1 h
    refine ⟨n.raw, ⟨hlt, by simpa using heq, fun j hj => ?_⟩, rfl⟩
    rw [Bool.not_eq_true, beq_eq_false_iff_ne, ← heq]
    exact List.pairwise_iff_getElem.1 t.distinct j n.raw _ hlt hj

/-- A name found for a string has that string. -/
theorem lookup_of_get? {t : Interner} {s : String} {n : Name} (h : t.get? s = some n) :
    t.lookup n = s := by
  rw [lookup, (t.get?_eq_some_iff s n).1 h, Option.getD_some]

/-- The empty string has the empty name. -/
@[simp] theorem get?_empty (t : Interner) : t.get? "" = some Name.empty :=
  (t.get?_eq_some_iff "" Name.empty).2 t.empty_first

theorem intern_of_get?_eq_some {t : Interner} {s : String} {n : Name} (h : t.get? s = some n) :
    t.intern s = (n, t) := by
  unfold intern
  split <;> simp_all

theorem intern_of_get?_eq_none {t : Interner} {s : String} (h : t.get? s = none) :
    t.intern s = (⟨t.size⟩, t.add s h) := by
  unfold intern
  split <;> simp_all

/-- What a growing interner holds: what it held, and the new string last. -/
theorem strings_intern (t : Interner) (s : String) :
    (t.intern s).2.strings = if t.get? s = none then t.strings ++ [s] else t.strings := by
  cases h : t.get? s with
  | none => rw [intern_of_get?_eq_none h, if_pos rfl]; rfl
  | some n => rw [intern_of_get?_eq_some h, if_neg (by simp)]

/-- **An interned string is found under the name it was given.** -/
@[simp] theorem get?_intern (t : Interner) (s : String) :
    (t.intern s).2.get? s = some (t.intern s).1 := by
  cases h : t.get? s with
  | none =>
    rw [get?_eq_some_iff, strings_intern, if_pos h, intern_of_get?_eq_none h]
    simp [size]
  | some n => rw [intern_of_get?_eq_some h, h]

/-- **An interned name has its string.** -/
@[simp] theorem lookup_intern (t : Interner) (s : String) :
    (t.intern s).2.lookup (t.intern s).1 = s :=
  lookup_of_get? (t.get?_intern s)

/-- A name that was found stays found while the interner grows. -/
theorem get?_intern_of_get? {t : Interner} {s r : String} {n : Name} (h : t.get? r = some n) :
    (t.intern s).2.get? r = some n := by
  rw [get?_eq_some_iff] at h ⊢
  rw [strings_intern]
  split
  · rw [List.getElem?_append_left (List.getElem?_eq_some_iff.1 h).1, h]
  · exact h

end Interner

/-- What is said of a string that found no name. -/
def InternError.message : InternError → String
  | .overflow count =>
    s!"interner exceeded capacity: {count} strings, max is {Interner.maxRaw}"

end Formulary
