import Formulary.Proofs.Format.Registry
import Formulary.Store
import Mathlib.Data.List.Induction
/-!
# Stores, order by order

A host orders a store to set the value of a variable or to take it away. A value is set if
the format that it names is that of its variable (`set_eq_ok_iff`), and nothing else is
asked of it. What a store then holds for a variable is what the last order for it says
(`get?_afterAll`), so every value that is held was set, and names the format of its variable
(`exists_set_of_get?`).

Of a value that names the format of its variable one thing is left to know, which is whether
it is what that format stands for: it is so exactly if it is genuine (`ofKind_iff_genuine`).
-/

namespace Formulary

/-- Whether a format is a registered one is told by its identity. -/
theorem Format.isCustom_congr {f g : Format} (h : f.identity = g.identity) :
    f.isCustom = g.isCustom := by
  cases f <;> cases g <;> first | rfl | cases h

namespace Value

/-- The values that a format stands for: the numbers, the texts and the truth values that are
read as such, and the objects of a registered format. -/
def OfKind : Format → Value → Prop
  | .number, value => value.asNumber?.isSome = true
  | .text, value => value.asText?.isSome = true
  | .truth, value => value.asTruth?.isSome = true
  | .custom name label, value =>
      ∃ format key, value = object format key ∧ (format == .custom name label) = true

variable {format : Format} {value : Value}

/-- A value that names a registered format is genuine. -/
theorem genuine_of_isCustom (h : (value.format == format) = true) (hc : format.isCustom = true) :
    value.Genuine := by
  cases value with
  | number x | text s | truth b => trivial
  | object named key =>
    have hsame : named.isCustom = format.isCustom := Format.isCustom_congr (Format.beq_iff.1 h)
    exact hsame.trans hc

/-- **A value that names a format is of its kind exactly if it is genuine.** -/
theorem ofKind_iff_genuine (h : (value.format == format) = true) :
    value.OfKind format ↔ value.Genuine := by
  have hidentity : value.format.identity = format.identity := Format.beq_iff.1 h
  constructor
  · intro hkind
    cases value with
    | number x | text s | truth b => trivial
    | object named key =>
      -- nothing reads an object, so the format is a registered one
      cases format with
      | number | text | truth => exact absurd hkind Bool.false_ne_true
      | custom name label => exact genuine_of_isCustom h rfl
  · intro hgenuine
    have hof : value.IsOf format := hgenuine.isOf hidentity.symm
    cases format with
    | number | text | truth =>
      obtain ⟨_, rfl⟩ := hof
      rfl
    | custom name label =>
      cases value with
      | object named key => exact ⟨named, key, rfl, h⟩
      | number x | text s | truth b => cases hidentity

end Value

namespace VariableStore

variable {s : VariableStore} {v : VariableId} {value : Value}

/-- **A value of the declared format is stored, and only such a value.** The answer is the value
in whose place it is stored. -/
theorem set_eq_ok_iff {before : Option Value} {s' : VariableStore} :
    s.set v value = .ok (before, s') ↔
      (value.format == v.format) = true ∧ before = s.get? v ∧ s' = s.put v value := by
  unfold set
  split
  · rename_i hformat
    rw [Except.ok.injEq, Prod.mk.injEq, eq_comm, @eq_comm _ s']
    exact (and_iff_right hformat).symm
  · rename_i hformat
    exact iff_of_false (fun h => by cases h) fun h => hformat h.1

theorem set_eq_error_iff {e : ConfigError} : s.set v value = .error e ↔
    (value.format == v.format) = false ∧ e = .storeFormatMismatch v.format value.format := by
  unfold set
  split
  · rename_i hformat
    exact iff_of_false (fun h => by cases h) fun h => by rw [hformat] at h; cases h.1
  · rename_i hformat
    rw [Except.error.injEq]
    exact ⟨fun h => ⟨Bool.eq_false_iff.2 hformat, h.symm⟩, fun h => h.2.symm⟩

/-! ## Orders -/

/-- What a host orders. -/
inductive Order where
  /-- A variable is to have a value. -/
  | set (v : VariableId) (value : Value)
  /-- A variable is to have none. -/
  | remove (v : VariableId)

/-- Whether an order has a say in what is held for a variable. A value that is refused has
none. -/
def Order.writes (v : VariableId) : Order → Bool
  | set w value => w == v && value.format == w.format
  | remove w => w == v

/-- What is held by an order that has a say. -/
def Order.value? : Order → Option Value
  | set _ value => some value
  | remove _ => none

/-- The store after an order. A refusal leaves it as it is. -/
def after (s : VariableStore) : Order → VariableStore
  | .set v value =>
    match s.set v value with
    | .ok (_, s') => s'
    | .error _ => s
  | .remove v => (s.remove v).2

/-- The store after orders, one after another. -/
def afterAll (s : VariableStore) (orders : List Order) : VariableStore := orders.foldl after s

variable {orders : List Order}

/-- **An order changes what is held where it has a say, and nowhere else.** -/
theorem get?_after (s : VariableStore) (order : Order) (v : VariableId) :
    (s.after order).get? v = if order.writes v then order.value? else s.get? v := by
  cases order with
  | remove w =>
    rw [after, get?_remove]
    rfl
  | set w value =>
    by_cases hformat : (value.format == w.format) = true
    · have hset : s.set w value = .ok (s.get? w, s.put w value) :=
        set_eq_ok_iff.2 ⟨hformat, rfl, rfl⟩
      have hwrites : (Order.set w value).writes v = (w == v) := by
        rw [Order.writes, hformat, Bool.and_true]
      rw [after, hset, hwrites]
      exact get?_put s w v value
    · rw [Bool.not_eq_true] at hformat
      have hset : s.set w value = .error (.storeFormatMismatch w.format value.format) :=
        set_eq_error_iff.2 ⟨hformat, rfl⟩
      have hwrites : (Order.set w value).writes v = false := by
        rw [Order.writes, hformat, Bool.and_false]
      rw [after, hset, hwrites]
      rfl

/-- **What is held is what the last order says** that has a say. -/
theorem get?_afterAll (orders : List Order) (v : VariableId) :
    (({} : VariableStore).afterAll orders).get? v =
      (orders.reverse.find? (Order.writes v)).bind Order.value? := by
  induction orders using List.reverseRecOn with
  | nil => rfl
  | append_singleton orders order ih =>
    rw [afterAll, List.foldl_append, List.foldl_cons, List.foldl_nil, get?_after,
      List.reverse_append, List.reverse_singleton, List.singleton_append, List.find?_cons]
    split
    · rename_i hwrites
      rw [hwrites]
      rfl
    · rename_i hwrites
      rw [Bool.not_eq_true] at hwrites
      rw [hwrites]
      exact ih

/-- **What is held was set,** for an equal variable, and names the format of it. -/
theorem exists_set_of_get? (h : (({} : VariableStore).afterAll orders).get? v = some value) :
    (value.format == v.format) = true ∧ ∃ w, .set w value ∈ orders ∧ (w == v) = true := by
  rw [get?_afterAll] at h
  obtain ⟨order, hfind, hvalue⟩ := Option.bind_eq_some_iff.1 h
  have hmem : order ∈ orders := List.mem_reverse.1 (List.mem_of_find?_eq_some hfind)
  have hwrites : order.writes v = true := List.find?_some hfind
  cases order with
  | remove w => cases hvalue
  | set w held =>
    obtain rfl : held = value := Option.some.inj hvalue
    obtain ⟨hsame, hformat⟩ := Bool.and_eq_true_iff.1 hwrites
    have hvar : (w.format == v.format) = true :=
      Format.beq_iff.2 (VariableId.beq_iff.1 hsame).2.2
    exact ⟨BEq.trans hformat hvar, w, hmem, hsame⟩

end VariableStore

end Formulary
