import Mathlib.Data.List.Forall2
/-!
# Answers to the members of a list

A function that may have no answer, or that may fail, is asked about the members
of a list from the left. It answers for the list exactly when it answers for
every member, and then member by member; a failure is that of a member. Where two
functions come to the same for each member, unless one of them fails in some way,
they do for the list (`SameUnless.mapM`).
-/

namespace Formulary

variable {α β ε : Type}

theorem exists_of_mem_of_forall₂ {R : α → β → Prop} {as : List α} {bs : List β}
    (h : List.Forall₂ R as bs) {a : α} (ha : a ∈ as) : ∃ b, R a b := by
  induction h with
  | nil => cases ha
  | cons hab _ ih =>
    rcases List.mem_cons.1 ha with rfl | ha
    · exact ⟨_, hab⟩
    · exact ih ha

/-- Members of two lists side by side have a property each. -/
theorem forall₂_zip_iff {γ : Type} {R : α → γ → Prop} {Q : β → γ → Prop} {as : List α}
    {bs : List β} {cs : List γ} (h : as.length = bs.length) :
    List.Forall₂ (fun p c => R p.1 c ∧ Q p.2 c) (as.zip bs) cs ↔
      List.Forall₂ R as cs ∧ List.Forall₂ Q bs cs := by
  induction as generalizing bs cs with
  | nil =>
    cases bs with
    | nil => cases cs <;> simp
    | cons b bs => cases h
  | cons a as ih =>
    cases bs with
    | nil => cases h
    | cons b bs =>
      cases cs with
      | nil => simp
      | cons c cs =>
        simp only [List.zip_cons_cons, List.forall₂_cons, ih (Nat.succ.inj h)]
        tauto

/-- Lists are related member by member if at each place there are related members, or none. -/
theorem forall₂_iff_getElem? {R : α → β → Prop} {as : List α} {bs : List β} :
    List.Forall₂ R as bs ↔ ∀ k : Nat, Option.Rel R as[k]? bs[k]? := by
  constructor
  · intro h k
    induction h generalizing k with
    | nil => exact .none
    | cons hab _ ih =>
      cases k with
      | zero => exact .some hab
      | succ k => exact ih k
  · intro h
    induction as generalizing bs with
    | nil =>
      cases bs with
      | nil => exact .nil
      | cons b bs => exact absurd (h 0) (by simp)
    | cons a as ih =>
      cases bs with
      | nil => exact absurd (h 0) (by simp)
      | cons b bs =>
        have hab : Option.Rel R (some a) (some b) := h 0
        cases hab with
        | some hab => exact .cons hab (ih fun k => h (k + 1))

/-- Functions answer lists alike, member by member, if the lists of their answers coincide. -/
theorem forall₂_eq_iff {γ : Type} {f : α → γ} {g : β → γ} {as : List α} {bs : List β} :
    List.Forall₂ (fun a b => f a = g b) as bs ↔ as.map f = bs.map g := by
  rw [← List.forall₂_eq_eq_eq, List.forall₂_map_left_iff, List.forall₂_map_right_iff]

/-- **A list has an answer exactly when each member has.** -/
theorem mapM_eq_some_iff {f : α → Option β} {as : List α} {bs : List β} :
    as.mapM f = some bs ↔ List.Forall₂ (fun a b => f a = some b) as bs := by
  induction as generalizing bs with
  | nil => simp [eq_comm]
  | cons a as ih =>
    rw [List.mapM_cons, List.forall₂_cons_left_iff]
    constructor
    · intro h
      obtain ⟨b, hb, h⟩ := Option.bind_eq_some_iff.1 h
      obtain ⟨rest, hrest, h⟩ := Option.bind_eq_some_iff.1 h
      cases h
      exact ⟨b, rest, hb, ih.1 hrest, rfl⟩
    · rintro ⟨b, rest, hb, hrest, rfl⟩
      rw [hb, ih.2 hrest]
      rfl

/-- A list has no answer only for want of that to a member. -/
theorem exists_of_mapM_eq_none {f : α → Option β} {as : List α} (h : as.mapM f = none) :
    ∃ a ∈ as, f a = none := by
  induction as with
  | nil => cases h
  | cons a as ih =>
    rw [List.mapM_cons] at h
    cases ha : f a with
    | none => exact ⟨a, List.mem_cons_self, ha⟩
    | some b =>
      cases hrest : as.mapM f with
      | none =>
        obtain ⟨a', ha', h'⟩ := ih hrest
        exact ⟨a', List.mem_cons_of_mem _ ha', h'⟩
      | some rest =>
        rw [ha, hrest] at h
        cases h

/-- A step after another goes through if both do. -/
theorem bind_eq_ok_iff {x : Except ε α} {f : α → Except ε β} {b : β} :
    (x >>= f) = .ok b ↔ ∃ a, x = .ok a ∧ f a = .ok b := by
  cases x with
  | error e =>
    refine iff_of_false (fun h => ?_) fun ⟨a, h, _⟩ => ?_ <;> cases h
  | ok a =>
    constructor
    · intro h
      exact ⟨a, rfl, h⟩
    · rintro ⟨a', ha, h⟩
      cases ha
      exact h

theorem map_eq_ok_iff {x : Except ε α} {f : α → β} {b : β} :
    x.map f = .ok b ↔ ∃ a, x = .ok a ∧ f a = b := by
  cases x <;> simp [Except.map]

theorem map_eq_error_iff {x : Except ε α} {f : α → β} {e : ε} :
    x.map f = .error e ↔ x = .error e := by
  cases x <;> simp [Except.map]

theorem mapError_eq_ok_iff {ε' : Type} {x : Except ε α} {f : ε → ε'} {a : α} :
    x.mapError f = .ok a ↔ x = .ok a := by
  cases x <;> simp [Except.mapError]

/-- **A list goes through exactly when each member does.** -/
theorem mapM_eq_ok_iff {f : α → Except ε β} {as : List α} {bs : List β} :
    as.mapM f = .ok bs ↔ List.Forall₂ (fun a b => f a = .ok b) as bs := by
  induction as generalizing bs with
  | nil => simp [pure, Except.pure, eq_comm]
  | cons a as ih =>
    rw [List.mapM_cons, List.forall₂_cons_left_iff]
    constructor
    · intro h
      obtain ⟨b, hb, h⟩ := bind_eq_ok_iff.1 h
      obtain ⟨rest, hrest, h⟩ := bind_eq_ok_iff.1 h
      cases h
      exact ⟨b, rest, hb, ih.1 hrest, rfl⟩
    · rintro ⟨b, rest, hb, hrest, rfl⟩
      rw [hb, ih.2 hrest]
      rfl

/-- The failure of a list is that of a member. -/
theorem exists_of_mapM_eq_error {f : α → Except ε β} {as : List α} {e : ε}
    (h : as.mapM f = .error e) : ∃ a ∈ as, f a = .error e := by
  induction as with
  | nil => cases h
  | cons a as ih =>
    rw [List.mapM_cons] at h
    cases ha : f a with
    | error e' =>
      rw [ha] at h
      cases h
      exact ⟨a, List.mem_cons_self, ha⟩
    | ok b =>
      rw [ha] at h
      cases hrest : as.mapM f with
      | error e' =>
        rw [hrest] at h
        cases h
        obtain ⟨a', ha', h'⟩ := ih hrest
        exact ⟨a', List.mem_cons_of_mem _ ha', h'⟩
      | ok rest =>
        rw [hrest] at h
        cases h

/-- The second comes to the same as the first, unless the first fails with an error of a kind. -/
def SameUnless (P : ε → Prop) (x x' : Except ε α) : Prop :=
  x' = x ∨ ∃ e, x = .error e ∧ P e

theorem SameUnless.map {P : ε → Prop} {x x' : Except ε α} (h : SameUnless P x x') (f : α → β) :
    SameUnless P (x.map f) (x'.map f) := by
  rcases h with rfl | ⟨e, rfl, he⟩
  · exact .inl rfl
  · exact .inr ⟨e, rfl, he⟩

/-- Where there are no errors of the kind, it is the same. -/
theorem SameUnless.eq {x x' : Except ε α} (h : SameUnless (fun _ => False) x x') : x' = x :=
  h.resolve_right fun ⟨_, _, he⟩ => he

/-- **A list comes to the same as another if it does so member by member,** unless a member
fails with an error of the kind before. -/
theorem SameUnless.mapM {γ : Type} {P : ε → Prop} {f : α → Except ε γ} {g : β → Except ε γ}
    {as : List α} {bs : List β}
    (h : List.Forall₂ (fun a b => SameUnless P (f a) (g b)) as bs) :
    SameUnless P (as.mapM f) (bs.mapM g) := by
  induction h with
  | nil => exact .inl rfl
  | @cons a b as bs hab _ ih =>
    rw [List.mapM_cons, List.mapM_cons]
    rcases hab with hab | ⟨e, he, hP⟩
    · rw [hab]
      cases f a with
      | error e => exact .inl rfl
      | ok c =>
        rcases ih with hrest | ⟨e, he, hP⟩
        · rw [hrest]
          exact .inl rfl
        · rw [he]
          exact .inr ⟨e, rfl, hP⟩
    · rw [he]
      exact .inr ⟨e, rfl, hP⟩

/-- Functions that answer each member alike, or with an answer of some kind, answer a list
alike, or a member with an answer of that kind. -/
theorem map_eq_or_exists {f g : α → β} {P : β → Prop} (h : ∀ a, g a = f a ∨ P (f a))
    (as : List α) : as.map g = as.map f ∨ ∃ b ∈ as.map f, P b := by
  induction as with
  | nil => exact .inl rfl
  | cons a as ih =>
    rcases h a with ha | ha
    · rcases ih with has | ⟨b, hb, hP⟩
      · rw [List.map_cons, List.map_cons, ha, has]
        exact .inl rfl
      · exact .inr ⟨b, List.mem_cons_of_mem _ hb, hP⟩
    · exact .inr ⟨f a, List.mem_cons_self, ha⟩

/-- The first answer along several lists is the first one that some list has. -/
theorem findSome?_flatMap {f : α → List β} {g : β → Option ε} {as : List α} :
    (as.flatMap f).findSome? g = as.findSome? fun a => (f a).findSome? g := by
  induction as with
  | nil => rfl
  | cons a as ih =>
    rw [List.flatMap_cons, List.findSome?_append, ih, List.findSome?_cons]
    cases (f a).findSome? g <;> rfl

/-- What is found first from the end of a list is found last in the list. -/
theorem findSome?_reverse_eq_some_iff {f : α → Option β} {l : List α} {b : β} :
    l.reverse.findSome? f = some b ↔ ∃ earlier a later,
      l = earlier ++ a :: later ∧ f a = some b ∧ ∀ x ∈ later, f x = none := by
  rw [List.findSome?_eq_some_iff]
  constructor
  · rintro ⟨later, a, earlier, hl, ha, hlater⟩
    refine ⟨earlier.reverse, a, later.reverse, ?_, ha, fun x hx => hlater x ?_⟩
    · rw [← l.reverse_reverse, hl, List.reverse_append, List.reverse_cons, List.append_assoc]
      rfl
    · exact List.mem_reverse.1 hx
  · rintro ⟨earlier, a, later, hl, ha, hlater⟩
    refine ⟨later.reverse, a, earlier.reverse, ?_, ha, fun x hx => hlater x ?_⟩
    · rw [hl, List.reverse_append, List.reverse_cons, List.append_assoc]
      rfl
    · exact List.mem_reverse.1 hx

/-! ## Lists that grow at the end -/

/-- What is added last is found at the end. -/
theorem getElem?_concat {l : List α} {x : α} {j : Nat} :
    (l ++ [x])[j]? = if j = l.length then some x else l[j]? := by
  rcases Nat.lt_trichotomy j l.length with hlt | rfl | hgt
  · rw [List.getElem?_append_left hlt, if_neg (Nat.ne_of_lt hlt)]
  · rw [if_pos rfl, List.getElem?_concat_length]
  · rw [if_neg (Nat.ne_of_gt hgt), List.getElem?_eq_none (Nat.le_of_lt hgt),
      List.getElem?_eq_none (by simpa using Nat.succ_le_of_lt hgt)]

/-- One more member of a list goes to the end, unless it has come up before. -/
theorem eraseDups_concat [BEq α] [LawfulBEq α] (l : List α) (a : α) [Decidable (a ∈ l)] :
    (l ++ [a]).eraseDups = if a ∈ l then l.eraseDups else l.eraseDups ++ [a] := by
  rw [List.eraseDups_append, List.removeAll, List.filter_singleton]
  by_cases hmem : a ∈ l
  · rw [if_pos hmem, List.elem_eq_true_of_mem hmem]
    exact List.append_nil _
  · have hnew : List.elem a l = false := by
      rw [← Bool.not_eq_true, List.elem_iff]
      exact hmem
    rw [if_neg hmem, hnew]
    rfl

end Formulary
