import Formulary.Proofs.Instance.Identity
/-!
# Releasing what was released

A release forgets an instance and all that is cached inside it. After it nothing inside the
instance is cached (`not_inside_of_mem_release`). But a handle outlives its release. It may
be passed back as a parent, and what is made inside it then is cached like anything else.

What a factory has cached at the end of a run was cached at the start, or was asked for on
the way and not released since (`mem_cached_afterAll`, `Keeps.find?`). So a second release
of an instance drops exactly what was asked for inside it between the two releases and is
kept (`releaseCount_after_release`). It drops nothing if no parent that was passed on in
between lies inside the instance.
-/

namespace Formulary

namespace Sample

/-- The factory that has made the outer instance. -/
def opened : InstanceFactory := ⟨⟨[(⟨0, none, "acme"⟩, acme)]⟩, 1⟩

end Sample

/-- An instance lies inside another if that one is in its chain, as it is in its own. -/
def ScopeInstance.Inside (e i : ScopeInstance) : Prop := ∃ a ∈ e.ancestors, (a == i) = true

theorem ScopeInstance.not_inside_iff {e i : ScopeInstance} :
    ¬ e.Inside i ↔ ∀ a ∈ e.ancestors, (a == i) = false := by
  simp [Inside]

namespace InstanceFactory

/-- An instance is handed out on request, and from then on neither it nor one around it is
released. -/
def Keeps (f : InstanceFactory) (requests : List Request) (e : ScopeInstance) : Prop :=
  ∃ earlier scope subject parent later f',
    requests = earlier ++ .get scope subject parent :: later ∧
    (f.afterAll earlier).get scope subject parent = .ok (e, f') ∧
    ∀ j, .release j ∈ later → ¬ e.Inside j

variable {f f' : InstanceFactory} {i j : ScopeInstance} {requests : List Request}
variable {scope : LegalScope} {subject : String} {parent : Option ScopeInstance}
variable {e : InstanceKey × ScopeInstance}

/-! ## One release -/

/-- What a release looks for along a chain. -/
theorem all_ne_iff {e : ScopeInstance} :
    (e.ancestors.all (·.id != i.id)) = true ↔ ¬ e.Inside i := by
  rw [ScopeInstance.not_inside_iff, List.all_eq_true]
  refine forall₂_congr fun a _ => ?_
  rw [bne_iff_ne, ← Bool.not_eq_true, ScopeInstance.beq_iff]

/-- **A release keeps what does not lie inside the instance.** -/
theorem mem_release_iff :
    e ∈ (f.release i).cached.entries ↔ e ∈ f.cached.entries ∧ ¬ e.2.Inside i := by
  rw [release, List.mem_filter, all_ne_iff]

theorem not_inside_of_mem_release (he : e ∈ (f.release i).cached.entries) : ¬ e.2.Inside i :=
  (mem_release_iff.1 he).2

/-- Where nothing inside the instance is cached, a release changes nothing. -/
theorem release_of_forall_not_inside (h : ∀ e ∈ f.cached.entries, ¬ e.2.Inside i) :
    f.release i = f := by
  have hsame : (f.cached.entries.filter fun e => e.2.ancestors.all (·.id != i.id)) =
      f.cached.entries := List.filter_eq_self.2 fun e he => all_ne_iff.2 (h e he)
  unfold release
  rw [hsame]

/-- **A release drops nothing exactly if nothing inside the instance is cached.** -/
theorem releaseCount_eq_zero_iff :
    f.releaseCount i = 0 ↔ ∀ e ∈ f.cached.entries, ¬ e.2.Inside i := by
  constructor
  · intro hzero e he
    have hle : (f.release i).size ≤ f.size := List.length_filter_le _ _
    have hsize : (f.release i).size = f.size := by
      rw [releaseCount] at hzero
      omega
    have hsame : (f.release i).cached.entries = f.cached.entries :=
      List.filter_sublist.eq_of_length hsize
    exact not_inside_of_mem_release (hsame ▸ he)
  · intro hnone
    rw [releaseCount, release_of_forall_not_inside hnone]
    exact Nat.sub_self _

/-! ## What is cached at the end of a run -/

/-- The factory that hands an instance out. -/
theorem after_of_get (h : f.get scope subject parent = .ok (i, f')) :
    f.after (.get scope subject parent) = f' := by
  simp only [after, h]

/-- What a factory is told to hand out is cached already, or is made now. -/
theorem get_cases (f : InstanceFactory) (scope : LegalScope) (subject : String)
    (parent : Option ScopeInstance) :
    f.after (.get scope subject parent) = f ∨ ∃ made,
      made = ⟨⟨f.nextId, scope, subject⟩, enclosingOf parent⟩ ∧
        f.get scope subject parent = .ok (made, f.remember made) ∧
        f.after (.get scope subject parent) = f.remember made := by
  cases hget : f.get scope subject parent with
  | error e => exact .inl (by simp only [after, hget])
  | ok answer =>
    obtain ⟨i, f'⟩ := answer
    obtain ⟨-, ⟨-, rfl⟩ | ⟨-, hmade, rfl⟩⟩ := get_eq_ok hget
    · exact .inl (after_of_get hget)
    · exact .inr ⟨i, hmade, rfl, after_of_get hget⟩

/-- What is kept is cached. -/
theorem Keeps.find? {e : ScopeInstance} (hf : f.Ordered) (h : f.Keeps requests e) :
    (f.afterAll requests).cached.find? e.key = some e := by
  obtain ⟨earlier, scope, subject, parent, later, f', rfl, hget, hkept⟩ := h
  obtain ⟨-, hfind, -⟩ := (hf.afterAll earlier).get hget
  rw [afterAll_append, afterAll, List.foldl_cons, after_of_get hget]
  exact find?_afterAll hfind fun j hj => ScopeInstance.not_inside_iff.1 (hkept j hj)

/-- A request more at the start changes nothing for what is handed out later. -/
theorem Keeps.cons {e : ScopeInstance} {request : Request}
    (h : (f.after request).Keeps requests e) : f.Keeps (request :: requests) e := by
  obtain ⟨earlier, scope, subject, parent, later, f', rfl, hget, hkept⟩ := h
  exact ⟨request :: earlier, scope, subject, parent, later, f', rfl, hget, hkept⟩

/-- **What is cached at the end of a run** was cached at its start, or was asked for on the way
and is kept. -/
theorem mem_cached_afterAll (hf : f.Ordered) (he : e ∈ (f.afterAll requests).cached.entries) :
    e ∈ f.cached.entries ∨ f.Keeps requests e.2 := by
  induction requests generalizing f with
  | nil => exact .inl he
  | cons request rest ih =>
    rcases ih (hf.after request) he with hfirst | hkept
    · cases request with
      | release j => exact .inl (mem_release_iff.1 hfirst).1
      | get scope subject parent =>
        rcases get_cases f scope subject parent with hsame | ⟨made, hnew, hget, hmade⟩
        · rw [hsame] at hfirst
          exact .inl hfirst
        · rw [hmade] at hfirst
          refine (Table.mem_insert hfirst).imp_right fun ⟨_, heq⟩ => ?_
          refine ⟨[], scope, subject, parent, rest, f.remember made, rfl, heq ▸ hget,
            fun j hj hinside => ?_⟩
          -- had it been released, it would not be cached in the end
          obtain ⟨a, ha, haj⟩ := hinside
          have hgiven : (f.after (.get scope subject parent)).Given made (· = made) := by
            rw [hmade]
            exact hf.given_remember (by rw [hnew]; rfl)
          have hgone := given_afterAll_of_release hgiven hj (heq ▸ ha) haj
          exact hgone.cached e he (congrArg ScopeInstance.id heq)
    · exact .inr hkept.cons

/-- Numbers are given out upwards. -/
theorem nextId_le_afterAll (f : InstanceFactory) (requests : List Request) :
    f.nextId ≤ (f.afterAll requests).nextId := by
  induction requests generalizing f with
  | nil => exact Nat.le_refl _
  | cons request rest ih =>
    have hstep : f.nextId ≤ (f.after request).nextId := by
      rcases after_cases f request with hsame | ⟨made, -, -, hmade⟩ | ⟨j, -, hreleased⟩
      · exact Nat.le_of_eq (by rw [hsame])
      · rw [hmade]
        exact Nat.le_succ _
      · rw [hreleased]
        exact Nat.le_refl _
    exact Nat.le_trans hstep (ih _)

/-- **Inside an instance nothing comes to be cached** if it was not before, none of the parents
that are passed on the way lies inside it, and its number is not given out on the way. -/
theorem not_inside_afterAll (hnone : ∀ e ∈ f.cached.entries, ¬ e.2.Inside i)
    (hparents : ∀ s u p, .get s u (some p) ∈ requests → ¬ p.Inside i)
    (hnumber : i.id < f.nextId ∨ (f.afterAll requests).nextId ≤ i.id) :
    ∀ e ∈ (f.afterAll requests).cached.entries, ¬ e.2.Inside i := by
  induction requests generalizing f with
  | nil => exact hnone
  | cons request rest ih =>
    have hrest (s : LegalScope) (u : String) (p : ScopeInstance) (hp : .get s u (some p) ∈ rest) :
        ¬ p.Inside i := hparents s u p (List.mem_cons_of_mem _ hp)
    cases request with
    | release j =>
      have hreleased : ∀ e ∈ (f.after (.release j)).cached.entries, ¬ e.2.Inside i :=
        fun e he => hnone e (mem_release_iff.1 he).1
      exact ih hreleased hrest hnumber
    | get scope subject parent =>
      rcases get_cases f scope subject parent with hsame | ⟨made, hnew, -, hmade⟩
      · rw [afterAll, List.foldl_cons, hsame] at hnumber ⊢
        exact ih hnone hrest hnumber
      · rw [afterAll, List.foldl_cons, hmade] at hnumber ⊢
        have hup : f.nextId + 1 ≤ ((f.remember made).afterAll rest).nextId :=
          nextId_le_afterAll (f.remember made) rest
        have hother : f.nextId ≠ i.id := by
          rcases hnumber with hlt | hle
          · omega
          · have hle : ((f.remember made).afterAll rest).nextId ≤ i.id := hle
            omega
        have hnumber : i.id < (f.remember made).nextId ∨
            ((f.remember made).afterAll rest).nextId ≤ i.id :=
          hnumber.imp_left Nat.lt_succ_of_lt
        refine ih (fun e he => ?_) hrest hnumber
        rcases Table.mem_insert he with he | ⟨-, heq⟩
        · exact hnone e he
        · -- the new instance has another number, and its chain goes on with its parent's
          rintro ⟨a, ha, hai⟩
          rw [heq, hnew] at ha
          rcases ancestors_made ha with rfl | ⟨p, rfl, hap⟩
          · exact hother (ScopeInstance.beq_iff.1 hai)
          · exact hparents scope subject p List.mem_cons_self ⟨a, hap, hai⟩

/-! ## A second release -/

/-- **A second release drops what was asked for inside the instance after the first,** and is
kept. It drops nothing, and changes nothing, exactly if there is no such instance: for one, if
no parent that was passed on between the two releases lies inside the released instance. That
one is never cached again itself. -/
theorem releaseCount_after_release {before earlier between : List Request}
    {made released later : InstanceFactory}
    (h : (({} : InstanceFactory).afterAll before).get scope subject parent = .ok (i, made))
    (hreleased : released = (made.afterAll earlier).release i)
    (hlater : later = released.afterAll between) :
    (later.releaseCount i = 0 ↔ ∀ e, released.Keeps between e → ¬ e.Inside i) ∧
    (later.releaseCount i = 0 → later.release i = later) ∧
    (∀ e, e ∈ later.cached.entries ∧ e ∉ (later.release i).cached.entries ↔
      e.1 = e.2.key ∧ released.Keeps between e.2 ∧ e.2.Inside i) ∧
    (∀ e ∈ later.cached.entries, (e.2 == i) = false) ∧
    ((∀ s u p, .get s u (some p) ∈ between → ¬ p.Inside i) → later.releaseCount i = 0) := by
  have hmade : made.Ordered := by
    rw [← after_of_get h]
    exact (ordered_empty.afterAll before).after (.get scope subject parent)
  have hordered : released.Ordered := by
    rw [hreleased]
    exact (hmade.afterAll earlier).after (.release i)
  have hgiven : released.Given i fun _ => False := by
    obtain ⟨-, -, hown⟩ := (ordered_empty.afterAll before).get h
    rw [hreleased]
    exact given_release (hown.afterAll earlier) (by rw [ScopeInstance.ancestors_eq]; simp) BEq.rfl
  have hnone : ∀ e ∈ released.cached.entries, ¬ e.2.Inside i := by
    rw [hreleased]
    exact fun e => not_inside_of_mem_release
  have hkept {e : InstanceKey × ScopeInstance} (he : e ∈ later.cached.entries)
      (hinside : e.2.Inside i) : released.Keeps between e.2 := by
    rw [hlater] at he
    exact (mem_cached_afterAll hordered he).resolve_left fun hfirst => hnone e hfirst hinside
  have hcached {e : ScopeInstance} (he : released.Keeps between e) :
      (e.key, e) ∈ later.cached.entries := by
    obtain ⟨d, hd, hkey, rfl⟩ := Table.mem_of_find? (he.find? hordered)
    rw [hlater, ← eq_of_beq hkey]
    exact hd
  refine ⟨⟨fun hzero e he => releaseCount_eq_zero_iff.1 hzero _ (hcached he), fun hno => ?_⟩,
    fun hzero => release_of_forall_not_inside (releaseCount_eq_zero_iff.1 hzero), fun e => ?_,
    fun e he => ?_, fun hparents => ?_⟩
  · exact releaseCount_eq_zero_iff.2 fun e he hinside => hno e.2 (hkept he hinside) hinside
  · constructor
    · rintro ⟨he, hdropped⟩
      have hinside : e.2.Inside i := by
        by_contra hout
        exact hdropped (mem_release_iff.2 ⟨he, hout⟩)
      have hkey : e.1 = e.2.key := by
        rw [hlater] at he
        exact (hordered.afterAll between).keyed e he
      exact ⟨hkey, hkept he hinside, hinside⟩
    · rintro ⟨hkey, hkeeps, hinside⟩
      have he : e ∈ later.cached.entries := by
        have hmem := hcached hkeeps
        rw [← hkey] at hmem
        exact hmem
      exact ⟨he, fun hstays => not_inside_of_mem_release hstays hinside⟩
  · rw [hlater] at he
    refine Bool.eq_false_iff.2 fun hsame => ?_
    exact (hgiven.afterAll between).cached e he (ScopeInstance.beq_iff.1 hsame)
  · rw [releaseCount_eq_zero_iff, hlater]
    exact not_inside_afterAll hnone hparents (.inl hgiven.taken)

/-- The outer instance is released, made anew and released again as it was at first: nothing is
dropped. -/
theorem releaseCount_after_release_acme :
    ({} : InstanceFactory).get Sample.company "acme" none = .ok (Sample.acme, Sample.opened) ∧
      ((Sample.opened.release Sample.acme).afterAll
        [.get Sample.company "acme" none]).releaseCount Sample.acme = 0 := by
  have hfirst : (({} : InstanceFactory).afterAll []).get Sample.company "acme" none =
      .ok (Sample.acme, Sample.opened) := rfl
  have hreleased : Sample.opened.release Sample.acme =
      (Sample.opened.afterAll []).release Sample.acme := rfl
  have hlater : (Sample.opened.release Sample.acme).afterAll [.get Sample.company "acme" none] =
      (Sample.opened.release Sample.acme).afterAll [.get Sample.company "acme" none] := rfl
  obtain ⟨-, -, -, -, hparents⟩ := releaseCount_after_release hfirst hreleased hlater
  refine ⟨hfirst, hparents fun s u p hp => ?_⟩
  cases List.mem_singleton.1 hp

/-- An inner instance is asked for inside the outer one when that was released, and is cached.
The outer one is released again, and that drops the inner one. -/
theorem releaseCount_acme_again :
    ({} : InstanceFactory).get Sample.company "acme" none = .ok (Sample.acme, Sample.opened) ∧
      (Sample.opened.release Sample.acme).get Sample.team "sales" (some Sample.acme) =
        .ok (Sample.sales, Sample.factory) ∧
      Sample.factory.releaseCount Sample.acme = 1 ∧
      Sample.factory.release Sample.acme ≠ Sample.factory := by
  refine ⟨rfl, rfl, rfl, fun hsame => ?_⟩
  have hsize : (Sample.factory.release Sample.acme).size = Sample.factory.size := by rw [hsame]
  exact absurd hsize (by decide)

end InstanceFactory

end Formulary
