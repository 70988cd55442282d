import Mathlib.Logic.Relation
import Formulary.Walk
/-!
# Balanced walks

A visit is outside of its level or inside of it. It is balanced if it enters from outside only,
leaves and calls for visits from inside only, and is outside when it is over, whatever the
answers are that it gets (`Leads`). That is read off what the visit does, path by path.

If all visits of a walk are balanced, the guard says at every step where the visit stands that
goes on, and so do the guards that the waiting visits began with (`Descent.Sound`). One step
keeps this (`Sound.step`). What it says at the steps of a whole walk is `Accounted`: that the
guard comes back as it was from every visit, that it is never beyond the limit, and that a visit
is called for one level further in. So what remains of the limit is less for every visit than for
the one that called for it. That is why there is an end to the walk, on a tree with cycles too,
and by induction on what remains it is `within` that the walk comes to (`run_within`).
-/

namespace Formulary

/-- Where a visit stands with regard to its level. -/
inductive Side where
  | outside
  | inside

namespace Side

/-- On this side, a visit that began with one guard has the other. -/
def Holds (began guard : DepthGuard) : Side → Prop
  | outside => guard = began
  | inside => began.enter? = some guard

end Side

namespace Walk

variable {α β γ : Type}

/-- A walk leads from one side to another, on every path. -/
inductive Leads (last : Side) : Side → Walk β α → Prop where
  | done {a : α} : Leads last last (.done a)
  | enter {refused : Nat → Walk β α} {entered : Walk β α} :
      (∀ limit, Leads last .outside (refused limit)) → Leads last .inside entered →
        Leads last .outside (.enter refused entered)
  | leave {next : Walk β α} : Leads last .outside next → Leads last .inside (.leave next)
  | call {cx : ContextMap} {id : NodeId} {next : β → Walk β α} :
      (∀ b, Leads last .inside (next b)) → Leads last .inside (.call cx id next)

namespace Leads

variable {first second third : Side}

/-- **Walks one after another lead from where the first starts to where the second ends.** -/
theorem bind {w : Walk β α} {f : α → Walk β γ} (hw : w.Leads second first)
    (hf : ∀ a, (f a).Leads third second) : (w >>= f).Leads third first := by
  change (w.bind f).Leads third first
  induction hw with
  | done => exact hf _
  | enter _ _ ihr ihe => exact .enter ihr ihe
  | leave _ ih => exact .leave ih
  | call _ ih => exact .call ih

theorem pure (a : α) : (Pure.pure a : Walk β α).Leads first first := .done

theorem visit (cx : ContextMap) (id : NodeId) :
    (Walk.visit cx id : Walk β β).Leads .inside .inside :=
  .call fun _ => .done

/-- **A level that is entered, and left when all is done inside of it.** -/
theorem level {refused : Nat → γ} {inside : Walk β α} {after : α → γ}
    (h : inside.Leads .inside .inside) :
    (Walk.enter (fun limit => Pure.pure (refused limit)) do
      let a ← inside
      .leave (Pure.pure (after a))).Leads .outside .outside :=
  .enter (fun _ => .pure _) (h.bind fun _ => .leave (.pure _))

/-- Walks for the members of a list lead as each of them does. -/
theorem mapM {δ : Type} {f : δ → Walk β α} (hf : ∀ d, (f d).Leads first first) (ds : List δ) :
    (ds.mapM f).Leads first first := by
  induction ds with
  | nil => exact .pure []
  | cons d ds ih =>
    rw [List.mapM_cons]
    exact (hf d).bind fun _ => ih.bind fun _ => .pure _

end Leads

/-- What a walk comes to if there is room for one more level, or none, and calls are answered. -/
def outcome (limit : Nat) (room : Bool) (answer : ContextMap → NodeId → β) : Walk β α → α
  | done a => a
  | enter refused entered =>
    if room then entered.outcome limit room answer else (refused limit).outcome limit room answer
  | leave next => next.outcome limit room answer
  | call cx id next => (next (answer cx id)).outcome limit room answer

section

variable {limit : Nat} {room : Bool} {answer : ContextMap → NodeId → β}

@[simp] theorem outcome_pure (a : α) : (pure a : Walk β α).outcome limit room answer = a := rfl

@[simp] theorem outcome_visit (cx : ContextMap) (id : NodeId) :
    (visit cx id).outcome limit room answer = answer cx id := rfl

@[simp] theorem outcome_enter (refused : Nat → Walk β α) (entered : Walk β α) :
    (enter refused entered).outcome limit room answer =
      if room then entered.outcome limit room answer
      else (refused limit).outcome limit room answer := rfl

@[simp] theorem outcome_leave (next : Walk β α) :
    (leave next).outcome limit room answer = next.outcome limit room answer := rfl

@[simp] theorem outcome_bind (w : Walk β α) (f : α → Walk β γ) :
    (w >>= f).outcome limit room answer =
      (f (w.outcome limit room answer)).outcome limit room answer := by
  change (w.bind f).outcome limit room answer = _
  induction w with
  | done a => rfl
  | enter refused entered ihr ihe =>
    simp only [Walk.bind, outcome]
    split
    · exact ihe
    · exact ihr limit
  | leave next ih => exact ih
  | call cx id next ih => exact ih _

@[simp] theorem outcome_map (f : α → γ) (w : Walk β α) :
    (f <$> w).outcome limit room answer = f (w.outcome limit room answer) := by
  rw [← bind_pure_comp, outcome_bind, outcome_pure]

@[simp] theorem outcome_mapM {δ : Type} (f : δ → Walk β α) (ds : List δ) :
    (ds.mapM f).outcome limit room answer = ds.map fun d => (f d).outcome limit room answer := by
  induction ds with
  | nil => rfl
  | cons d ds ih => simp only [List.mapM_cons, outcome_bind, outcome_pure, ih, List.map_cons]

end

/-- What the visit of a node comes to with so many levels to go. -/
def within [Inhabited β] (walk : ContextMap → NodeId → Walk β β) (limit : Nat) :
    Nat → ContextMap → NodeId → β
  | 0, cx, id => (walk cx id).outcome limit false fun _ _ => default
  | remaining + 1, cx, id => (walk cx id).outcome limit true (within walk limit remaining)

/-- **What a walk comes to is determined** by what it comes to where there is no room, and by what
one level more makes of it. -/
theorem within_eq [Inhabited β] {walk : ContextMap → NodeId → Walk β β} {limit : Nat}
    {answer : Nat → ContextMap → NodeId → β}
    (hzero : ∀ f cx id, (walk cx id).outcome limit false f = answer 0 cx id)
    (hsucc : ∀ levels cx id,
      (walk cx id).outcome limit true (answer levels) = answer (levels + 1) cx id) :
    within walk limit = answer := by
  funext levels
  induction levels with
  | zero =>
    funext cx id
    exact hzero _ cx id
  | succ levels ih =>
    funext cx id
    rw [within, ih]
    exact hsucc levels cx id

end Walk

namespace Descent

variable {β : Type} {walk : ContextMap → NodeId → Walk β β} {s t : Descent β}
variable {g : DepthGuard} {cx : ContextMap} {id : NodeId}

/-- The steps of a walk. -/
abbrev Run (walk : ContextMap → NodeId → Walk β β) : Descent β → Descent β → Prop :=
  Relation.ReflTransGen fun s t => s.step walk = some t

/-! ## What is so at every step -/

/-- Visits wait for one that began with this guard: each called for the next from inside of its
level, will lead outside whatever the answer is, and the first began with `g`. -/
inductive Nested (g : DepthGuard) : DepthGuard → List (Frame β) → Prop where
  | nil : Nested g g []
  | cons {f : Frame β} {rest : List (Frame β)} {guard : DepthGuard} :
      f.began.enter? = some guard → (∀ b, (f.next b).Leads .outside .inside) →
        Nested g f.began rest → Nested g guard (f :: rest)

/-- The guard says where the visit that goes on stands, and the visits that wait are nested. -/
structure Sound (g : DepthGuard) (s : Descent β) : Prop where
  /-- The visit that goes on is on one side of its level, and leads outside. -/
  stands : ∃ side : Side, side.Holds s.began s.guard ∧ s.now.Leads .outside side
  /-- Others wait for it. -/
  nested : Nested g s.began s.waiting

/-- **A step keeps a walk sound** whose visits are all balanced. -/
theorem Sound.step (hwalk : ∀ cx id, (walk cx id).Leads .outside .outside) (h : s.Sound g)
    (hstep : s.step walk = some t) : t.Sound g := by
  obtain ⟨guard, began, now, waiting⟩ := s
  obtain ⟨⟨side, hside, hnow⟩, hnested⟩ := h
  unfold Descent.step at hstep
  cases hnow with
  | done =>
    cases hnested with
    | nil => cases hstep
    | cons hbegan hnext hrest =>
      cases hstep
      obtain rfl : guard = began := hside
      exact ⟨⟨.inside, hbegan, hnext _⟩, hrest⟩
  | enter hrefused hentered =>
    obtain rfl : guard = began := hside
    cases henter : guard.enter? with
    | none =>
      simp only [henter] at hstep
      cases hstep
      exact ⟨⟨.outside, rfl, hrefused _⟩, hnested⟩
    | some entered =>
      simp only [henter] at hstep
      cases hstep
      exact ⟨⟨.inside, henter, hentered⟩, hnested⟩
  | leave hnext =>
    cases hstep
    exact ⟨⟨.outside, DepthGuard.leave_of_enter? hside, hnext⟩, hnested⟩
  | call hnext =>
    cases hstep
    exact ⟨⟨.outside, rfl, hwalk _ _⟩, .cons hside hnext hnested⟩

/-- A walk is sound when it starts, and so at every step. -/
theorem sound_run (hwalk : ∀ cx id, (walk cx id).Leads .outside .outside)
    (h : Run walk (start walk g [] cx id) s) : s.Sound g := by
  induction h with
  | refl => exact ⟨⟨.outside, rfl, hwalk cx id⟩, .nil⟩
  | tail _ hstep ih => exact ih.step hwalk hstep

/-- Visits that are nested begin within the limit, if the first does. -/
theorem Nested.within_limit {guard : DepthGuard} {waiting : List (Frame β)}
    (h : Nested g guard waiting) (hg : g.depth ≤ g.limit) :
    guard.limit = g.limit ∧ guard.depth ≤ g.limit := by
  induction h with
  | nil => exact ⟨rfl, hg⟩
  | cons hbegan _ _ ih =>
    obtain ⟨hlt, rfl⟩ := DepthGuard.enter?_eq_some_iff.1 hbegan
    obtain ⟨hlimit, -⟩ := ih
    exact ⟨hlimit, hlimit ▸ hlt⟩

/-- On either side of a level that is within the limit, so is the guard. -/
theorem Sound.within_limit (h : s.Sound g) (hg : g.depth ≤ g.limit) :
    s.guard.limit = g.limit ∧ s.guard.depth ≤ g.limit := by
  obtain ⟨⟨side, hside, -⟩, hnested⟩ := h
  obtain ⟨hlimit, hdepth⟩ := hnested.within_limit hg
  cases side with
  | outside => exact (show s.guard = s.began from hside) ▸ ⟨hlimit, hdepth⟩
  | inside =>
    obtain ⟨hlt, hguard⟩ := DepthGuard.enter?_eq_some_iff.1 hside
    rw [hguard]
    exact ⟨hlimit, hlimit ▸ hlt⟩

/-- A visit that is over is outside of its level. -/
theorem Sound.guard_eq {b : β} (h : s.Sound g) (hdone : s.now = .done b) : s.guard = s.began := by
  obtain ⟨⟨side, hside, hnow⟩, -⟩ := h
  rw [hdone] at hnow
  cases hnow
  exact hside

/-- A visit that calls for another is inside of its level. -/
theorem Sound.enter? {next : β → Walk β β} (h : s.Sound g) (hcall : s.now = .call cx id next) :
    s.began.enter? = some s.guard := by
  obtain ⟨⟨side, hside, hnow⟩, -⟩ := h
  rw [hcall] at hnow
  cases hnow
  exact hside

/-! ## The end of a walk -/

/-- There is one way for a walk to go on, so it goes on to an end that it can come to. -/
theorem run_of_run_end {last : Descent β} (h : Run walk s t) (hlast : Run walk s last)
    (hend : last.step walk = none) : Run walk t last := by
  have honly : Relator.RightUnique fun s t : Descent β => s.step walk = some t :=
    fun _ _ _ hb hc => Option.some.inj (hb.symm.trans hc)
  rcases Relation.ReflTransGen.total_of_right_unique honly h hlast with hrest | hrest
  · exact hrest
  · cases hrest.cases_head with
    | inl heq => exact heq ▸ .refl
    | inr hstep =>
      obtain ⟨_, hstep, -⟩ := hstep
      exact nomatch hend.symm.trans hstep

/-- **What is left of a balanced visit comes to its outcome,** outside of its level, if the
visits that it calls for come to their answers and give the guard back. -/
theorem run_outcome {side : Side} {w : Walk β β} (hw : w.Leads .outside side)
    {began guard : DepthGuard} (hside : side.Holds began guard) {waiting : List (Frame β)}
    {room : Bool} (hroom : began.enter?.isSome = room) {answer : ContextMap → NodeId → β}
    (hcalls : ∀ guard, began.enter? = some guard → ∀ waiting cx id,
      Run walk (start walk guard waiting cx id) ⟨guard, guard, .done (answer cx id), waiting⟩) :
    Run walk ⟨guard, began, w, waiting⟩
      ⟨began, began, .done (w.outcome began.limit room answer), waiting⟩ := by
  induction hw generalizing guard with
  | done =>
    obtain rfl : guard = began := hside
    exact .refl
  | enter _ _ ihr ihe =>
    obtain rfl : guard = began := hside
    cases henter : guard.enter? with
    | none =>
      obtain rfl : false = room := by rw [← hroom, henter]; rfl
      exact .head (by simp only [step, henter]) (ihr guard.limit rfl)
    | some further =>
      obtain rfl : true = room := by rw [← hroom, henter]; rfl
      exact .head (by simp only [step, henter]) (ihe henter)
  | leave _ ih => exact .head rfl (ih (DepthGuard.leave_of_enter? hside))
  -- One step begins the visit that is called for, and one hands its answer back.
  | call _ ih => exact .head rfl ((hcalls guard hside _ _ _).trans (.head rfl (ih _ hside)))

/-- **A walk of balanced visits comes to an end,** by induction on what remains of the limit, and
to what is known without the guard. The guard is given back. -/
theorem run_within [Inhabited β] (hwalk : ∀ cx id, (walk cx id).Leads .outside .outside)
    (g : DepthGuard) (waiting : List (Frame β)) (cx : ContextMap) (id : NodeId) :
    Run walk (start walk g waiting cx id)
      ⟨g, g, .done (Walk.within walk g.limit g.remaining cx id), waiting⟩ := by
  cases henter : g.enter? with
  | none =>
    -- No visit is called for, because that would be from inside of the level.
    rw [(DepthGuard.enter?_eq_none_iff g).1 henter, Walk.within]
    exact run_outcome (hwalk cx id) (show Side.outside.Holds g g from rfl) (by rw [henter]; rfl)
      fun guard h => nomatch henter.symm.trans h
  | some further =>
    have hremaining := DepthGuard.remaining_of_enter? henter
    have hlimit : further.limit = g.limit := by
      rw [(DepthGuard.enter?_eq_some_iff.1 henter).2]
    rw [hremaining, Walk.within]
    refine run_outcome (hwalk cx id) (show Side.outside.Holds g g from rfl) (by rw [henter]; rfl)
      fun guard h waiting cx id => ?_
    obtain rfl : further = guard := Option.some.inj (henter.symm.trans h)
    rw [← hlimit]
    exact run_within hwalk further waiting cx id
termination_by g.remaining
decreasing_by omega

/-- **What it is for the depth of a walk to be accounted for,** the walk of a node that begins
with `g`, where `answer` says what visits come to. -/
structure Accounted (walk : ContextMap → NodeId → Walk β β)
    (answer : Nat → ContextMap → NodeId → β) (g : DepthGuard) (cx : ContextMap) (id : NodeId) :
    Prop where
  /-- Wherever it is, the walk goes on to its end, which is its answer and the guard that it began
  with. -/
  ends : ∀ s, Run walk (start walk g [] cx id) s →
    Run walk s ⟨g, g, .done (answer g.remaining cx id), []⟩
  /-- The guard is never beyond the limit. -/
  within_limit : ∀ s, Run walk (start walk g [] cx id) s →
    s.guard.limit = g.limit ∧ s.guard.depth ≤ g.limit
  /-- A visit that is over has the guard that it began with, whatever it comes to. -/
  restored : ∀ s b, Run walk (start walk g [] cx id) s → s.now = .done b → s.guard = s.began
  /-- A visit is called for one level further in than the one that calls for it began, and with
  less of the limit remaining. -/
  further : ∀ s cx' id' next, Run walk (start walk g [] cx id) s → s.now = .call cx' id' next →
    s.guard = { s.began with depth := s.began.depth + 1 } ∧
      s.guard.remaining < s.began.remaining
  /-- It is answered by what remains of the limit, and what was visited before does not matter.
  The visit that called for it goes on with the guard that it had. -/
  resumed : ∀ s cx' id' next, Run walk (start walk g [] cx id) s → s.now = .call cx' id' next →
    Run walk s { s with now := next (answer s.guard.remaining cx' id') }

/-- **The depth of a walk is accounted for if its visits are balanced.** -/
theorem accounted [Inhabited β] (hwalk : ∀ cx id, (walk cx id).Leads .outside .outside)
    (hg : g.depth ≤ g.limit) :
    Accounted walk (Walk.within walk g.limit) g cx id where
  ends s h := run_of_run_end h (run_within hwalk g [] cx id) rfl
  within_limit s h := (sound_run hwalk h).within_limit hg
  restored s b h hdone := (sound_run hwalk h).guard_eq hdone
  further s cx' id' next h hcall := by
    have henter := (sound_run hwalk h).enter? hcall
    exact ⟨(DepthGuard.enter?_eq_some_iff.1 henter).2,
      by rw [DepthGuard.remaining_of_enter? henter]; exact Nat.lt_succ_self _⟩
  resumed s cx' id' next h hcall := by
    obtain ⟨hlimit, -⟩ := (sound_run hwalk h).within_limit hg
    have hrun := run_within hwalk s.guard (⟨s.began, next⟩ :: s.waiting) cx' id'
    obtain ⟨guard, began, now, waiting⟩ := s
    obtain rfl : now = .call cx' id' next := hcall
    rw [← hlimit]
    exact .head rfl (hrun.tail rfl)

end Descent

end Formulary
