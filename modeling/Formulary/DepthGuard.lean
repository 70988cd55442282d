/-!
# Depth guards — how far a walk may nest

A guard counts the levels a walk is inside of and refuses to go below its
limit. What is left of the limit, `remaining`, is the measure on which the
walks over formula trees recurse: entering a level takes one of it away
(`remaining_of_enter?`), and a guard with nothing left lets nobody in
(`enter?_eq_none_iff`).
-/

namespace Formulary

/-- The levels a walk is inside of, and the most it may be inside of. -/
structure DepthGuard where
  /-- The levels entered and not left. -/
  depth : Nat := 0
  /-- The most levels that may be entered. -/
  limit : Nat
  deriving DecidableEq

namespace DepthGuard

/-- The guard of a walk that has entered no level. -/
def start (limit : Nat) : DepthGuard where
  limit := limit

/-- The guard one level further in, unless the limit is reached. -/
def enter? (g : DepthGuard) : Option DepthGuard :=
  if g.limit ≤ g.depth then none else some { g with depth := g.depth + 1 }

/-- The guard one level further out; outside of all levels nothing changes. -/
def leave (g : DepthGuard) : DepthGuard := { g with depth := g.depth - 1 }

/-- How many more levels can be entered. -/
def remaining (g : DepthGuard) : Nat := g.limit - g.depth

/-- What is said of a walk that reached its limit. -/
def exceededMessage (limit : Nat) : String := s!"nesting exceeds the limit of {limit}"

@[simp] theorem remaining_start (limit : Nat) : (start limit).remaining = limit := rfl

/-- **A guard refuses exactly when nothing remains.** -/
theorem enter?_eq_none_iff (g : DepthGuard) : g.enter? = none ↔ g.remaining = 0 := by
  unfold enter? remaining
  split <;> simp <;> omega

/-- A guard that lets in is one level further in then, and not beyond its limit. -/
theorem enter?_eq_some_iff {g h : DepthGuard} :
    g.enter? = some h ↔ g.depth < g.limit ∧ h = { g with depth := g.depth + 1 } := by
  unfold enter?
  split
  · exact iff_of_false nofun fun hlt => absurd hlt.1 (by omega)
  · rw [Option.some.injEq, eq_comm]
    exact (and_iff_right (by omega)).symm

/-- **Entering a level takes one from what remains.** -/
theorem remaining_of_enter? {g h : DepthGuard} (e : g.enter? = some h) :
    g.remaining = h.remaining + 1 := by
  unfold enter? at e
  split at e
  · cases e
  · cases e
    simp only [remaining]
    omega

/-- Leaving the level that was entered gives the guard back. -/
theorem leave_of_enter? {g h : DepthGuard} (e : g.enter? = some h) : h.leave = g := by
  unfold enter? at e
  split at e
  · cases e
  · cases e
    rfl

end DepthGuard

end Formulary
