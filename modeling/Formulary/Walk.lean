import Formulary.Context
import Formulary.DepthGuard
import Formulary.Tree
/-!
# Walks — one guard for a whole recursion

Whoever walks a formula tree makes a visit of a node, which calls for visits of other nodes and
goes on with their answers. All visits share one depth guard, which each enters and leaves by
itself. A visit is written down here as what it does with the guard and which visits it calls for
(`Walk`), and not as a recursion: how deep visits nest, and whether there is an end to them, is
up to what they do.

A descent is a walk under way: the guard, the visit that goes on, and those that wait for it.
It goes on step by step (`Descent.step`).
-/

namespace Formulary

/-- What is left of a visit: it comes to an `α`, and the visits that it calls for to a `β`. -/
inductive Walk (β α : Type) where
  /-- It is over. -/
  | done (a : α)
  /-- It enters a level, and is told the limit if it is refused. -/
  | enter (refused : Nat → Walk β α) (entered : Walk β α)
  /-- It leaves a level. -/
  | leave (next : Walk β α)
  /-- It calls for a visit, and goes on with the answer. -/
  | call (cx : ContextMap) (id : NodeId) (next : β → Walk β α)

namespace Walk

variable {α β γ : Type}

/-- One walk, and another after it. -/
def bind : Walk β α → (α → Walk β γ) → Walk β γ
  | done a, f => f a
  | enter refused entered, f => .enter (fun limit => (refused limit).bind f) (entered.bind f)
  | leave next, f => .leave (next.bind f)
  | call cx id next, f => .call cx id fun b => (next b).bind f

instance : Monad (Walk β) where
  pure := done
  bind := bind

theorem bind_done (w : Walk β α) : w.bind done = w := by
  induction w with
  | done a => rfl
  | enter refused entered ihr ihe => exact congr (congrArg enter (funext ihr)) ihe
  | leave next ih => exact congrArg leave ih
  | call cx id next ih => exact congrArg (call cx id) (funext ih)

theorem bind_assoc {δ : Type} (w : Walk β α) (f : α → Walk β γ) (g : γ → Walk β δ) :
    (w.bind f).bind g = w.bind fun a => (f a).bind g := by
  induction w with
  | done a => rfl
  | enter refused entered ihr ihe => exact congr (congrArg enter (funext ihr)) ihe
  | leave next ih => exact congrArg leave ih
  | call cx id next ih => exact congrArg (call cx id) (funext ih)

instance : LawfulMonad (Walk β) :=
  LawfulMonad.mk' _ bind_done (fun _ _ => rfl) bind_assoc

/-- The visit of a node in a context. -/
def visit (cx : ContextMap) (id : NodeId) : Walk β β := .call cx id .done

end Walk

/-- A visit that waits for another. -/
structure Frame (β : Type) where
  /-- The guard when the visit was called for. -/
  began : DepthGuard
  /-- What it does with the answer. -/
  next : β → Walk β β

/-- A walk under way. -/
structure Descent (β : Type) where
  /-- The guard that all visits share. -/
  guard : DepthGuard
  /-- The guard when the visit that goes on was called for. -/
  began : DepthGuard
  /-- What is left of the visit that goes on. -/
  now : Walk β β
  /-- The visits that wait, the one that called for this one first. -/
  waiting : List (Frame β)

namespace Descent

variable {β : Type} (walk : ContextMap → NodeId → Walk β β)

/-- A visit is called for. -/
def start (guard : DepthGuard) (waiting : List (Frame β)) (cx : ContextMap) (id : NodeId) :
    Descent β where
  guard := guard
  began := guard
  now := walk cx id
  waiting := waiting

/-- One step of a walk, unless it is over. The answer of a visit goes to the one that called
for it. -/
def step (s : Descent β) : Option (Descent β) :=
  match s.now with
  | .done b =>
    match s.waiting with
    | [] => none
    | f :: rest => some { s with began := f.began, now := f.next b, waiting := rest }
  | .enter refused entered =>
    match s.guard.enter? with
    | none => some { s with now := refused s.guard.limit }
    | some guard => some { s with guard, now := entered }
  | .leave next => some { s with guard := s.guard.leave, now := next }
  | .call cx id next => some (start walk s.guard (⟨s.began, next⟩ :: s.waiting) cx id)

end Descent

end Formulary
