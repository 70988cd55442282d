import Formulary.Tree
/-!
# Unfoldings of formula trees

The unfolding of a tree from a node has the node at its top and under every
node the arguments that it refers to, as often as it refers to them. Nothing
in a tree keeps an unfolding from being infinite, from meeting an id that no
node has, or from meeting a range outside the argument array.

`Unfolds` says that none of that happens, and how many levels there are at most.
It speaks of all ways down from the node (`Reaches`), not of a walk. A walk
needs it level by level (`unfolds_succ_iff`). `Uses` says which names an unfolding
has, however deep they are, and is read level by level too (`uses_iff_of_args`).
-/

namespace Formulary

/-- The range of the arguments, of a node that has some to refer to. -/
def NodeKind.range? : NodeKind → Option ArgRange
  | .literal _ => none
  | .var _ => none
  | .call _ args => some args
  | .operator _ args => some args

namespace FormulaTree

/-- So many steps lead down from one id to another, each from a node to one of
its arguments. -/
inductive Reaches (t : FormulaTree) : Nat → NodeId → NodeId → Prop
  | here {id : NodeId} : Reaches t 0 id id
  | down {k : Nat} {id arg below : NodeId} {node : Node} {r : ArgRange} {args : List NodeId}
      (hn : t.node? id = some node) (hr : node.kind.range? = some r) (ha : t.args? r = some args)
      (harg : arg ∈ args) (h : Reaches t k arg below) : Reaches t (k + 1) id below

/-- The unfolding from a node is finite and has at most so many levels, every id
in it has a node, and every range lies inside the array. A node has finitely
many arguments, so that few levels make a finite unfolding. -/
structure Unfolds (t : FormulaTree) (levels : Nat) (id : NodeId) : Prop where
  /-- No id dangles. -/
  nodes : ∀ (k : Nat) (below : NodeId), t.Reaches k id below → (t.node? below).isSome = true
  /-- No range lies outside the array. -/
  ranges : ∀ (k : Nat) (below : NodeId) (node : Node) (r : ArgRange), t.Reaches k id below →
    t.node? below = some node → node.kind.range? = some r → (t.args? r).isSome = true
  /-- What is reached is reached within the levels. -/
  depth : ∀ (k : Nat) (below : NodeId), t.Reaches k id below → k < levels

variable {t : FormulaTree} {levels : Nat} {id : NodeId}

/-- There is no unfolding without a level. -/
theorem not_unfolds_zero : ¬ t.Unfolds 0 id := fun h =>
  Nat.not_lt_zero 0 (h.depth 0 id .here)

/-- The unfolding from an argument has one level less. -/
theorem Unfolds.down {node : Node} {r : ArgRange} {args : List NodeId} {arg : NodeId}
    (h : t.Unfolds (levels + 1) id) (hn : t.node? id = some node)
    (hr : node.kind.range? = some r) (ha : t.args? r = some args) (harg : arg ∈ args) :
    t.Unfolds levels arg where
  nodes k below hk := h.nodes (k + 1) below (.down hn hr ha harg hk)
  ranges k below node' r' hk := h.ranges (k + 1) below node' r' (.down hn hr ha harg hk)
  depth k below hk := Nat.lt_of_succ_lt_succ (h.depth (k + 1) below (.down hn hr ha harg hk))

/-- **An unfolding, level by level**: there is a node, its range lies inside the
array, and the arguments unfold on the levels that are left. -/
theorem unfolds_succ_iff :
    t.Unfolds (levels + 1) id ↔ ∃ node, t.node? id = some node ∧
      ∀ r, node.kind.range? = some r →
        ∃ args, t.args? r = some args ∧ ∀ arg ∈ args, t.Unfolds levels arg := by
  constructor
  · intro h
    obtain ⟨node, hn⟩ := Option.isSome_iff_exists.1 (h.nodes 0 id .here)
    refine ⟨node, hn, fun r hr => ?_⟩
    obtain ⟨args, ha⟩ := Option.isSome_iff_exists.1 (h.ranges 0 id node r .here hn hr)
    exact ⟨args, ha, fun arg harg => h.down hn hr ha harg⟩
  · rintro ⟨node, hn, h⟩
    -- what is reached is the node itself, or reached from an argument in a step less
    have below_args {k : Nat} {b : NodeId} (hk : t.Reaches k id b) :
        k = 0 ∧ b = id ∨ ∃ j arg, k = j + 1 ∧ t.Reaches j arg b ∧ t.Unfolds levels arg := by
      cases hk with
      | here => exact .inl ⟨rfl, rfl⟩
      | @down j _ arg _ node' r args hn' hr ha harg hj =>
        rw [hn] at hn'
        cases hn'
        obtain ⟨args', ha', hargs⟩ := h r hr
        rw [ha] at ha'
        cases ha'
        exact .inr ⟨j, arg, rfl, hj, hargs arg harg⟩
    refine ⟨fun k b hk => ?_, fun k b node' r hk hn' hr => ?_, fun k b hk => ?_⟩
    · rcases below_args hk with ⟨-, rfl⟩ | ⟨j, arg, -, hj, harg⟩
      · rw [hn]
        rfl
      · exact harg.nodes j b hj
    · rcases below_args hk with ⟨-, rfl⟩ | ⟨j, arg, -, hj, harg⟩
      · rw [hn] at hn'
        cases hn'
        obtain ⟨args, ha, -⟩ := h r hr
        rw [ha]
        rfl
      · exact harg.ranges j b node' r hj hn' hr
    · rcases below_args hk with ⟨rfl, -⟩ | ⟨j, arg, rfl, hj, harg⟩
      · exact Nat.succ_pos levels
      · exact Nat.succ_lt_succ (harg.depth j b hj)

/-- The unfolding from a node that is known. -/
theorem unfolds_succ_iff_of_node {node : Node} (hn : t.node? id = some node) :
    t.Unfolds (levels + 1) id ↔ ∀ r, node.kind.range? = some r →
      ∃ args, t.args? r = some args ∧ ∀ arg ∈ args, t.Unfolds levels arg := by
  rw [unfolds_succ_iff, hn]
  simp

/-- The unfolding from what is reached has as many levels less as there are steps to it. -/
theorem Unfolds.of_reaches {k : Nat} {below : NodeId} (h : t.Unfolds levels id)
    (hk : t.Reaches k id below) : t.Unfolds (levels - k) below := by
  induction hk generalizing levels with
  | here => exact h
  | @down k id arg below node r args hn hr ha harg _ ih =>
    cases levels with
    | zero => exact absurd h not_unfolds_zero
    | succ levels =>
      rw [Nat.add_sub_add_right]
      exact ih (h.down hn hr ha harg)

/-- Two ways down, one after the other. -/
theorem Reaches.trans {j k : Nat} {between below : NodeId} (h : t.Reaches j id between)
    (hk : t.Reaches k between below) : t.Reaches (j + k) id below := by
  induction h with
  | here => rwa [Nat.zero_add]
  | down hn hr ha harg _ ih =>
    rw [Nat.add_right_comm]
    exact .down hn hr ha harg (ih hk)

/-- What reaches itself does so in as many rounds as one likes. -/
theorem Reaches.rounds {k : Nat} (h : t.Reaches k id id) (n : Nat) : t.Reaches (n * k) id id := by
  induction n with
  | zero =>
    rw [Nat.zero_mul]
    exact .here
  | succ n ih =>
    rw [Nat.succ_mul]
    exact ih.trans h

/-! ## The names in an unfolding -/

/-- A variable of the given name stands at some id that is reached. -/
def Uses (t : FormulaTree) (id : NodeId) (name : Name) : Prop :=
  ∃ k below span, t.Reaches k id below ∧ t.node? below = some ⟨.var name, span⟩

variable {node : Node} {name : Name}

/-- From a node without arguments nothing else is reached. -/
theorem Reaches.eq_of_leaf {k : Nat} {below : NodeId} (h : t.Reaches k id below)
    (hn : t.node? id = some node) (hr : node.kind.range? = none) : below = id := by
  cases h with
  | here => rfl
  | down hn' hr' _ _ _ =>
    rw [hn, Option.some.injEq] at hn'
    rw [← hn', hr] at hr'
    exact absurd hr' (by simp)

/-- A variable has its own name and no other. -/
theorem uses_iff_of_var {n : Name} {span : Span} (hn : t.node? id = some ⟨.var n, span⟩) :
    t.Uses id name ↔ n = name := by
  constructor
  · rintro ⟨k, below, span', hk, hbelow⟩
    rw [hk.eq_of_leaf hn rfl, hn] at hbelow
    simpa using congrArg (Option.map Node.kind) hbelow
  · rintro rfl
    exact ⟨0, id, span, .here, hn⟩

/-- A literal has no name. -/
theorem not_uses_of_literal {value : Literal} {span : Span}
    (hn : t.node? id = some ⟨.literal value, span⟩) : ¬ t.Uses id name := by
  rintro ⟨k, below, span', hk, hbelow⟩
  rw [hk.eq_of_leaf hn rfl, hn] at hbelow
  simpa using congrArg (Option.map Node.kind) hbelow

/-- **A call has the names of its arguments,** whatever it is a call of. -/
theorem uses_iff_of_args {r : ArgRange} {args : List NodeId} (hn : t.node? id = some node)
    (hr : node.kind.range? = some r) (ha : t.args? r = some args) :
    t.Uses id name ↔ ∃ arg ∈ args, t.Uses arg name := by
  constructor
  · rintro ⟨k, below, span, hk, hbelow⟩
    cases hk with
    | here =>
      rw [hn, Option.some.injEq] at hbelow
      rw [hbelow] at hr
      exact absurd hr (by simp [NodeKind.range?])
    | down hn' hr' ha' harg hk =>
      rw [hn, Option.some.injEq] at hn'
      rw [← hn', hr, Option.some.injEq] at hr'
      rw [← hr', ha, Option.some.injEq] at ha'
      rw [← ha'] at harg
      exact ⟨_, harg, _, _, _, hk, hbelow⟩
  · rintro ⟨arg, harg, k, below, span, hk, hbelow⟩
    exact ⟨k + 1, below, span, .down hn hr ha harg hk, hbelow⟩

end FormulaTree

end Formulary
