import Formulary.Proofs.Tree.Unfolding
/-!
# Positions in the unfolding of a formula tree

A node may be met many times in the unfolding of a tree. A position says which arguments
were taken on the way from the root, so that each occurrence has one of its own. Down to a
limit the unfolding has finitely many positions, whatever the tree looks like (`Visited`).

`positions` lists them: exactly those (`mem_positions_iff`), each once, and a position
before what is below it and before what is to the right of it (`pairwise_positions`).
-/

namespace Formulary

namespace FormulaTree

/-- The arguments of the node at an id. There are none if there is no node, if it is none
that has arguments, or if its range lies outside the array. -/
def argsOf (t : FormulaTree) (id : NodeId) : List NodeId :=
  (((t.node? id).bind fun node => node.kind.range?).bind t.args?).getD []

/-- The positions of the unfolding down to a limit, each with the id that is met there: the
root, and the arguments of a node that is not below the limit. A position is the places
of the arguments taken, the root's first. -/
inductive Visited (t : FormulaTree) (limit : Nat) : List Nat → NodeId → Prop
  | root : Visited t limit [] t.root
  | argument {path : List Nat} {id arg : NodeId} {node : Node} {r : ArgRange}
      {args : List NodeId} {k : Nat} (h : Visited t limit path id) (hn : t.node? id = some node)
      (hr : node.kind.range? = some r) (ha : t.args? r = some args)
      (hdepth : path.length + 1 ≤ limit) (hk : args[k]? = some arg) :
      Visited t limit (path ++ [k]) arg

/-- The positions below an id, so many levels down, in the order in which they are read. -/
def positions (t : FormulaTree) : Nat → NodeId → List (List Nat × NodeId)
  | 0, id => [([], id)]
  | levels + 1, id => ([], id) :: (t.argsOf id).zipIdx.flatMap fun p =>
      (t.positions levels p.1).map fun q => (p.2 :: q.1, q.2)

variable {t : FormulaTree} {limit levels : Nat} {id below arg : NodeId} {path : List Nat} {k : Nat}

/-! ## Arguments -/

theorem argsOf_of_none (hn : t.node? id = none) : t.argsOf id = [] := by
  rw [argsOf, hn]
  rfl

theorem argsOf_of_node {node : Node} (hn : t.node? id = some node) :
    t.argsOf id = (node.kind.range?.bind t.args?).getD [] := by
  rw [argsOf, hn]
  rfl

/-- The arguments of a node are those in its range. -/
theorem argsOf_of_args? {node : Node} {r : ArgRange} {args : List NodeId}
    (hn : t.node? id = some node) (hr : node.kind.range? = some r) (ha : t.args? r = some args) :
    t.argsOf id = args := by
  rw [argsOf_of_node hn, hr, Option.bind_some, ha, Option.getD_some]

/-- An argument is taken from the list of a node. -/
theorem getElem?_argsOf_iff : (t.argsOf id)[k]? = some arg ↔ ∃ node r args,
    t.node? id = some node ∧ node.kind.range? = some r ∧ t.args? r = some args ∧
      args[k]? = some arg := by
  constructor
  · intro h
    cases hn : t.node? id with
    | none =>
      rw [argsOf_of_none hn] at h
      exact absurd h (by simp)
    | some node =>
      rw [argsOf_of_node hn] at h
      cases hargs : node.kind.range?.bind t.args? with
      | none =>
        rw [hargs] at h
        exact absurd h (by simp)
      | some args =>
        rw [hargs, Option.getD_some] at h
        obtain ⟨r, hr, ha⟩ := Option.bind_eq_some_iff.1 hargs
        exact ⟨node, r, args, rfl, hr, ha, h⟩
  · rintro ⟨node, r, args, hn, hr, ha, h⟩
    rw [argsOf_of_args? hn hr ha]
    exact h

/-- **A step down leads to an argument.** -/
theorem reaches_succ_iff {k : Nat} :
    t.Reaches (k + 1) id below ↔ ∃ arg ∈ t.argsOf id, t.Reaches k arg below := by
  constructor
  · intro h
    cases h with
    | @down _ _ arg _ node r args hn hr ha harg h =>
      obtain ⟨j, hj⟩ := List.getElem?_of_mem harg
      exact ⟨arg, List.mem_of_getElem? (getElem?_argsOf_iff.2 ⟨node, r, args, hn, hr, ha, hj⟩), h⟩
  · rintro ⟨arg, harg, h⟩
    obtain ⟨j, hj⟩ := List.getElem?_of_mem harg
    obtain ⟨node, r, args, hn, hr, ha, hj⟩ := getElem?_argsOf_iff.1 hj
    exact .down hn hr ha (List.mem_of_getElem? hj) h

/-! ## What is listed -/

/-- Every listing starts at its id. -/
theorem nil_mem_positions : ([], id) ∈ t.positions levels id := by
  cases levels <;> exact List.mem_cons_self

theorem mem_positions_succ_iff : (path, below) ∈ t.positions (levels + 1) id ↔
    path = [] ∧ below = id ∨ ∃ k arg rest, (t.argsOf id)[k]? = some arg ∧ path = k :: rest ∧
      (rest, below) ∈ t.positions levels arg := by
  rw [positions, List.mem_cons, Prod.mk.injEq, List.mem_flatMap]
  refine or_congr_right ?_
  constructor
  · rintro ⟨⟨arg, k⟩, harg, hmem⟩
    obtain ⟨⟨rest, b⟩, hrest, heq⟩ := List.mem_map.1 hmem
    obtain ⟨rfl, rfl⟩ := Prod.mk.injEq .. ▸ heq
    exact ⟨k, arg, rest, List.mem_zipIdx_iff_getElem?.1 harg, rfl, hrest⟩
  · rintro ⟨k, arg, rest, harg, rfl, hrest⟩
    exact ⟨(arg, k), List.mem_zipIdx_iff_getElem?.2 harg,
      List.mem_map.2 ⟨(rest, below), hrest, rfl⟩⟩

/-- Where a position is listed and there is a level left, its arguments are. -/
theorem mem_positions_argument (h : (path, below) ∈ t.positions levels id)
    (hlevels : path.length < levels) (hk : (t.argsOf below)[k]? = some arg) :
    (path ++ [k], arg) ∈ t.positions levels id := by
  induction levels generalizing path id with
  | zero => exact absurd hlevels (Nat.not_lt_zero _)
  | succ levels ih =>
    rw [mem_positions_succ_iff] at h ⊢
    rcases h with ⟨rfl, rfl⟩ | ⟨j, next, rest, hnext, rfl, hrest⟩
    · exact .inr ⟨k, arg, [], hk, rfl, nil_mem_positions⟩
    · have hlt : rest.length < levels := Nat.lt_of_succ_lt_succ hlevels
      exact .inr ⟨j, next, rest ++ [k], hnext, rfl, ih hrest hlt⟩

/-- What is listed below a position that is visited is visited. -/
theorem Visited.of_mem_positions (h : t.Visited limit path id)
    (hlimit : path.length + levels ≤ limit) {rest : List Nat}
    (hrest : (rest, below) ∈ t.positions levels id) : t.Visited limit (path ++ rest) below := by
  induction levels generalizing path id rest with
  | zero =>
    obtain ⟨rfl, rfl⟩ := Prod.mk.injEq .. ▸ List.mem_singleton.1 hrest
    rw [List.append_nil]
    exact h
  | succ levels ih =>
    rcases mem_positions_succ_iff.1 hrest with ⟨rfl, rfl⟩ | ⟨k, arg, rest, hk, rfl, hbelow⟩
    · rw [List.append_nil]
      exact h
    · obtain ⟨node, r, args, hn, hr, ha, harg⟩ := getElem?_argsOf_iff.1 hk
      have hnext : t.Visited limit (path ++ [k]) arg := h.argument hn hr ha (by omega) harg
      have hlength : (path ++ [k]).length + levels ≤ limit := by
        rw [List.length_append, List.length_singleton]
        omega
      have hvisited := ih hnext hlength hbelow
      rwa [List.append_assoc, List.singleton_append] at hvisited

/-- **The positions that are visited are listed,** and no others. -/
theorem mem_positions_iff : (path, id) ∈ t.positions limit t.root ↔ t.Visited limit path id := by
  constructor
  · intro h
    have hroot : t.Visited limit [] t.root := .root
    exact hroot.of_mem_positions (by simp) h
  · intro h
    induction h with
    | root => exact nil_mem_positions
    | argument _ hn hr ha hdepth hk ih =>
      exact mem_positions_argument ih hdepth (getElem?_argsOf_iff.2 ⟨_, _, _, hn, hr, ha, hk⟩)

/-! ## In which order -/

/-- The places of a list go up along it. -/
theorem pairwise_zipIdx {α : Type} (l : List α) :
    l.zipIdx.Pairwise fun p q => p.2 < q.2 := by
  rw [List.pairwise_iff_getElem]
  intro i j hi hj hij
  rw [List.getElem_zipIdx, List.getElem_zipIdx]
  omega

/-- **Positions are listed from the top and from the left,** and each once. -/
theorem pairwise_positions (t : FormulaTree) (levels : Nat) (id : NodeId) :
    (t.positions levels id).Pairwise fun p q => p.1 < q.1 := by
  induction levels generalizing id with
  | zero => exact List.pairwise_singleton _ _
  | succ levels ih =>
    rw [positions, List.pairwise_cons, List.pairwise_flatMap]
    refine ⟨fun q hq => ?_, fun p hp => ?_, (pairwise_zipIdx _).imp fun {a b} hab x hx y hy => ?_⟩
    · obtain ⟨p, -, hmem⟩ := List.mem_flatMap.1 hq
      obtain ⟨q', -, rfl⟩ := List.mem_map.1 hmem
      exact List.nil_lt_cons _ _
    · -- below one argument the rest of the position decides
      rw [List.pairwise_map]
      exact (ih p.1).imp fun hlt => List.cons_lt_cons_iff.2 (.inr ⟨rfl, hlt⟩)
    · obtain ⟨x', -, rfl⟩ := List.mem_map.1 hx
      obtain ⟨y', -, rfl⟩ := List.mem_map.1 hy
      exact List.cons_lt_cons_iff.2 (.inl hab)

/-- **What is listed before a position** is what is above it and what is to the left of it. -/
theorem mem_before_iff {before later : List (List Nat × NodeId)} {path' : List Nat}
    {id' : NodeId} (h : t.positions limit t.root = before ++ (path, id) :: later) :
    (path', id') ∈ before ↔ t.Visited limit path' id' ∧ path' < path := by
  have hsorted := t.pairwise_positions limit t.root
  rw [h, List.pairwise_append, List.pairwise_cons] at hsorted
  obtain ⟨-, ⟨hlater, -⟩, hbefore⟩ := hsorted
  rw [← mem_positions_iff, h, List.mem_append, List.mem_cons]
  constructor
  · exact fun hp => ⟨.inl hp, hbefore _ hp _ List.mem_cons_self⟩
  · rintro ⟨hp | hp | hp, hlt⟩
    · exact hp
    · obtain ⟨rfl, -⟩ := Prod.mk.inj hp
      exact absurd hlt (List.lt_irrefl _)
    · exact absurd (List.lt_trans hlt (hlater _ hp)) (List.lt_irrefl _)

/-! ## Answers read off the positions -/

/-- The places of arguments do not count for what is read off the arguments. -/
theorem flatMap_zipIdx {β : Type} (g : NodeId → List β) (args : List NodeId) :
    (args.zipIdx.flatMap fun p => g p.1) = args.flatMap g := by
  rw [← List.flatMap_map Prod.fst g, List.zipIdx_map_fst]

/-- **What is read off the positions is read off the top one, and then argument by
argument,** if it depends on the number of steps and on the id that is met. -/
theorem filterMap_positions_succ {β : Type} (f : Nat → NodeId → Option β) :
    (t.positions (levels + 1) id).filterMap (fun p => f p.1.length p.2) =
      (f 0 id).toList ++ (t.argsOf id).flatMap fun arg =>
        (t.positions levels arg).filterMap fun p => f (p.1.length + 1) p.2 := by
  rw [positions, List.filterMap_cons, List.filterMap_flatMap]
  simp only [List.filterMap_map, Function.comp_def, List.length_cons, List.length_nil]
  rw [flatMap_zipIdx fun arg => (t.positions levels arg).filterMap fun p => f (p.1.length + 1) p.2]
  cases f 0 id <;> rfl

end FormulaTree

end Formulary
