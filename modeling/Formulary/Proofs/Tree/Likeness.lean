import Formulary.Proofs.Answers
import Formulary.Proofs.Tree.Positions
/-!
# Formula trees with one unfolding

What stands at a position of an unfolding is a node, apart from where its arguments are
listed, and where it was written (`unfolding`). Two trees may have one unfolding and yet be
made in different ways: parts that one of them shares are written twice in the other, the
nodes are numbered differently, or there are nodes that no position leads to. Where the
unfolding is infinite, a node may lie below itself in one tree and not in the other.

Trees with one unfolding, in which nothing dangles, are alike (`Alike`). Ids that are met at
one position of two such trees have nodes of one kind, whose arguments are met at one
position again (`Alike.matches_of_met`). Who walks two such trees side by side needs no more.
-/

namespace Formulary

/-- What a node is, apart from where its arguments are listed. -/
inductive Head where
  | literal (value : Literal)
  | var (name : Name)
  | call (function : Name)
  | operator (op : Operator)

/-- What a kind of node says, apart from where the arguments are listed. -/
def NodeKind.head : NodeKind → Head
  | .literal value => .literal value
  | .var name => .var name
  | .call function _ => .call function
  | .operator op _ => .operator op

namespace FormulaTree

/-- The id that is met at a position below an id. -/
def follow (t : FormulaTree) (id : NodeId) : List Nat → Option NodeId
  | [] => some id
  | k :: path => (t.argsOf id)[k]?.bind fun arg => t.follow arg path

/-- The unfolding from an id: what stands at each position, and where it was written. -/
def unfolding (t : FormulaTree) (id : NodeId) (path : List Nat) : Option (Head × Span) :=
  (t.follow id path).bind fun below =>
    (t.node? below).map fun node => (node.kind.head, node.span)

/-- Nothing dangles below an id: every id that is reached has a node, and the range of every
node that is reached lies inside the array. The unfolding may be infinite. -/
structure Closed (t : FormulaTree) (id : NodeId) : Prop where
  /-- No id dangles. -/
  nodes : ∀ (k : Nat) (below : NodeId), t.Reaches k id below → (t.node? below).isSome = true
  /-- No range lies outside the array. -/
  ranges : ∀ (k : Nat) (below : NodeId) (node : Node) (r : ArgRange), t.Reaches k id below →
    t.node? below = some node → node.kind.range? = some r → (t.args? r).isSome = true

/-- In neither tree anything dangles below the root, and the unfoldings from the roots
coincide. -/
structure Alike (t t' : FormulaTree) : Prop where
  closed : t.Closed t.root
  closed' : t'.Closed t'.root
  unfolding : t.unfolding t.root = t'.unfolding t'.root

/-- The ids, one of each tree, are met at one position. -/
def Met (t t' : FormulaTree) (id id' : NodeId) : Prop :=
  ∃ path, t.follow t.root path = some id ∧ t'.follow t'.root path = some id'

/-- The nodes at two ids, one of each tree, are of one kind, were written at one place, and
have related arguments. -/
inductive Matches (t t' : FormulaTree) (R : NodeId → NodeId → Prop) (id id' : NodeId) : Prop
  | literal {value : Literal} {span : Span} (hn : t.node? id = some ⟨.literal value, span⟩)
      (hn' : t'.node? id' = some ⟨.literal value, span⟩)
  | var {name : Name} {span : Span} (hn : t.node? id = some ⟨.var name, span⟩)
      (hn' : t'.node? id' = some ⟨.var name, span⟩)
  | call {function : Name} {span : Span} {r r' : ArgRange} {args args' : List NodeId}
      (hn : t.node? id = some ⟨.call function r, span⟩)
      (hn' : t'.node? id' = some ⟨.call function r', span⟩) (ha : t.args? r = some args)
      (ha' : t'.args? r' = some args') (hargs : List.Forall₂ R args args')
  | operator {op : Operator} {span : Span} {r r' : ArgRange} {args args' : List NodeId}
      (hn : t.node? id = some ⟨.operator op r, span⟩)
      (hn' : t'.node? id' = some ⟨.operator op r', span⟩) (ha : t.args? r = some args)
      (ha' : t'.args? r' = some args') (hargs : List.Forall₂ R args args')

variable {t t' : FormulaTree} {R : NodeId → NodeId → Prop} {id id' below : NodeId}
variable {path rest : List Nat}

/-! ## Positions -/

/-- A position is followed step by step. -/
theorem follow_append :
    t.follow id (path ++ rest) = (t.follow id path).bind fun below => t.follow below rest := by
  induction path generalizing id with
  | nil => rfl
  | cons k path ih =>
    simp only [List.cons_append, follow, ih, Option.bind_assoc]

theorem follow_singleton {k : Nat} : t.follow id [k] = (t.argsOf id)[k]? :=
  Option.bind_fun_some _

/-- **What is met at a position is reached,** in as many steps as the position is long. -/
theorem reaches_of_follow (h : t.follow id path = some below) :
    t.Reaches path.length id below := by
  induction path generalizing id with
  | nil =>
    cases h
    exact .here
  | cons k path ih =>
    obtain ⟨arg, harg, h⟩ := Option.bind_eq_some_iff.1 h
    exact reaches_succ_iff.2 ⟨arg, List.mem_of_getElem? harg, ih h⟩

/-- What stands at a position is read below the argument that it starts with. -/
theorem unfolding_cons {k : Nat} :
    t.unfolding id (k :: path) = (t.argsOf id)[k]?.bind fun arg => t.unfolding arg path := by
  simp only [unfolding, follow, Option.bind_assoc]

/-! ## Trees in which nothing dangles -/

/-- **Where nothing dangles anywhere in the arrays, nothing dangles below the root.** -/
theorem closed_of_forall (hroot : (t.node? t.root).isSome = true)
    (hnodes : ∀ id ∈ t.args.toList, (t.node? id).isSome = true)
    (hranges : ∀ node ∈ t.nodes.toList, ∀ r ∈ node.kind.range?, (t.args? r).isSome = true) :
    t.Closed t.root where
  nodes k below hk := by
    -- what is reached is where the way starts, or an argument
    have hstart {k : Nat} {id : NodeId} (hk : t.Reaches k id below)
        (hid : (t.node? id).isSome = true) : (t.node? below).isSome = true := by
      induction hk with
      | here => exact hid
      | @down _ _ arg _ _ r args _ _ ha harg hk ih =>
        refine ih hk (hnodes arg ?_)
        unfold args? at ha
        split at ha
        · cases ha
          rw [Array.toList_extract] at harg
          exact List.mem_of_mem_drop (List.mem_of_mem_take harg)
        · cases ha
    exact hstart hk hroot
  ranges k below node r _ hn hr :=
    hranges node (Array.mem_toList_iff.2 (Array.mem_of_getElem? hn)) r hr

/-- Where nothing dangles, there is something at every position that can be followed. -/
theorem Closed.isSome_unfolding (h : t.Closed id) :
    (t.unfolding id path).isSome = (t.follow id path).isSome := by
  cases hp : t.follow id path with
  | none => rw [unfolding, hp]; rfl
  | some below =>
    rw [unfolding, hp, Option.bind_some, Option.isSome_map]
    exact h.nodes _ below (reaches_of_follow hp)

/-- Where nothing dangles, the arguments of a node are those in its range. -/
theorem Closed.exists_argsOf {k : Nat} {node : Node} {r : ArgRange} (h : t.Closed id)
    (hk : t.Reaches k id below) (hn : t.node? below = some node)
    (hr : node.kind.range? = some r) : ∃ args, t.args? r = some args ∧ t.argsOf below = args := by
  obtain ⟨args, ha⟩ := Option.isSome_iff_exists.1 (h.ranges k below node r hk hn hr)
  exact ⟨args, ha, argsOf_of_args? hn hr ha⟩

/-! ## Ids that are met at one position -/

/-- The roots are met at the top. -/
theorem met_root : Met t t' t.root t'.root := ⟨[], rfl, rfl⟩

/-- **What is met at one position are the roots, or in both trees it lies below the root.** -/
theorem Met.root_or_below (h : Met t t' id id') :
    (id = t.root ∧ id' = t'.root) ∨
      (∃ k, t.Reaches (k + 1) t.root id) ∧ ∃ k, t'.Reaches (k + 1) t'.root id' := by
  obtain ⟨path, hp, hp'⟩ := h
  cases path with
  | nil => exact .inl ⟨(Option.some.inj hp).symm, (Option.some.inj hp').symm⟩
  | cons k path => exact .inr ⟨⟨_, reaches_of_follow hp⟩, _, reaches_of_follow hp'⟩

namespace Alike

variable (h : t.Alike t')
include h

/-- A position that can be followed in one tree can be followed in the other. -/
theorem isSome_follow (path : List Nat) :
    (t.follow t.root path).isSome = (t'.follow t'.root path).isSome := by
  rw [← h.closed.isSome_unfolding, ← h.closed'.isSome_unfolding, h.unfolding]

/-- At one position there are nodes in both trees, that say the same. -/
theorem node?_of_met (hmet : Met t t' id id') : ∃ node node', t.node? id = some node ∧
    t'.node? id' = some node' ∧ node.kind.head = node'.kind.head ∧ node.span = node'.span := by
  obtain ⟨path, hp, hp'⟩ := hmet
  obtain ⟨node, hn⟩ := Option.isSome_iff_exists.1 (h.closed.nodes _ id (reaches_of_follow hp))
  obtain ⟨node', hn'⟩ := Option.isSome_iff_exists.1 (h.closed'.nodes _ id' (reaches_of_follow hp'))
  have hpath := congrFun h.unfolding path
  rw [FormulaTree.unfolding, FormulaTree.unfolding, hp, hp', Option.bind_some, Option.bind_some,
    hn, hn', Option.map_some, Option.map_some, Option.some.injEq, Prod.mk.injEq] at hpath
  exact ⟨node, node', hn, hn', hpath⟩

/-- **The arguments at one position are met at one position,** argument by argument. -/
theorem forall₂_argsOf (hmet : Met t t' id id') :
    List.Forall₂ (Met t t') (t.argsOf id) (t'.argsOf id') := by
  obtain ⟨path, hp, hp'⟩ := hmet
  refine forall₂_iff_getElem?.2 fun k => ?_
  have hk : t.follow t.root (path ++ [k]) = (t.argsOf id)[k]? := by
    rw [follow_append, hp, Option.bind_some, follow_singleton]
  have hk' : t'.follow t'.root (path ++ [k]) = (t'.argsOf id')[k]? := by
    rw [follow_append, hp', Option.bind_some, follow_singleton]
  have hsome := h.isSome_follow (path ++ [k])
  rw [← hk, ← hk']
  cases harg : t.follow t.root (path ++ [k]) with
  | none =>
    rw [harg, Option.isSome_none, eq_comm, Option.isSome_eq_false_iff,
      Option.isNone_iff_eq_none] at hsome
    rw [hsome]
    exact .none
  | some arg =>
    rw [harg, Option.isSome_some] at hsome
    obtain ⟨arg', harg'⟩ := Option.isSome_iff_exists.1 hsome.symm
    rw [harg']
    exact .some ⟨path ++ [k], harg, harg'⟩

/-- **What is met at one position of trees that are alike matches,** and its arguments are
met at one position. -/
theorem matches_of_met (hmet : Met t t' id id') : Matches t t' (Met t t') id id' := by
  obtain ⟨⟨kind, span⟩, ⟨kind', span'⟩, hn, hn', hhead, hspan⟩ := h.node?_of_met hmet
  have hargs := h.forall₂_argsOf hmet
  obtain ⟨path, hp, hp'⟩ := hmet
  have hk := reaches_of_follow hp
  have hk' := reaches_of_follow hp'
  obtain rfl : span = span' := hspan
  cases kind <;> cases kind' <;> cases hhead
  case literal.literal => exact .literal hn hn'
  case var.var => exact .var hn hn'
  case call.call r _ r' =>
    obtain ⟨args, ha, rfl⟩ := h.closed.exists_argsOf hk hn rfl
    obtain ⟨args', ha', rfl⟩ := h.closed'.exists_argsOf hk' hn' rfl
    exact .call hn hn' ha ha' hargs
  case operator.operator r _ r' =>
    obtain ⟨args, ha, rfl⟩ := h.closed.exists_argsOf hk hn rfl
    obtain ⟨args', ha', rfl⟩ := h.closed'.exists_argsOf hk' hn' rfl
    exact .operator hn hn' ha ha' hargs

end Alike

/-! ## Unfoldings that coincide -/

/-- Nodes that match say the same. -/
theorem Matches.unfolding_nil (h : Matches t t' R id id') :
    t.unfolding id [] = t'.unfolding id' [] := by
  cases h with
  | literal hn hn' | var hn hn' | call hn hn' _ _ _ | operator hn hn' _ _ _ =>
    simp only [unfolding, follow, Option.bind_some, hn, hn', Option.map_some, NodeKind.head]

/-- Nodes that match have related arguments. -/
theorem Matches.forall₂_argsOf (h : Matches t t' R id id') :
    List.Forall₂ R (t.argsOf id) (t'.argsOf id') := by
  cases h with
  | literal hn hn' | var hn hn' =>
    rw [argsOf_of_node hn, argsOf_of_node hn']
    exact .nil
  | call hn hn' ha ha' hargs | operator hn hn' ha ha' hargs =>
    simpa only [argsOf_of_node hn, argsOf_of_node hn', NodeKind.range?, Option.bind_some, ha, ha',
      Option.getD_some] using hargs

/-- **Unfoldings coincide from ids that are related, if what is related matches.** So two
trees are compared node by node, however large their unfoldings are. -/
theorem unfolding_eq_of_matches (hR : ∀ id id', R id id' → Matches t t' R id id')
    (h : R id id') : t.unfolding id = t'.unfolding id' := by
  funext path
  induction path generalizing id id' with
  | nil => exact (hR id id' h).unfolding_nil
  | cons k path ih =>
    have hk := forall₂_iff_getElem?.1 (hR id id' h).forall₂_argsOf k
    rw [unfolding_cons, unfolding_cons]
    generalize (t.argsOf id)[k]? = arg? at hk
    generalize (t'.argsOf id')[k]? = arg?' at hk
    cases hk with
    | none => rfl
    | some harg => exact ih harg

end FormulaTree

end Formulary
