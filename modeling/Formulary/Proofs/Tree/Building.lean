import Formulary.Proofs.Name.Growth
import Formulary.Proofs.Tree.Unfolding
import Formulary.Tree.Builder
/-!
# Trees that are built from the bottom

A builder numbers the nodes that it is given, and takes argument ids as they come. A host
that passes on only ids which the builder has handed out puts every node above its
arguments, and their numbers are smaller (`FormulaTree.Descends`). What a call adds is the
same for all of them (`TreeBuilder.step_of_adds`), so one call keeps that
(`TreeBuilder.Sound.step`), and so do many, one after another (`TreeBuilder.Built.sound`).

In such a tree the number of a node bounds the steps that lead down from it
(`FormulaTree.Descends.index_add_le`). That takes no count of what is below a node: parts
may be shared, and then the tree has far fewer nodes than its unfolding has positions.
-/

namespace Formulary

namespace FormulaTree

/-- The arguments of every node can be read, and have smaller numbers than the node. -/
def Descends (t : FormulaTree) : Prop :=
  ∀ (id : NodeId) (node : Node) (r : ArgRange), t.node? id = some node →
    node.kind.range? = some r → ∃ args, t.args? r = some args ∧ ∀ arg ∈ args, arg.index < id.index

variable {t : FormulaTree} {id below : NodeId} {k : Nat}

/-- **Each step down leads to a smaller number.** -/
theorem Descends.index_add_le (h : t.Descends) (hk : t.Reaches k id below) :
    below.index + k ≤ id.index := by
  induction hk with
  | here => exact Nat.le_refl _
  | @down k id arg below node r args hn hr ha harg _ ih =>
    obtain ⟨args', ha', hlt⟩ := h id node r hn hr
    rw [ha, Option.some.injEq] at ha'
    have harg : arg.index < id.index := hlt arg (ha' ▸ harg)
    omega

/-- No node lies below itself. -/
theorem Descends.eq_zero_of_reaches_self (h : t.Descends) (hk : t.Reaches k id id) : k = 0 := by
  have hle := h.index_add_le hk
  omega

/-- Below a node every id has a node. -/
theorem Descends.isSome_node? (h : t.Descends) (hid : (t.node? id).isSome = true)
    (hk : t.Reaches k id below) : (t.node? below).isSome = true := by
  have hle := h.index_add_le hk
  rw [node?, isSome_getElem?] at hid ⊢
  exact Nat.lt_of_le_of_lt (Nat.le_of_add_right_le hle) hid

end FormulaTree

namespace TreeBuilder

/-! ## Calls of a builder -/

/-- A call of a builder. -/
inductive Step where
  | number (x : Number)
  | text (s : String)
  | truth (value : Bool)
  | var (s : String)
  | call (function : String) (ids : Array NodeId)
  | operator (op : Operator) (ids : Array NodeId)
  | setSpan (id : NodeId) (span : Span)

/-- The argument ids that a call passes on. -/
def Step.ids : Step → Array NodeId
  | call _ ids | operator _ ids => ids
  | number _ | text _ | truth _ | var _ | setSpan .. => #[]

/-- The builder after a call, and the id that the call hands out if it adds a node. -/
def step (b : TreeBuilder) : Step → Option NodeId × TreeBuilder
  | .number x => (b.number x).map some id
  | .text s => (b.text s).map some id
  | .truth value => (b.truth value).map some id
  | .var s => (b.var s).map some id
  | .call function ids => (b.call function ids).map some id
  | .operator op ids => (b.operator op ids).map some id
  | .setSpan id span => (none, b.setSpan id span)

/-- There are numbers left for a node, for the start of an argument list, and for a name. -/
structure HasRoom (b : TreeBuilder) : Prop where
  node : b.nodes.size < NodeId.invalid.index
  start : b.args.size ≤ ArgRange.maxStart
  name : b.names.size < Interner.capacity

/-- What a builder comes to, and the ids that it has handed out, latest first. A call passes on
ids that were handed out, no more than a range can have. Meanwhile others may use the names. -/
inductive Built : TreeBuilder → List NodeId → Prop
  | start (names : Interner) : Built { names } []
  | step {b b' : TreeBuilder} {handed : List NodeId} {s : Step} {id? : Option NodeId}
      (h : Built b handed) (hroom : b.HasRoom) (hids : ∀ id ∈ s.ids, id ∈ handed)
      (hlength : s.ids.size ≤ ArgRange.maxLength) (hs : b.step s = (id?, b')) :
      Built b' (id?.toList ++ handed)
  | share {b : TreeBuilder} {handed : List NodeId} (h : Built b handed) (names : Interner) :
      Built { b with names } handed

/-- Every id that was handed out has a node, and every node is above its arguments, whichever
is the root. -/
structure Sound (b : TreeBuilder) (handed : List NodeId) : Prop where
  handed : ∀ id ∈ handed, id.index < b.nodes.size
  descends : ∀ root, (b.finish root).Descends

/-! ## What a call adds -/

/-- Whether a call adds a node. -/
def Step.adds : Step → Bool
  | setSpan .. => false
  | number _ | text _ | truth _ | var _ | call .. | operator .. => true

/-- The argument ids to be stored: all of them, if a range can have so many. -/
def Step.storedIds (s : Step) : Array NodeId :=
  if s.ids.size ≤ ArgRange.maxLength then s.ids else #[]

/-- The range of the arguments, behind so many others. -/
def Step.range (s : Step) (start : Nat) : ArgRange :=
  if s.ids.size ≤ ArgRange.maxLength then ⟨start, s.ids.size⟩ else .unreachable

/-- The kind of the node that a call makes of its arguments, by the names of its strings. -/
def Step.kind? (names : Interner) (r : ArgRange) : Step → Option NodeKind
  | .number x => some (.literal (.number x))
  | .text s => (names.get? s).map fun name => .literal (.text name)
  | .truth value => some (.literal (.truth value))
  | .var s => (names.get? s).map .var
  | .call function _ => (names.get? function).map fun name => .call name r
  | .operator op _ => some (.operator op r)
  | .setSpan .. => none

variable {b b' : TreeBuilder} {handed : List NodeId} {ids : Array NodeId} {s : Step}
variable {id? : Option NodeId}

/-- Only a span adds no node. -/
theorem Step.exists_of_not_adds (h : ¬ s.adds = true) : ∃ id span, s = .setSpan id span := by
  cases s with
  | number _ | text _ | truth _ | var _ | call _ _ | operator _ _ => exact absurd rfl h
  | setSpan id span => exact ⟨id, span, rfl⟩

/-- A node refers to the range that the call got for its arguments. -/
theorem Step.range_of_kind? {names : Interner} {r r' : ArgRange} {kind : NodeKind}
    (hk : s.kind? names r = some kind) (hr : kind.range? = some r') : r' = r := by
  cases s with
  | number _ | truth _ | operator _ _ | setSpan _ _ => cases hk <;> cases hr <;> rfl
  | text _ | var _ | call _ _ =>
    simp only [Step.kind?, Option.map_eq_some_iff] at hk
    obtain ⟨name, hname, rfl⟩ := hk
    cases hr <;> rfl

/-- A name is found, as long as there is room for one. -/
theorem withName_eq {s : String} {next : TreeBuilder → Name → NodeId × TreeBuilder}
    (hroom : b.HasRoom) : ∃ names name, b.names.GrowsTo names ∧ names.get? s = some name ∧
      b.withName s next = next { b with names } name := by
  have hfull : ¬(b.names.get? s = none ∧ Interner.capacity ≤ b.names.size) := fun h =>
    absurd hroom.name (Nat.not_lt.2 h.2)
  refine ⟨(b.names.intern s).2, (b.names.intern s).1, b.names.growsTo_intern s,
    b.names.get?_intern s, ?_⟩
  simp only [withName, Interner.tryIntern, if_neg hfull]

theorem pushArgs_eq (hstart : b.args.size ≤ ArgRange.maxStart) (s : Step) : b.pushArgs s.ids =
    (s.range b.args.size, { b with args := b.args ++ s.storedIds }) := by
  rw [pushArgs, Step.range, Step.storedIds]
  by_cases hlength : s.ids.size ≤ ArgRange.maxLength
  · rw [if_pos ⟨hstart, hlength⟩, if_pos hlength, if_pos hlength]
  · rw [if_neg (mt And.right hlength), if_neg hlength, if_neg hlength, Array.append_empty]

/-- A node above arguments goes behind the nodes, and the arguments behind the arguments. -/
theorem pushCall_eq (hnode : b.nodes.size < NodeId.invalid.index)
    (hstart : b.args.size ≤ ArgRange.maxStart) (s : Step) (kind : ArgRange → NodeKind) :
    (b.pushArgs s.ids).2.push (kind (b.pushArgs s.ids).1) =
      (⟨b.nodes.size⟩,
        { names := b.names
          nodes := b.nodes.push { kind := kind (s.range b.args.size) }
          args := b.args ++ s.storedIds }) := by
  rw [pushArgs_eq hstart]
  exact if_pos hnode

/-- **What a call adds**: a node of its kind, without a span, behind the nodes, and its
arguments behind the arguments. -/
theorem step_of_adds (hroom : b.HasRoom) (hadds : s.adds = true) (hs : b.step s = (id?, b')) :
    ∃ names kind, b.names.GrowsTo names ∧ s.kind? names (s.range b.args.size) = some kind ∧
      id? = some ⟨b.nodes.size⟩ ∧
      b' = { names, nodes := b.nodes.push { kind }, args := b.args ++ s.storedIds } := by
  have hleaf (names : Interner) (kind : NodeKind) : TreeBuilder.push { b with names } kind =
      (⟨b.nodes.size⟩, { names, nodes := b.nodes.push { kind }, args := b.args ++ #[] }) :=
    (if_pos hroom.node).trans (by rw [Array.append_empty])
  cases s with
  | setSpan id span => cases hadds
  | number x =>
    rw [step, number, hleaf] at hs
    cases hs
    exact ⟨b.names, _, .refl _, rfl, rfl, rfl⟩
  | truth value =>
    rw [step, truth, hleaf] at hs
    cases hs
    exact ⟨b.names, _, .refl _, rfl, rfl, rfl⟩
  | text s =>
    obtain ⟨names, name, hgrown, hget, hname⟩ := withName_eq hroom
    rw [step, text, hname, hleaf] at hs
    cases hs
    exact ⟨names, _, hgrown, by rw [Step.kind?, hget, Option.map_some], rfl, rfl⟩
  | var s =>
    obtain ⟨names, name, hgrown, hget, hname⟩ := withName_eq hroom
    rw [step, var, hname, hleaf] at hs
    cases hs
    exact ⟨names, _, hgrown, by rw [Step.kind?, hget, Option.map_some], rfl, rfl⟩
  | call function ids =>
    obtain ⟨names, name, hgrown, hget, hname⟩ := withName_eq hroom
    rw [step, call, hname] at hs
    have hpush := pushCall_eq (b := { b with names }) hroom.node hroom.start
      (.call function ids) (.call name)
    obtain ⟨rfl, rfl⟩ := Prod.mk.inj ((congrArg (Prod.map some fun b => b) hpush).symm.trans hs)
    exact ⟨names, _, hgrown, by rw [Step.kind?, hget, Option.map_some], rfl, rfl⟩
  | operator op ids =>
    have hpush := pushCall_eq hroom.node hroom.start (.operator op ids) (.operator op)
    obtain ⟨rfl, rfl⟩ := Prod.mk.inj ((congrArg (Prod.map some fun b => b) hpush).symm.trans hs)
    exact ⟨b.names, _, .refl _, rfl, rfl, rfl⟩

/-! ## What can be read -/

/-- An argument list that could be read can be read when others have been added. -/
theorem args?_append {r : ArgRange} {args : List NodeId} {root : NodeId}
    (h : (b.finish root).args? r = some args) :
    (finish { b with args := b.args ++ ids } root).args? r = some args := by
  unfold FormulaTree.args? at h ⊢
  split at h
  · rename_i hle
    have hle : r.start + r.length ≤ b.args.size := hle
    have hbound : r.start + r.length ≤ (b.args ++ ids).size := by
      rw [Array.size_append]
      omega
    have hsame : (b.args ++ ids).extract r.start (r.start + r.length) =
        b.args.extract r.start (r.start + r.length) := by
      rw [Array.extract_append, Nat.sub_eq_zero_of_le hle, Array.extract_zero, Array.append_empty]
    exact (if_pos hbound).trans ((congrArg (fun a => some a.toList) hsame).trans h)
  · cases h

/-- An argument list that was just added can be read. -/
theorem args?_pushed (root : NodeId) :
    (finish { b with args := b.args ++ ids } root).args? ⟨b.args.size, ids.size⟩ =
      some ids.toList := by
  have hbound : b.args.size + ids.size ≤ (b.args ++ ids).size :=
    Nat.le_of_eq Array.size_append.symm
  have hread : (b.args ++ ids).extract b.args.size (b.args.size + ids.size) = ids := by simp
  exact (if_pos hbound).trans (congrArg (fun a => some a.toList) hread)

/-! ## What a call keeps -/

theorem sound_start (names : Interner) : Sound { names } [] where
  handed := by simp
  descends root id node _ hn _ := by
    have hnone : (finish { names } root).node? id = none := rfl
    rw [hnone] at hn
    cases hn

/-- Names do not count. -/
theorem Sound.withNames (h : b.Sound handed) (names : Interner) :
    Sound { b with names } handed := ⟨h.handed, h.descends⟩

/-- Where a node was written does not count. -/
theorem Sound.setSpan (h : b.Sound handed) (id : NodeId) (span : Span) :
    (b.setSpan id span).Sound handed where
  handed id' hid' := by
    rw [TreeBuilder.setSpan, Array.size_modify]
    exact h.handed id' hid'
  descends root id' node r hn hr := by
    have hnode : (b.nodes.modify id.index fun n => { n with span })[id'.index]? = some node := hn
    rw [Array.getElem?_modify] at hnode
    split at hnode
    · obtain ⟨old, hold, rfl⟩ := Option.map_eq_some_iff.1 hnode
      exact h.descends root id' old r hold hr
    · exact h.descends root id' node r hnode hr

/-- **A node above arguments that have nodes may be added.** -/
theorem Sound.add {names : Interner} {kind : NodeKind} (h : b.Sound handed)
    (hids : ∀ id ∈ s.ids, id ∈ handed) (hlength : s.ids.size ≤ ArgRange.maxLength)
    (hkind : s.kind? names (s.range b.args.size) = some kind) :
    Sound { names, nodes := b.nodes.push { kind }, args := b.args ++ s.storedIds }
      (⟨b.nodes.size⟩ :: handed) := by
  constructor
  · intro id hid
    rw [Array.size_push]
    rcases List.mem_cons.1 hid with rfl | hid
    · exact Nat.lt_succ_self _
    · exact Nat.lt_succ_of_lt (h.handed id hid)
  · intro root id node r hn hr
    have hnode : (b.nodes.push { kind })[id.index]? = some node := hn
    rw [Array.getElem?_push] at hnode
    split at hnode
    · -- the new node has the number that was the size
      rename_i hid
      cases hnode
      obtain rfl := Step.range_of_kind? hkind hr
      refine ⟨s.ids.toList, ?_, fun arg harg =>
        hid ▸ h.handed arg (hids arg (Array.mem_toList_iff.1 harg))⟩
      simp only [Step.range, Step.storedIds, if_pos hlength]
      exact args?_pushed root
    · obtain ⟨args, ha, hlt⟩ := h.descends root id node r hnode hr
      exact ⟨args, args?_append ha, hlt⟩

/-- **One call keeps every node above its arguments.** -/
theorem Sound.step (h : b.Sound handed) (hroom : b.HasRoom) (hids : ∀ id ∈ s.ids, id ∈ handed)
    (hlength : s.ids.size ≤ ArgRange.maxLength) (hs : b.step s = (id?, b')) :
    b'.Sound (id?.toList ++ handed) := by
  by_cases hadds : s.adds = true
  · obtain ⟨names, kind, -, hkind, rfl, rfl⟩ := step_of_adds hroom hadds hs
    exact h.add hids hlength hkind
  · obtain ⟨id, span, rfl⟩ := Step.exists_of_not_adds hadds
    cases hs
    exact h.setSpan id span

/-- **Every node of a tree that was built from the bottom is above its arguments.** -/
theorem Built.sound (h : Built b handed) : b.Sound handed := by
  induction h with
  | start names => exact sound_start names
  | step _ hroom hids hlength hs ih => exact ih.step hroom hids hlength hs
  | share _ names ih => exact ih.withNames names

end TreeBuilder

end Formulary
