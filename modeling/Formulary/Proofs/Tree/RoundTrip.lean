import Formulary.Proofs.Tree.Building
import Mathlib.Data.List.Induction
/-!
# Trees read back

A builder takes ids as they come: of nodes that are there, of nodes to come, and of none. It
keeps all argument lists in one array, and leaves out a list that no range can describe.
Still a finished tree says of each call what the call said. Where a node and its arguments
stand is known from the calls before it (`added`, `stored`), and where it was written from
the calls after it (`lastSpan`).

A call leaves what it finds, but for spans (`Step.Keeps`), and adds what it makes
(`step_of_adds`). With that the tree stands as its calls say, from one call to the next
(`Stands.step`) and after all of them (`Goes.stands`), as long as there are numbers left.
-/

namespace Formulary

namespace TreeBuilder

/-! ## What a call says -/

/-- The argument list, if a range can have so many. -/
def Step.argList? (s : Step) : Option (List NodeId) :=
  if s.ids.size ≤ ArgRange.maxLength then some s.ids.toList else none

/-- The span of a node after a call, by its span before. -/
def Step.spanOf (id : NodeId) (span : Span) : Step → Span
  | .setSpan id' span' => if id' = id then span' else span
  | _ => span

/-- The calls of a builder and what they handed out, oldest first. -/
abbrev Log := List (Step × Option NodeId)

/-- How many nodes were to be added. -/
def added (log : Log) : Nat := log.countP fun entry => entry.1.adds

/-- How many argument ids were to be stored. -/
def stored (log : Log) : Nat := (log.flatMap fun entry => entry.1.storedIds.toList).length

/-- The ids that were handed out, oldest first. -/
def handed (log : Log) : List NodeId := log.filterMap Prod.snd

/-- The last span that was given to a node, by the calls after it was added. -/
def lastSpan (id : NodeId) (log : Log) : Span :=
  log.foldl (fun span entry => entry.1.spanOf id span) Span.dummy

/-- There are numbers for all nodes, and for the places of all argument ids. -/
structure Fits (log : Log) : Prop where
  nodes : added log ≤ NodeId.invalid.index
  args : stored log ≤ ArgRange.maxStart

/-- What a builder comes to with calls of any kind, as long as there is room for a name.
Others may use the names in between. -/
inductive Goes (b₀ : TreeBuilder) : Log → TreeBuilder → Prop
  | start : Goes b₀ [] b₀
  | step {b b' : TreeBuilder} {log : Log} {s : Step} {id? : Option NodeId} (h : Goes b₀ log b)
      (hname : b.names.size < Interner.capacity) (hs : b.step s = (id?, b')) :
      Goes b₀ (log ++ [(s, id?)]) b'
  | share {b : TreeBuilder} {log : Log} {names : Interner} (h : Goes b₀ log b)
      (hn : b.names.GrowsTo names) : Goes b₀ log { b with names }

variable {b b' b₀ : TreeBuilder} {log before after more : Log} {s s' : Step} {id : NodeId}
variable {id? : Option NodeId} {names names' : Interner} {r : ArgRange} {kind : NodeKind}
variable {root : NodeId} {ids : Array NodeId}

/-! ## What is said by many calls -/

theorem added_append (log more : Log) : added (log ++ more) = added log + added more :=
  List.countP_append

theorem stored_append (log more : Log) : stored (log ++ more) = stored log + stored more := by
  rw [stored, List.flatMap_append, List.length_append, stored, stored]

theorem handed_append (log more : Log) : handed (log ++ more) = handed log ++ handed more :=
  List.filterMap_append

theorem lastSpan_concat :
    lastSpan id (log ++ [(s, id?)]) = s.spanOf id (lastSpan id log) := by
  rw [lastSpan, List.foldl_append, List.foldl_cons, List.foldl_nil, lastSpan]

/-- What fits in the end has fitted before. -/
theorem Fits.of_append (h : Fits (log ++ more)) : Fits log where
  nodes := Nat.le_trans (added_append log more ▸ Nat.le_add_right _ _) h.nodes
  args := Nat.le_trans (stored_append log more ▸ Nat.le_add_right _ _) h.args

/-- An entry of a longer log is the new one, or an entry from before. -/
theorem concat_split {entry last : Step × Option NodeId}
    (h : log ++ [last] = before ++ entry :: after) :
    before = log ∧ entry = last ∧ after = [] ∨
      ∃ later, after = later ++ [last] ∧ log = before ++ entry :: later := by
  rcases List.eq_nil_or_concat after with rfl | ⟨later, last', rfl⟩
  · obtain ⟨rfl, hlast⟩ := List.append_inj' h rfl
    exact .inl ⟨rfl, (List.singleton_inj.1 hlast).symm, rfl⟩
  · rw [List.concat_eq_append, ← List.cons_append, ← List.append_assoc] at h
    obtain ⟨rfl, hlast⟩ := List.append_inj' h rfl
    obtain rfl := List.singleton_inj.1 hlast
    exact .inr ⟨later, List.concat_eq_append, rfl⟩

theorem added_concat_of_adds (h : s.adds = true) : added (log ++ [(s, id?)]) = added log + 1 := by
  simp [added, h]

theorem added_concat_of_not_adds (h : ¬ s.adds = true) : added (log ++ [(s, id?)]) = added log := by
  simp [added, h]

/-- Every node that was to be added was to be so by one of the calls. -/
theorem exists_split {i : Nat} (h : i < added log) : ∃ before s id? after,
    log = before ++ (s, id?) :: after ∧ s.adds = true ∧ added before = i := by
  induction log using List.reverseRecOn with
  | nil => exact absurd h (Nat.not_lt_zero i)
  | append_singleton log last ih =>
    obtain ⟨s, id?⟩ := last
    by_cases hbefore : i < added log
    · obtain ⟨before, s', id?', after, rfl, hadds, hi⟩ := ih hbefore
      exact ⟨before, s', id?', after ++ [(s, id?)], by simp, hadds, hi⟩
    · by_cases hadds : s.adds = true
      · rw [added_concat_of_adds hadds] at h
        exact ⟨log, s, id?, [], rfl, hadds, by omega⟩
      · rw [added_concat_of_not_adds hadds] at h
        exact absurd h hbefore

theorem Goes.trans (h : Goes b₀ log b) (h' : Goes b more b') : Goes b₀ (log ++ more) b' := by
  induction h' with
  | start => exact (List.append_nil log).symm ▸ h
  | step _ hname hs ih => exact (List.append_assoc .. ▸ ih.step hname hs)
  | share _ hn ih => exact ih.share hn

/-! ## One call -/

theorem Step.kind?_of_growsTo (h : names.GrowsTo names') (hk : s.kind? names r = some kind) :
    s.kind? names' r = some kind := by
  cases s with
  | number _ | truth _ | operator _ _ | setSpan _ _ => exact hk
  | text _ | var _ | call _ _ =>
    simp only [Step.kind?, Option.map_eq_some_iff] at hk ⊢
    obtain ⟨name, hname, rfl⟩ := hk
    exact ⟨name, h.get?_eq_some hname, rfl⟩

/-- What a call keeps: the names, the arguments, and the nodes up to their spans. -/
structure Step.Keeps (s : Step) (b b' : TreeBuilder) : Prop where
  names : b.names.GrowsTo b'.names
  args : ∃ ids, b'.args = b.args ++ ids
  nodes : ∀ (i : Nat) (kind : NodeKind) (span : Span), b.nodes[i]? = some (.mk kind span) →
    b'.nodes[i]? = some (.mk kind (s.spanOf ⟨i⟩ span))

/-- **A call leaves what it finds,** but for spans. -/
theorem keeps_step (hroom : s.adds = true → b.HasRoom) (hs : b.step s = (id?, b')) :
    s.Keeps b b' := by
  by_cases hadds : s.adds = true
  · obtain ⟨names, kind, hgrown, -, -, rfl⟩ := step_of_adds (hroom hadds) hadds hs
    refine ⟨hgrown, ⟨_, rfl⟩, fun i kind' span hi => ?_⟩
    have hspan : s.spanOf ⟨i⟩ span = span := by
      cases s with
      | setSpan id span => cases hadds
      | number _ | text _ | truth _ | var _ | call _ _ | operator _ _ => rfl
    have hlt : i < b.nodes.size := (Array.getElem?_eq_some_iff.1 hi).1
    rw [hspan, Array.getElem?_push, if_neg (Nat.ne_of_lt hlt), hi]
  · obtain ⟨id, span, rfl⟩ := Step.exists_of_not_adds hadds
    cases hs
    refine ⟨.refl _, ⟨#[], Array.append_empty.symm⟩, fun i kind' span' hi => ?_⟩
    rw [setSpan, Array.getElem?_modify, hi, Step.spanOf]
    by_cases hid : id.index = i
    · rw [if_pos hid, if_pos (hid ▸ rfl), Option.map_some]
    · rw [if_neg hid, if_neg fun h => hid (congrArg NodeId.index h)]

/-! ## All calls -/

/-- The tree says of each call what the call said: the nodes and the argument ids are as many
as were to be, the ids were handed out in order, and behind each call that adds a node, the
node and its arguments are where the calls before say. -/
structure Stands (b : TreeBuilder) (log : Log) : Prop where
  nodes : b.nodes.size = added log
  args : b.args.size = stored log
  handed : handed log = (List.range (added log)).map NodeId.mk
  node : ∀ before s id? after, log = before ++ (s, id?) :: after → s.adds = true →
    id? = some ⟨added before⟩ ∧ ∃ kind, s.kind? b.names (s.range (stored before)) = some kind ∧
      b.nodes[added before]? = some (.mk kind (lastSpan ⟨added before⟩ after)) ∧
      ∀ root, (b.finish root).args? (s.range (stored before)) = s.argList?

theorem stands_start (names : Interner) : Stands { names } [] where
  nodes := rfl
  args := rfl
  handed := rfl
  node _ _ _ _ h := by simp at h

/-- The range of a list that is too long is never that of an array. -/
theorem args?_unreachable (h : b.args.size ≤ ArgRange.maxStart) :
    (b.finish root).args? .unreachable = none := by
  refine if_neg fun hle => ?_
  have hle : ArgRange.maxStart + ArgRange.maxLength ≤ b.args.size := hle
  have hlength : 0 < ArgRange.maxLength := by decide
  omega

/-- Only the argument array counts. -/
theorem args?_congr {args : Array NodeId} (h : b'.args = args) :
    (b'.finish root).args? r = (finish { b with args } root).args? r := by
  obtain ⟨names, nodes, args'⟩ := b'
  cases h
  rfl

/-- What was read back is read back when there are more arguments. -/
theorem args?_range_of_append (hargs : b'.args = b.args ++ ids)
    (hsize : b'.args.size ≤ ArgRange.maxStart) {start : Nat}
    (h : (b.finish root).args? (s.range start) = s.argList?) (root' : NodeId) :
    (b'.finish root').args? (s.range start) = s.argList? := by
  by_cases hlength : s.ids.size ≤ ArgRange.maxLength
  · simp only [Step.range, Step.argList?, if_pos hlength] at h ⊢
    rw [args?_congr hargs]
    exact args?_append h
  · simp only [Step.range, Step.argList?, if_neg hlength]
    exact args?_unreachable hsize

/-- **What a call adds is read back.** -/
theorem args?_range (hargs : b'.args = b.args ++ s.storedIds)
    (hsize : b'.args.size ≤ ArgRange.maxStart) :
    (b'.finish root).args? (s.range b.args.size) = s.argList? := by
  by_cases hlength : s.ids.size ≤ ArgRange.maxLength
  · simp only [Step.range, Step.argList?, Step.storedIds, if_pos hlength] at hargs ⊢
    rw [args?_congr hargs]
    exact args?_pushed root
  · simp only [Step.range, Step.argList?, if_neg hlength]
    exact args?_unreachable hsize

/-- What the calls so far say is still so when the builder has kept it. -/
theorem Stands.keeps (h : b.Stands log) (hk : s.Keeps b b')
    (hsize : b'.args.size ≤ ArgRange.maxStart)
    (hlog : log = before ++ (s', id?) :: after) (hadds : s'.adds = true) :
    id? = some ⟨added before⟩ ∧ ∃ kind, s'.kind? b'.names (s'.range (stored before)) = some kind ∧
      b'.nodes[added before]? =
        some (.mk kind (s.spanOf ⟨added before⟩ (lastSpan ⟨added before⟩ after))) ∧
      ∀ root, (b'.finish root).args? (s'.range (stored before)) = s'.argList? := by
  obtain ⟨hid, kind, hkind, hnode, hargs⟩ := h.node before s' id? after hlog hadds
  obtain ⟨ids, hids⟩ := hk.args
  exact ⟨hid, kind, Step.kind?_of_growsTo hk.names hkind, hk.nodes _ _ _ hnode,
    args?_range_of_append hids hsize (hargs .invalid)⟩

theorem Stands.withNames (h : b.Stands log) (hn : b.names.GrowsTo names) :
    Stands { b with names } log where
  nodes := h.nodes
  args := h.args
  handed := h.handed
  node before s id? after hlog hadds := by
    obtain ⟨hid, kind, hkind, hnode, hargs⟩ := h.node before s id? after hlog hadds
    exact ⟨hid, kind, Step.kind?_of_growsTo hn hkind, hnode, hargs⟩

/-- There is room for a node that is to be added. -/
theorem Stands.hasRoom (h : b.Stands log) (hname : b.names.size < Interner.capacity)
    (hfits : Fits (log ++ [(s, id?)])) (hadds : s.adds = true) : b.HasRoom where
  node := by
    have hnodes := hfits.nodes
    rw [added_concat_of_adds hadds, ← h.nodes] at hnodes
    exact hnodes
  start := h.args ▸ hfits.of_append.args
  name := hname

/-- **One call**: the tree says what the call said, and still what the others said. -/
theorem Stands.step (h : b.Stands log) (hname : b.names.size < Interner.capacity)
    (hfits : Fits (log ++ [(s, id?)])) (hs : b.step s = (id?, b')) :
    b'.Stands (log ++ [(s, id?)]) := by
  have hkeeps := keeps_step (h.hasRoom hname hfits) hs
  by_cases hadds : s.adds = true
  · obtain ⟨names, kind, hgrown, hkind, rfl, rfl⟩ :=
      step_of_adds (h.hasRoom hname hfits hadds) hadds hs
    have hargs : (b.args ++ s.storedIds).size = stored (log ++ [(s, some ⟨b.nodes.size⟩)]) := by
      rw [Array.size_append, stored_append, h.args]
      simp [stored]
    refine ⟨?_, hargs, ?_, fun before s' id? after hlog hadds' => ?_⟩
    · rw [Array.size_push, h.nodes, added_concat_of_adds hadds]
    · rw [handed_append, h.handed, added_concat_of_adds hadds, List.range_succ, List.map_append,
        h.nodes]
      rfl
    · rcases concat_split hlog with ⟨rfl, hlast, rfl⟩ | ⟨later, rfl, hbefore⟩
      · cases hlast
        refine ⟨by rw [h.nodes], kind, ?_, ?_, fun root => ?_⟩
        · rw [← h.args]
          exact hkind
        · rw [← h.nodes, Array.getElem?_push, if_pos rfl]
          rfl
        · rw [← h.args]
          exact args?_range rfl (hargs ▸ hfits.args)
      · rw [lastSpan_concat]
        exact h.keeps hkeeps (hargs ▸ hfits.args) hbefore hadds'
  · obtain ⟨id, span, rfl⟩ := Step.exists_of_not_adds hadds
    cases hs
    have hargs : (b.setSpan id span).args.size = stored (log ++ [(.setSpan id span, none)]) := by
      rw [stored_append, ← h.args]
      rfl
    refine ⟨?_, hargs, ?_, fun before s' id? after hlog hadds' => ?_⟩
    · rw [setSpan, Array.size_modify, h.nodes, added_concat_of_not_adds hadds]
    · rw [handed_append, h.handed, added_concat_of_not_adds hadds]
      exact List.append_nil _
    · rcases concat_split hlog with ⟨-, hlast, -⟩ | ⟨later, rfl, hbefore⟩
      · cases hlast
        cases hadds'
      · rw [lastSpan_concat]
        exact h.keeps hkeeps (hargs ▸ hfits.args) hbefore hadds'

/-- **The tree says of each call what the call said,** after any calls that fit. -/
theorem Goes.stands (h : Goes { names } log b) (hfits : Fits log) : b.Stands log := by
  induction h with
  | start => exact stands_start names
  | step _ hname hs ih => exact (ih hfits.of_append).step hname hfits hs
  | share _ hn ih => exact (ih hfits).withNames hn

/-- The names only grow. -/
theorem Goes.growsTo (h : Goes { names } log b) (hmore : Goes b more b')
    (hfits : Fits (log ++ more)) : b.names.GrowsTo b'.names := by
  induction hmore with
  | start => exact .refl _
  | step hmore hname hs ih =>
    rw [← List.append_assoc] at hfits
    have hstands := (h.trans hmore).stands hfits.of_append
    exact (ih hfits.of_append).trans (keeps_step (hstands.hasRoom hname hfits) hs).names
  | share _ hn ih => exact (ih hfits).trans hn

/-- **Trees can be read back,** after any calls that fit, and whatever the root. The ids are
handed out in order from zero. There is a node for exactly the ids that were handed out, and
none for the invalid id. Where a call added a node, the tree has a node of the kind of the
call, with the last span that was given to it since then, and reads its range as the argument
list of the call, or not at all if that was too long for a range. More calls change no kind of
a node, and no arguments. -/
theorem Goes.round_trip (h : Goes { names } log b) (hfits : Fits log) (root : NodeId) :
    handed log = (List.range (added log)).map NodeId.mk ∧
    (∀ id, ((b.finish root).node? id).isSome = true ↔ id ∈ handed log) ∧
    (b.finish root).node? .invalid = none ∧
    (∀ before s id? after, log = before ++ (s, id?) :: after → s.adds = true → ∃ id kind r,
      id? = some id ∧ id.index = added before ∧ s.kind? b.names r = some kind ∧
        (b.finish root).node? id = some { kind, span := lastSpan id after } ∧
        (b.finish root).args? r = s.argList?) ∧
    ∀ more b' id node root', Goes b more b' → Fits (log ++ more) →
      (b.finish root).node? id = some node → ∃ span,
        (b'.finish root').node? id = some { node with span } ∧
        ∀ r, node.kind.range? = some r →
          (b'.finish root').args? r = (b.finish root).args? r := by
  have hstands := h.stands hfits
  have hsome (id : NodeId) :
      ((b.finish root).node? id).isSome = true ↔ id.index < added log := by
    rw [FormulaTree.node?, isSome_getElem?, ← hstands.nodes]
    rfl
  refine ⟨hstands.handed, fun id => ?_, ?_, fun before s id? after hlog hadds => ?_,
    fun more b' id node root' hmore hfits' hnode => ?_⟩
  · rw [hsome, hstands.handed]
    simp only [List.mem_map, List.mem_range]
    constructor
    · exact fun hid => ⟨id.index, hid, rfl⟩
    · rintro ⟨i, hi, rfl⟩
      exact hi
  · rw [← Option.not_isSome_iff_eq_none, hsome]
    exact Nat.not_lt.2 hfits.nodes
  · obtain ⟨rfl, kind, hkind, hnode, hargs⟩ := hstands.node before s id? after hlog hadds
    exact ⟨_, kind, _, rfl, rfl, hkind, hnode, hargs root⟩
  · have hstands' := (h.trans hmore).stands hfits'
    obtain ⟨before, s, id?, after, rfl, hadds, hid⟩ := exists_split ((hsome id).1 (hnode ▸ rfl))
    obtain ⟨-, kind, hkind, hthen, hargs⟩ := hstands.node before s id? after rfl hadds
    obtain ⟨-, kind', hkind', hnow, hargs'⟩ :=
      hstands'.node before s id? (after ++ more) (by simp) hadds
    -- the kind is by the names, and they only grow
    obtain rfl : kind = kind' := Option.some.inj
      ((Step.kind?_of_growsTo (h.growsTo hmore hfits') hkind).symm.trans hkind')
    rw [hid] at hthen hnow
    obtain rfl : node = _ := Option.some.inj (hnode.symm.trans hthen)
    refine ⟨_, hnow, fun r hr => ?_⟩
    rw [Step.range_of_kind? hkind hr, hargs, hargs']

end TreeBuilder

namespace Sample

/-- A sum of a node to come and of none; a span for the node to come; that node; and two spans
for it. -/
def foretold : TreeBuilder.Log :=
  [(.operator .add #[⟨1⟩, .invalid], some ⟨0⟩), (.setSpan ⟨1⟩ ⟨5, 6⟩, none),
    (.var "x", some ⟨1⟩), (.setSpan ⟨1⟩ ⟨2, 3⟩, none), (.setSpan ⟨1⟩ ⟨4, 5⟩, none)]

/-- The builder after these calls. -/
def foretelling : TreeBuilder where
  names := (Interner.fresh.intern "x").2
  nodes := #[⟨.operator .add ⟨0, 2⟩, .dummy⟩, ⟨.var ⟨1⟩, ⟨4, 5⟩⟩]
  args := #[⟨1⟩, .invalid]

theorem goes_foretold : TreeBuilder.Goes { names := .fresh } foretold foretelling := by
  have hstart : TreeBuilder.Goes { names := .fresh } [] { names := .fresh } := .start
  have hsum := hstart.step (s := .operator .add #[⟨1⟩, .invalid]) (by decide) rfl
  have hnode := (hsum.step (s := .setSpan ⟨1⟩ ⟨5, 6⟩) (by decide) rfl).step (s := .var "x")
    (by decide) rfl
  exact (hnode.step (s := .setSpan ⟨1⟩ ⟨2, 3⟩) (by decide) rfl).step (s := .setSpan ⟨1⟩ ⟨4, 5⟩)
    (by decide) rfl

end Sample

namespace TreeBuilder

/-- The sum has the ids that it was given, and the variable has the last of its spans. -/
theorem round_trip_foretold : Goes { names := .fresh } Sample.foretold Sample.foretelling ∧
    Fits Sample.foretold ∧ handed Sample.foretold = [⟨0⟩, ⟨1⟩] ∧
    ((Sample.foretelling.finish ⟨0⟩).node? ⟨1⟩).map Node.span = some ⟨4, 5⟩ ∧
    (Sample.foretelling.finish ⟨0⟩).node? .invalid = none := by
  have hfits : Fits Sample.foretold := ⟨by decide, by decide⟩
  obtain ⟨hhanded, -, hinvalid, hcalls, -⟩ := Goes.round_trip Sample.goes_foretold hfits ⟨0⟩
  obtain ⟨id, kind, r, hid, -, -, hnode, -⟩ :=
    hcalls (Sample.foretold.take 2) (.var "x") (some ⟨1⟩) (Sample.foretold.drop 3) rfl rfl
  cases hid
  exact ⟨Sample.goes_foretold, hfits, hhanded, by rw [hnode]; rfl, hinvalid⟩

end TreeBuilder

end Formulary
