import Formulary.Proofs.Tree.Positions
import Mathlib.Data.List.Nodup
import Mathlib.Data.List.Pairwise
/-!
# Formulas that share no part

Nothing keeps two nodes of a tree from having an argument in common, or a node from being
its own argument. Where each id is an argument in one place at most, and the root is none
(`Unshared`), an id is met at one position of the unfolding at most
(`Unshared.nodup_positions`), however the rest of the arrays looks.
-/

namespace Formulary

namespace FormulaTree

/-- The ids at all places where a node has an argument, node by node. -/
def argumentIds (t : FormulaTree) : List NodeId :=
  (List.range t.size).flatMap fun index => t.argsOf ⟨index⟩

/-- No id is an argument in two places, and the root is none. -/
structure Unshared (t : FormulaTree) : Prop where
  /-- An id is an argument in one place at most. -/
  once : t.argumentIds.Nodup
  /-- The root is no argument. -/
  root : t.root ∉ t.argumentIds

variable {t : FormulaTree} {limit : Nat} {id id' arg : NodeId} {path path' : List Nat} {k k' : Nat}

/-- Only a node of the tree has arguments. -/
theorem index_lt_size_of_mem (h : arg ∈ t.argsOf id) : id.index < t.size := by
  obtain ⟨j, hj⟩ := List.getElem?_of_mem h
  obtain ⟨node, -, -, hn, -⟩ := getElem?_argsOf_iff.1 hj
  exact (Array.getElem?_eq_some_iff.1 hn).1

/-- The arguments of a node are among those of all nodes. -/
theorem mem_argumentIds (h : arg ∈ t.argsOf id) : arg ∈ t.argumentIds :=
  List.mem_flatMap.2 ⟨id.index, List.mem_range.2 (index_lt_size_of_mem h), h⟩

/-- **Where no part is shared, an argument is that of one node, in one place.** -/
theorem Unshared.eq_of_argument (h : t.Unshared) (hk : (t.argsOf id)[k]? = some arg)
    (hk' : (t.argsOf id')[k']? = some arg) : id = id' ∧ k = k' := by
  obtain ⟨hnodup, hdisjoint⟩ := List.nodup_flatMap.1 h.once
  have hsymm : Std.Symm (Function.onFun List.Disjoint fun index => t.argsOf ⟨index⟩) :=
    ⟨fun _ _ hab _ hmem hmem' => hab hmem' hmem⟩
  have hmem : arg ∈ t.argsOf id := List.mem_of_getElem? hk
  have hmem' : arg ∈ t.argsOf id' := List.mem_of_getElem? hk'
  have hrange : id.index ∈ List.range t.size := List.mem_range.2 (index_lt_size_of_mem hmem)
  have hrange' : id'.index ∈ List.range t.size := List.mem_range.2 (index_lt_size_of_mem hmem')
  have hid : id = id' := by
    rcases Decidable.eq_or_ne id.index id'.index with hindex | hindex
    · exact congrArg NodeId.mk hindex
    · -- two nodes would have the argument in common
      exact (hdisjoint.forall hrange hrange' hindex hmem hmem').elim
  rw [← hid] at hk'
  exact ⟨hid, (List.getElem?_inj (List.getElem?_eq_some_iff.1 hk).1 (hnodup _ hrange)).1
    (hk.trans hk'.symm)⟩

/-- **Where no part is shared, an id is met at one position.** -/
theorem Unshared.eq_of_visited (h : t.Unshared) (hp : t.Visited limit path id)
    (hp' : t.Visited limit path' id) : path = path' := by
  induction hp generalizing path' with
  | root =>
    generalize hroot : t.root = id at hp'
    cases hp' with
    | root => rfl
    | argument _ hn hr ha _ hk =>
      have harg := getElem?_argsOf_iff.2 ⟨_, _, _, hn, hr, ha, hk⟩
      exact absurd (mem_argumentIds (List.mem_of_getElem? harg)) (hroot ▸ h.root)
  | @argument path above arg node r args k hv hn hr ha hdepth hk ih =>
    have harg : (t.argsOf above)[k]? = some arg := getElem?_argsOf_iff.2 ⟨_, _, _, hn, hr, ha, hk⟩
    cases hp' with
    | root => exact absurd (mem_argumentIds (List.mem_of_getElem? harg)) h.root
    | argument hv' hn' hr' ha' _ hk' =>
      -- the last step is the same, and so is the way up to it
      obtain ⟨rfl, rfl⟩ :=
        h.eq_of_argument harg (getElem?_argsOf_iff.2 ⟨_, _, _, hn', hr', ha', hk'⟩)
      rw [ih hv']

/-- **Where no part is shared, the positions are of different ids.** -/
theorem Unshared.nodup_positions (h : t.Unshared) (limit : Nat) :
    ((t.positions limit t.root).map Prod.snd).Nodup := by
  refine List.pairwise_map.2 ((pairwise_positions t limit t.root).imp_of_mem ?_)
  rintro ⟨path, id⟩ ⟨path', id'⟩ hp hp' hlt hid
  have hsame : path = path' := by
    obtain rfl : id = id' := hid
    exact h.eq_of_visited (mem_positions_iff.1 hp) (mem_positions_iff.1 hp')
  exact absurd (hsame ▸ hlt) (List.lt_irrefl _)

end FormulaTree

end Formulary
