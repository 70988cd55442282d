import Formulary.Context.Sharing
import Formulary.Proofs.Ambience
import Formulary.Proofs.Answers
import Formulary.Proofs.Table
import Mathlib.Data.Finset.Card
import Mathlib.Data.List.NodupEquivFin
/-!
# Context maps and what was written to them

Context maps are copied and written to in any order, and copies share their tables
(`ContextMaps`). What a map holds can be told from a list of writes all the same: its own, after
those that its source had received when it was copied (`ContextMaps.lineages`).

A table that is written to where it is has one holder, so a write reaches one map
(`ContextMaps.map?_set`). One step does to what the maps hold what it does to the lists of
writes (`ContextMaps.Faithful.apply`), and so does a run.
-/

namespace Formulary

open ContextKinds (Carrier)

variable {K : Type} [ContextKinds K]

/-! ## What a list of writes comes to -/

/-- What a write puts under a name. -/
def Addition.entry? (a : Addition K) (name : String) : Option (ContextEntry K) :=
  if a.key.name = name then some ⟨a.kind, a.value⟩ else none

theorem Addition.entry?_eq_none_iff {a : Addition K} {name : String} :
    a.entry? name = none ↔ a.key.name ≠ name := by
  unfold entry?
  split
  · rename_i hname
    exact iff_of_false nofun fun hne => hne hname
  · rename_i hname
    exact iff_of_true rfl hname

/-- Of some writes, the one that was made last under a name. -/
def LastWrite (writes : List (Addition K)) (name : String) (a : Addition K) : Prop :=
  ∃ earlier later, writes = earlier ++ a :: later ∧ a.key.name = name ∧
    ∀ b ∈ later, b.key.name ≠ name

namespace ContextMap

variable {m : ContextMap K} {a : Addition K} {writes : List (Addition K)} {name : String}

theorem addAll_concat : m.addAll (writes ++ [a]) = (m.addAll writes).set a.key a.value := by
  simp only [addAll, List.foldl_concat]

/-- **What is found under a name is what was written there last.** -/
theorem find?_addAll : (({} : ContextMap K).addAll writes).entries.find? name =
    writes.reverse.findSome? fun a => a.entry? name := by
  induction writes using List.reverseRecOn with
  | nil => rfl
  | append_singleton writes a ih =>
    rw [addAll_concat, List.reverse_concat, List.findSome?_cons, ← ih]
    simp only [set, Table.find?_insert, Addition.entry?, beq_iff_eq]
    split <;> rfl

theorem find?_addAll_of_lastWrite (h : LastWrite writes name a) :
    (({} : ContextMap K).addAll writes).entries.find? name = some ⟨a.kind, a.value⟩ := by
  obtain ⟨earlier, later, hwrites, hname, hlater⟩ := h
  rw [find?_addAll, findSome?_reverse_eq_some_iff]
  exact ⟨earlier, a, later, hwrites, if_pos hname, fun b hb =>
    Addition.entry?_eq_none_iff.2 (hlater b hb)⟩

theorem find?_addAll_eq_none_iff :
    (({} : ContextMap K).addAll writes).entries.find? name = none ↔
      ∀ a ∈ writes, a.key.name ≠ name := by
  rw [find?_addAll, List.findSome?_eq_none_iff]
  simp only [List.mem_reverse, Addition.entry?_eq_none_iff]

/-- The names that are held are those that were written. -/
theorem mem_keys_addAll_iff : name ∈ (({} : ContextMap K).addAll writes).entries.keys ↔
    ∃ a ∈ writes, a.key.name = name := by
  rw [Table.mem_keys_iff, ← Option.ne_none_iff_isSome, ne_eq, find?_addAll_eq_none_iff]
  simp only [not_forall, ne_eq, not_not, exists_prop]

/-- No name is held twice. -/
theorem nodup_keys_addAll : (({} : ContextMap K).addAll writes).entries.keys.Nodup := by
  induction writes using List.reverseRecOn with
  | nil => exact List.nodup_nil
  | append_singleton writes a ih =>
    rw [addAll_concat]
    exact Table.nodup_keys_insert ih

/-! ## What a map answers -/

/-- A map answers for a list of writes. Under a name that was written what counts is the last
write: its value, if that is of the kind that is asked for, and a refusal if it is not. Under
another name it is the default of the key. A map has the names that were written. -/
structure Tells [DecidableEq K] (m : ContextMap K) (writes : List (Addition K)) : Prop where
  last : ∀ {kind : K} (asked key : Key kind) (value : Carrier kind),
    LastWrite writes asked.name ⟨key, value⟩ → m.get asked = .ok value
  otherKind : ∀ {kind : K} (asked : Key kind) (a : Addition K),
    LastWrite writes asked.name a → a.kind ≠ kind →
      m.get asked = .error (.keyTypeMismatch asked.name (ContextKinds.label kind))
  default : ∀ {kind : K} (asked : Key kind) (value : Carrier kind),
    (∀ a ∈ writes, a.key.name ≠ asked.name) → asked.default? = some value →
      m.get asked = .ok value
  missing : ∀ {kind : K} (asked : Key kind),
    (∀ a ∈ writes, a.key.name ≠ asked.name) → asked.default? = none →
      m.get asked = .error (.missingKey asked.name)
  contains_iff : ∀ {kind : K} (asked : Key kind),
    m.contains asked = true ↔ ∃ a ∈ writes, a.key.name = asked.name
  size_eq : m.size = (writes.map fun a => a.key.name).toFinset.card

/-- **A map that was empty answers for what was written to it.** -/
theorem tells_addAll [DecidableEq K] (writes : List (Addition K)) :
    (({} : ContextMap K).addAll writes).Tells writes where
  last asked key value h := by
    simp only [get, find?_addAll_of_lastWrite h, read_self]
  otherKind asked a h hkind := by
    simp only [get, find?_addAll_of_lastWrite h, read, dif_neg hkind]
  default asked value hnone hdefault := by
    simp only [get, find?_addAll_eq_none_iff.2 hnone, hdefault]
  missing asked hnone hdefault := by
    simp only [get, find?_addAll_eq_none_iff.2 hnone, hdefault]
  contains_iff asked := by
    rw [← mem_keys_addAll_iff, Table.mem_keys_iff]
    rfl
  size_eq := by
    have hnames : (({} : ContextMap K).addAll writes).entries.keys.toFinset =
        (writes.map fun a => a.key.name).toFinset := by
      ext name
      rw [List.mem_toFinset, List.mem_toFinset, List.mem_map, mem_keys_addAll_iff]
    rw [← hnames, List.toFinset_card_of_nodup nodup_keys_addAll, Table.keys, List.length_map]
    rfl

end ContextMap

/-! ## Steps -/

namespace ContextMaps

/-- What can be done with context maps. -/
inductive Step (K : Type := ContextKind) [ContextKinds K] where
  /-- An empty map is added. -/
  | new
  /-- A copy of a map is added. -/
  | clone (source : Nat)
  /-- A map is written to. -/
  | set (target : Nat) (write : Addition K)
  /-- A copy of a map is added that has one more write. -/
  | derive (source : Nat) (write : Addition K)

/-- The map that a step writes to, of those that are there. -/
def Step.target? : Step K → Option Nat
  | set i _ => some i
  | new | clone _ | derive _ _ => none

/-- The maps after a step. -/
def apply (s : ContextMaps K) : Step K → ContextMaps K
  | .new => s.new
  | .clone i => s.clone i
  | .set i a => s.set i a.key a.value
  | .derive i a => s.derive i a.key a.value

/-- The maps after some steps, from none. -/
def after (steps : List (Step K)) : ContextMaps K := steps.foldl apply {}

/-- The writes to each map after a step. A copy starts with those of its source. -/
def extend (writes : List (List (Addition K))) : Step K → List (List (Addition K))
  | .new => writes ++ [[]]
  | .clone i => writes ++ writes[i]?.toList
  | .set i a => writes.modify i (· ++ [a])
  | .derive i a => writes ++ (writes[i]?.map (· ++ [a])).toList

/-- The writes in the lineage of each map, oldest first: its own, and those that its source had
received when it was copied. -/
def lineages (steps : List (Step K)) : List (List (Addition K)) := steps.foldl extend []

/-- Every map holds a table. -/
def Allotted (s : ContextMaps K) : Prop := ∀ place ∈ s.held, place < s.tables.length

variable {s : ContextMaps K} {i j : Nat} {kind : K} {key : Key kind}
variable {value : Carrier kind} {a : Addition K} {writes : List (List (Addition K))}

/-! ## What a step does to the maps -/

/-- A table more changes nothing for the maps that are there. -/
theorem map?_of_append (h : s.Allotted) (table : ContextMap K) :
    (s.held[j]?.bind fun place => (s.tables ++ [table])[place]?) = s.map? j := by
  unfold map?
  cases hplace : s.held[j]? with
  | none => rfl
  | some place =>
    exact List.getElem?_append_left (h place (List.mem_of_getElem? hplace))

theorem allotted_new (h : s.Allotted) : s.new.Allotted := by
  intro place hplace
  rw [new, List.length_append, List.length_singleton]
  rcases List.mem_append.1 hplace with hplace | hplace
  · exact Nat.lt_succ_of_lt (h place hplace)
  · rw [List.mem_singleton.1 hplace]
    exact Nat.lt_succ_self _

/-- **A new map is empty,** and the others are as they were. -/
theorem map?_new (h : s.Allotted) :
    s.new.map? j = if j = s.size then some {} else s.map? j := by
  rw [← map?_of_append h {}, map?, new, getElem?_concat, size]
  split
  · rw [Option.bind_some, List.getElem?_concat_length]
  · rfl

theorem allotted_clone (h : s.Allotted) : (s.clone i).Allotted := by
  intro place hplace
  rcases List.mem_append.1 hplace with hplace | hplace
  · exact h place hplace
  · exact h place (List.mem_of_getElem? (Option.mem_toList.1 hplace))

/-- A map that is not there is not copied. -/
theorem clone_of_le (h : s.size ≤ i) : s.clone i = s := by
  rw [clone, List.getElem?_eq_none h, Option.toList_none, List.append_nil]

theorem size_clone (h : i < s.size) : (s.clone i).size = s.size + 1 := by
  rw [size, clone, List.getElem?_eq_getElem h, List.length_append]
  rfl

/-- **A copy is like its source,** and the others are as they were. -/
theorem map?_clone (h : i < s.size) :
    (s.clone i).map? j = if j = s.size then s.map? i else s.map? j := by
  rw [map?, clone, List.getElem?_eq_getElem h, Option.toList_some, getElem?_concat, size]
  split
  · rw [map?, List.getElem?_eq_getElem h]
  · rfl

/-- A table that one map holds is the table of no other map. -/
theorem eq_of_holders_eq_one {place : Nat} (h : s.holders place = 1)
    (hi : s.held[i]? = some place) (hj : s.held[j]? = some place) : i = j := by
  by_contra hne
  have twice {i j : Nat} (hlt : i < j) (hi : s.held[i]? = some place)
      (hj : s.held[j]? = some place) : 2 ≤ s.holders place := by
    obtain ⟨hi', hi⟩ := List.getElem?_eq_some_iff.1 hi
    obtain ⟨hj', hj⟩ := List.getElem?_eq_some_iff.1 hj
    exact List.duplicate_iff_two_le_count.1 (List.duplicate_iff_exists_distinct_get.2
      ⟨⟨i, hi'⟩, ⟨j, hj'⟩, hlt, hi.symm, hj.symm⟩)
  rcases Nat.lt_or_gt_of_ne hne with hlt | hgt
  · have := twice hlt hi hj
    omega
  · have := twice hgt hj hi
    omega

@[simp] theorem size_set : (s.set i key value).size = s.size := by
  unfold set size
  split
  · rfl
  · split
    · rfl
    · exact List.length_set

theorem allotted_set (h : s.Allotted) : (s.set i key value).Allotted := by
  unfold set
  split
  · exact h
  · split
    · intro place hplace
      rw [List.length_set]
      exact h place hplace
    · intro place hplace
      rw [List.length_append, List.length_singleton]
      rcases List.mem_or_eq_of_mem_set hplace with hplace | rfl
      · exact Nat.lt_succ_of_lt (h place hplace)
      · exact Nat.lt_succ_self _

/-- **A write reaches the map that is written to, and no other.** If the table is written to
where it is, no other map holds it; and if it is copied, the others keep the old one. -/
theorem map?_set (h : s.Allotted) : (s.set i key value).map? j =
    if j = i then (s.map? i).map fun m => m.set key value else s.map? j := by
  cases hplace : s.held[i]? with
  | none =>
    have hnone : s.map? i = none := by rw [map?, hplace, Option.bind_none]
    simp only [set, hplace]
    split
    · rename_i hj
      rw [hj, hnone, Option.map_none]
    · rfl
  | some place =>
    have hlt := h place (List.mem_of_getElem? hplace)
    have hheld := (List.getElem?_eq_some_iff.1 hplace).1
    have hmap : s.map? i = some s.tables[place] := by
      rw [map?, hplace, Option.bind_some, List.getElem?_eq_getElem hlt]
    simp only [set, hplace, List.getElem?_eq_getElem hlt, Option.getD_some, hmap, Option.map_some]
    by_cases hone : s.holders place = 1
    · rw [if_pos hone, map?]
      by_cases hj : j = i
      · rw [if_pos hj, hj, hplace, Option.bind_some, List.getElem?_set_self hlt]
      · rw [if_neg hj, map?]
        cases hother : s.held[j]? with
        | none => rfl
        | some other =>
          have hne : place ≠ other := fun heq =>
            hj (eq_of_holders_eq_one hone (heq ▸ hother) hplace)
          exact List.getElem?_set_ne hne
    · rw [if_neg hone, map?]
      by_cases hj : j = i
      · rw [if_pos hj, hj, List.getElem?_set_self hheld, Option.bind_some,
          List.getElem?_concat_length]
      · rw [if_neg hj, List.getElem?_set_ne (Ne.symm hj)]
        exact map?_of_append h _

/-- A copy leaves the maps that are there as they were, whatever is copied. -/
theorem map?_clone_of_lt (hj : j < s.size) : (s.clone i).map? j = s.map? j := by
  rcases Nat.lt_or_ge i s.size with hlt | hge
  · rw [map?_clone hlt, if_neg (Nat.ne_of_lt hj)]
  · rw [clone_of_le hge]

/-- **A step leaves every map as it was that it does not write to.** -/
theorem map?_apply (h : s.Allotted) {step : Step K} (hi : i < s.size) (ht : step.target? ≠ some i) :
    (s.apply step).map? i = s.map? i := by
  have hlast : i ≠ s.size := Nat.ne_of_lt hi
  cases step with
  | new => exact (map?_new h).trans (if_neg hlast)
  | clone k => exact map?_clone_of_lt hi
  | set k a =>
    have hk : i ≠ k := fun heq => ht (congrArg some heq.symm)
    exact (map?_set h).trans (if_neg hk)
  | derive k a =>
    rw [apply, derive, map?_set (allotted_clone h), if_neg hlast, map?_clone_of_lt hi]

/-! ## What a step does to the writes -/

/-- The maps hold what their lists of writes come to. -/
structure Faithful (s : ContextMaps K) (writes : List (List (Addition K))) : Prop where
  allotted : s.Allotted
  size_eq : s.size = writes.length
  map?_eq : ∀ i, s.map? i = writes[i]?.map fun w => ({} : ContextMap K).addAll w

namespace Faithful

theorem new (h : s.Faithful writes) : s.new.Faithful (extend writes .new) where
  allotted := allotted_new h.allotted
  size_eq := by
    rw [size, ContextMaps.new, List.length_append, extend, List.length_append, ← h.size_eq, size]
    rfl
  map?_eq j := by
    rw [map?_new h.allotted, extend, getElem?_concat, ← h.size_eq, h.map?_eq]
    split <;> rfl

theorem clone (h : s.Faithful writes) : (s.clone i).Faithful (extend writes (.clone i)) := by
  rcases Nat.lt_or_ge i s.size with hlt | hge
  · obtain ⟨w, hsource⟩ : ∃ w, writes[i]? = some w :=
      ⟨_, List.getElem?_eq_getElem (h.size_eq ▸ hlt)⟩
    refine ⟨allotted_clone h.allotted, ?_, fun j => ?_⟩
    · rw [size_clone hlt, extend, hsource, Option.toList_some, List.length_append,
        List.length_singleton, h.size_eq]
    · rw [map?_clone hlt, extend, hsource, Option.toList_some, getElem?_concat, ← h.size_eq,
        h.map?_eq, h.map?_eq, hsource]
      split <;> rfl
  · have hnone : writes[i]? = none := List.getElem?_eq_none (h.size_eq ▸ hge)
    rw [clone_of_le hge, extend, hnone, Option.toList_none, List.append_nil]
    exact h

theorem set (h : s.Faithful writes) :
    (s.set i a.key a.value).Faithful (extend writes (.set i a)) where
  allotted := allotted_set h.allotted
  size_eq := by rw [size_set, extend, List.length_modify, h.size_eq]
  map?_eq j := by
    rw [map?_set h.allotted, extend, List.getElem?_modify, h.map?_eq, h.map?_eq]
    by_cases hj : j = i
    · rw [hj, if_pos rfl]
      cases writes[i]? with
      | none => rfl
      | some w => simp [ContextMap.addAll_concat]
    · rw [if_neg hj]
      cases writes[j]? with
      | none => rfl
      | some w => simp [Ne.symm hj]

/-- To derive is to copy and to write to the copy, for the writes as for the maps. -/
theorem extend_derive : extend writes (.derive i a) =
    extend (extend writes (.clone i)) (.set writes.length a) := by
  refine List.ext_getElem? fun j => ?_
  simp only [extend]
  rw [List.getElem?_modify]
  cases writes[i]? with
  | none =>
    by_cases hj : writes.length = j
    · simp [← hj]
    · simp [hj]
  | some w =>
    simp only [Option.map_some, Option.toList_some, getElem?_concat]
    by_cases hj : writes.length = j
    · simp [hj]
    · simp [hj, Ne.symm hj]

/-- **One step does to the maps what it does to the writes.** -/
theorem apply (h : s.Faithful writes) (step : Step K) :
    (s.apply step).Faithful (extend writes step) := by
  cases step with
  | new => exact h.new
  | clone i => exact h.clone
  | set i a => exact h.set
  | derive i a =>
    rw [extend_derive, ← h.size_eq]
    exact h.clone.set

end Faithful

/-- **What a map holds is what its lineage comes to,** after any steps. -/
theorem faithful_after (steps : List (Step K)) : (after steps).Faithful (lineages steps) := by
  induction steps using List.reverseRecOn with
  | nil => exact ⟨fun place hplace => absurd hplace (List.not_mem_nil), rfl, fun i => rfl⟩
  | append_singleton steps step ih =>
    rw [after, lineages, List.foldl_concat, List.foldl_concat]
    exact ih.apply step

/-- **Context maps answer for their lineages,** whatever steps they came about by. There is a map
for each lineage, and it holds what the writes of the lineage come to. So it answers for these
and for no other write: of the writes under a name the last one counts, and a default counts
only where there was none. A step changes no map but the one that it writes to, whichever maps
share a table with it. -/
theorem tells_lineage [DecidableEq K] (steps : List (Step K)) :
    (after steps).size = (lineages steps).length ∧
    (∀ i writes, (lineages steps)[i]? = some writes →
      (after steps).map? i = some (({} : ContextMap K).addAll writes) ∧
        (({} : ContextMap K).addAll writes).Tells writes) ∧
    ∀ step i, i < (after steps).size → step.target? ≠ some i →
      (after (steps ++ [step])).map? i = (after steps).map? i := by
  have hfaithful := faithful_after steps
  refine ⟨hfaithful.size_eq, fun i writes hwrites => ⟨?_, ContextMap.tells_addAll writes⟩,
    fun step i hi ht => ?_⟩
  · rw [hfaithful.map?_eq, hwrites, Option.map_some]
  · rw [after, List.foldl_concat]
    exact map?_apply hfaithful.allotted hi ht

end ContextMaps

namespace Sample

/-- Whether a level was reached, which it was not unless told. -/
def level : Key ContextKind.truth := { name := "LEVEL", default? := some false }

/-- The level as a text, under the same name. -/
def levelText : Key ContextKind.text := { name := "LEVEL" }

/-- A map is told that the level was reached. A copy of it is told the level as a text, then the
map is told that the level was not reached, and a third map is derived from the copy. -/
def levels : List ContextMaps.Step :=
  [.new, .set 0 ⟨level, true⟩, .clone 0, .set 1 ⟨levelText, "high"⟩, .set 0 ⟨level, false⟩,
    .derive 1 ⟨level, true⟩]

end Sample

namespace ContextMaps

/-- The copy refuses the key of the first write, which has a default, and the map does not. That
the map is written to once more makes no difference to the copy. -/
theorem tells_lineage_levels :
    (lineages Sample.levels)[1]? = some [⟨Sample.level, true⟩, ⟨Sample.levelText, "high"⟩] ∧
      (∃ m, (after Sample.levels).map? 1 = some m ∧
        m.get Sample.level = .error (.keyTypeMismatch "LEVEL" "bool") ∧
        m.get Sample.levelText = .ok "high" ∧ m.size = 1 ∧
        m.get Key.tolerance = .ok 0 ∧ m.get Key.scope = .error (.missingKey "SCOPE")) ∧
      (∃ m, (after Sample.levels).map? 0 = some m ∧ m.get Sample.level = .ok false) ∧
      1 < (after Sample.levels).size ∧
      (Step.set 0 ⟨Sample.level, true⟩).target? ≠ some 1 ∧
      (after (Sample.levels ++ [.set 0 ⟨Sample.level, true⟩])).map? 1 =
        (after Sample.levels).map? 1 := by
  obtain ⟨hsize, htells, hother⟩ := tells_lineage Sample.levels
  have hcopy : (lineages Sample.levels)[1]? =
      some [⟨Sample.level, true⟩, ⟨Sample.levelText, "high"⟩] := rfl
  have hfirst : (lineages Sample.levels)[0]? =
      some [⟨Sample.level, true⟩, ⟨Sample.level, false⟩] := rfl
  obtain ⟨hm, copyTells⟩ := htells 1 _ hcopy
  obtain ⟨hm', firstTells⟩ := htells 0 _ hfirst
  have hlast : LastWrite [⟨Sample.level, true⟩, ⟨Sample.levelText, "high"⟩] "LEVEL"
      ⟨Sample.levelText, "high"⟩ := ⟨[_], [], rfl, rfl, fun b hb => nomatch hb⟩
  have hlast' : LastWrite [⟨Sample.level, true⟩, ⟨Sample.level, false⟩] "LEVEL"
      ⟨Sample.level, false⟩ := ⟨[_], [], rfl, rfl, fun b hb => nomatch hb⟩
  have htarget : (Step.set 0 ⟨Sample.level, true⟩).target? ≠ some 1 := by simp [Step.target?]
  refine ⟨hcopy, ⟨_, hm, copyTells.otherKind Sample.level _ hlast nofun,
    copyTells.last Sample.levelText _ _ hlast, copyTells.size_eq.trans (by decide),
    copyTells.default Key.tolerance 0 ?_ rfl, copyTells.missing Key.scope ?_ rfl⟩,
    ⟨_, hm', firstTells.last Sample.level _ _ hlast'⟩, by rw [hsize]; decide, htarget,
    hother _ 1 (by rw [hsize]; decide) htarget⟩
  · simp [Sample.level, Sample.levelText, Key.tolerance]
  · simp [Sample.level, Sample.levelText, Key.scope]

end ContextMaps

end Formulary
