import Formulary.Proofs.Chronicle
import Formulary.Proofs.Dependency.Exactness
import Formulary.Proofs.Scope.Siblings
import Mathlib.Data.List.Sort
/-!
# Variables in the order of their texts

A set of variables is shown in the order of the texts of its variables. The text of a variable
is its name, the path of its scope, the subject of its instance, and its format, with
separators between them (`toList_text`). What is between the separators can be read off, if
the name and the path have no separators of their own (`Kept.text_eq_iff`). What is not in the
text are the instances around, and how often an instance was asked for again: two variables of
one text are of one scope and one subject, inside different parents or before and after a
release (`Kept.eq_or_of_text_eq`).

The order goes by the texts alone. So the texts, once sorted, are those of the set in one
order, however the set was filled (`map_text_sorted_eq`), and the variables are if no two of
them share a text (`sorted_eq`).
-/

namespace Formulary

/-! ## Sets, once sorted -/

namespace DependencySet

variable {d d' : DependencySet}

theorem perm_sorted (d : DependencySet) : d.sorted.Perm d.members := List.mergeSort_perm _ _

/-- Once sorted, a text comes after no greater one. -/
theorem pairwise_sorted (d : DependencySet) : d.sorted.Pairwise fun v w => v.text ≤ w.text := by
  have hle (v w : VariableId) : (!decide (w.text < v.text)) = true ↔ v.text ≤ w.text := by
    rw [Bool.not_eq_true', decide_eq_false_iff_not, String.not_lt]
  have hsorted : d.sorted.Pairwise fun v w => (!decide (w.text < v.text)) = true :=
    List.pairwise_mergeSort
      (fun u v w huv hvw => (hle u w).2 (String.le_trans ((hle u v).1 huv) ((hle v w).1 hvw)))
      (fun v w => Bool.or_eq_true_iff.2
        ((String.le_total v.text w.text).imp (hle v w).2 (hle w v).2)) d.members
  exact hsorted.imp fun {v w} h => (hle v w).1 h

/-- **The texts come out the same,** in whatever order the variables are held. -/
theorem map_text_sorted_eq (h : d.members.Perm d'.members) :
    d.sorted.map VariableId.text = d'.sorted.map VariableId.text := by
  have hperm : (d.sorted.map VariableId.text).Perm (d'.sorted.map VariableId.text) :=
    ((d.perm_sorted.trans h).trans d'.perm_sorted.symm).map _
  refine hperm.eq_of_pairwise (fun _ _ _ _ => String.le_antisymm) ?_ ?_
  · exact List.pairwise_map.2 d.pairwise_sorted
  · exact List.pairwise_map.2 d'.pairwise_sorted

/-- **The variables come out the same** if no two of them share a text. -/
theorem sorted_eq (h : d.members.Perm d'.members)
    (htexts : ∀ v ∈ d.members, ∀ w ∈ d.members, v.text = w.text → v = w) :
    d.sorted = d'.sorted := by
  refine List.Perm.eq_of_pairwise (fun v w hv hw hvw hwv => ?_) d.pairwise_sorted
    d'.pairwise_sorted ((d.perm_sorted.trans h).trans d'.perm_sorted.symm)
  have hv' : v ∈ d.members := d.perm_sorted.mem_iff.1 hv
  have hw' : w ∈ d.members := h.mem_iff.2 (d'.perm_sorted.mem_iff.1 hw)
  exact htexts v hv' w hw' (String.le_antisymm hvw hwv)

/-- Two variables of one text stay in the order in which they are held. -/
theorem sorted_pair {v w : VariableId} (h : v.text = w.text) :
    (⟨[v, w]⟩ : DependencySet).sorted = [v, w] := by
  refine List.mergeSort_of_pairwise (List.pairwise_pair.2 ?_)
  rw [h, Bool.not_eq_true', decide_eq_false_iff_not]
  exact String.lt_irrefl _

/-- Sets that contain the same hold the same, where equal variables are one. -/
theorem perm_of_contains_eq (hd : d.Distinct) (hd' : d'.Distinct)
    (hone : ∀ v ∈ d.members, ∀ w ∈ d'.members, (v == w) = true → v = w)
    (hsame : ∀ v, d.contains v = d'.contains v) : d.members.Perm d'.members := by
  have hnodup {d : DependencySet} (hd : d.Distinct) : d.members.Nodup :=
    hd.imp fun hne heq => hne (by rw [heq]; exact BEq.rfl)
  refine (List.perm_ext_iff_of_nodup (hnodup hd) (hnodup hd')).2 fun v =>
    ⟨fun hv => ?_, fun hv => ?_⟩
  · obtain ⟨w, hw, hwv⟩ := contains_iff.1 ((hsame v).symm.trans (contains_iff.2 ⟨v, hv, BEq.rfl⟩))
    rwa [hone v hv w hw (BEq.symm hwv)]
  · obtain ⟨w, hw, hwv⟩ := contains_iff.1 ((hsame v).trans (contains_iff.2 ⟨v, hv, BEq.rfl⟩))
    rwa [← hone w hw v hv hwv]

end DependencySet

/-! ## What a text tells -/

namespace VariableId

/-- Neither the name nor the path of the scope has the separator that ends it. -/
structure Plain (v : VariableId) : Prop where
  label : '@' ∉ v.label.toList
  path : '[' ∉ v.owner.scope.path.toList

/-- A text, part by part. -/
theorem toList_text (v : VariableId) : v.text.toList =
    v.label.toList ++ '@' :: (v.owner.scope.path.toList ++ '[' :: (v.owner.subject.toList ++
      (']' :: ':' :: ' ' :: v.format.label.toList))) := by
  have htext : v.text = v.label ++ "@" ++ (v.owner.scope.path ++ "[" ++ v.owner.subject ++ "]") ++
      ": " ++ v.format.label := rfl
  have hat : "@".toList = ['@'] := rfl
  have hopen : "[".toList = ['['] := rfl
  have hclose : "]".toList = [']'] := rfl
  have hcolon : ": ".toList = [':', ' '] := rfl
  simp only [htext, String.toList_append, hat, hopen, hclose, hcolon, List.append_assoc,
    List.cons_append, List.nil_append]

end VariableId

namespace Chronicle

variable {r : Chronicle} {v w : VariableId}

/-- **Plain variables share a text exactly if they have one name, one scope and one subject.** -/
theorem Kept.text_eq_iff (h : r.Kept) (hv : .resolved v ∈ r.log) (hw : .resolved w ∈ r.log)
    (hvplain : v.Plain) (hwplain : w.Plain) : v.text = w.text ↔
      v.name = w.name ∧ v.owner.scope = w.owner.scope ∧ v.owner.subject = w.owner.subject := by
  obtain ⟨hvowner, -, hvlabel⟩ := h.resolved v hv
  obtain ⟨hwowner, -, hwlabel⟩ := h.resolved w hw
  constructor
  · intro htext
    have hchars := congrArg String.toList htext
    rw [VariableId.toList_text, VariableId.toList_text] at hchars
    obtain ⟨hlabel, hchars⟩ := append_separator_inj_left hvplain.label hwplain.label hchars
    obtain ⟨hpath, hchars⟩ := append_separator_inj_left hvplain.path hwplain.path hchars
    have hname : v.name = w.name := by
      rw [String.toList_inj.1 hlabel, hwlabel, Option.some.injEq] at hvlabel
      exact hvlabel.symm
    have hscope : v.owner.scope = w.owner.scope :=
      h.scopes.eq_of_path_eq (h.instances _ hvowner) (h.instances _ hwowner)
        (String.toList_inj.1 hpath)
    -- one name in one scope has one format, so that the texts end alike
    rw [h.format_eq hv hw hname hscope] at hchars
    exact ⟨hname, hscope, String.toList_inj.1 (List.append_cancel_right hchars)⟩
  · rintro ⟨hname, hscope, hsubject⟩
    rw [← String.toList_inj, VariableId.toList_text, VariableId.toList_text,
      h.label_eq hv hw hname, hscope, hsubject, h.format_eq hv hw hname hscope]

/-- An instance was released, or one around it. -/
def Released (r : Chronicle) (i : ScopeInstance) : Prop :=
  ∃ a ∈ i.ancestors, ∃ j, .released j ∈ r.log ∧ (a == j) = true

/-- **Plain variables that share a text are one,** unless their parents differ or one of the
instances was released. -/
theorem Kept.eq_or_of_text_eq (h : r.Kept) (hv : .resolved v ∈ r.log) (hw : .resolved w ∈ r.log)
    (hvplain : v.Plain) (hwplain : w.Plain) (htext : v.text = w.text) :
    v = w ∨ v.owner.parent?.map ScopeInstance.id ≠ w.owner.parent?.map ScopeInstance.id ∨
      r.Released v.owner ∨ r.Released w.owner := by
  obtain ⟨hname, hscope, hsubject⟩ := (h.text_eq_iff hv hw hvplain hwplain).1 htext
  by_cases hparent : v.owner.parent?.map ScopeInstance.id = w.owner.parent?.map ScopeInstance.id
  · -- the instances have one key, under which one of them is cached at most
    have hkey : v.owner.key = w.owner.key := by
      rw [ScopeInstance.key, ScopeInstance.key, hscope, hsubject, hparent]
    rcases h.held _ (h.resolved v hv).1 with hvcached | hvreleased
    · rcases h.held _ (h.resolved w hw).1 with hwcached | hwreleased
      · rw [hkey, hwcached, Option.some.injEq] at hvcached
        have howner : (v.owner == w.owner) = true := ScopeInstance.beq_iff.2 (by rw [hvcached])
        exact .inl (h.eq_of_owner_beq hv hw howner hname)
      · exact .inr (.inr (.inr hwreleased))
    · exact .inr (.inr (.inl hvreleased))
  · exact .inr (.inl hparent)

end Chronicle

/-! ## Two teams of one name -/

namespace Sample

/-- A second company. -/
def rival : ScopeInstance := ⟨⟨2, company, "rival"⟩, []⟩

/-- It has a team of the same name. -/
def rivalSales : ScopeInstance := ⟨⟨3, team, "sales"⟩, [rival.link]⟩

/-- The factory that has made both companies and their teams. -/
def twoTeams : InstanceFactory :=
  ⟨⟨[(⟨0, none, "acme"⟩, acme), (⟨1, some 0, "sales"⟩, sales), (⟨0, none, "rival"⟩, rival),
    (⟨1, some 2, "sales"⟩, rivalSales)]⟩, 4⟩

/-- Each team has a budget, and both were resolved. -/
def twins : Chronicle where
  manager := {
    names := words
    declarations := ⟨⟨[((1, budget), .number)]⟩⟩
    scopes := ⟨[company, team]⟩
    instances := twoTeams }
  asked := [⟨team, budget, .number⟩]
  log := [.resolved (budgetOf rivalSales), .resolved (budgetOf sales), .obtained rivalSales,
    .obtained rival, .obtained sales, .obtained acme]

theorem run_twins : Chronicle.Run blank twins := by
  let declared := charted.declare team "budget" .number
  let after (instances : InstanceFactory) : FormulaManager := { declared.manager with instances }
  have hteam : team ∈ declared.manager.scopes.scopes := List.mem_cons_of_mem _ List.mem_cons_self
  have hcompany : company ∈ declared.manager.scopes.scopes := List.mem_cons_self
  let one : InstanceFactory := ⟨⟨[(⟨0, none, "acme"⟩, acme)]⟩, 1⟩
  let three : InstanceFactory := ⟨⟨[(⟨0, none, "acme"⟩, acme), (⟨1, some 0, "sales"⟩, sales),
    (⟨0, none, "rival"⟩, rival)]⟩, 3⟩
  have hacme : declared.manager.newInstance company "acme" none = .ok (acme, after one) := rfl
  have hsales : (after one).newInstance team "sales" (some acme) = .ok (sales, after staffed) := rfl
  have hrival : (after staffed).newInstance company "rival" none = .ok (rival, after three) := rfl
  have hrivalSales : (after three).newInstance team "sales" (some rival) =
      .ok (rivalSales, after twoTeams) := rfl
  have hbudget : twins.manager.declarations.resolve words sales budget 64 =
      .ok (budgetOf sales) := rfl
  have hrivalBudget : twins.manager.declarations.resolve words rivalSales budget 64 =
      .ok (budgetOf rivalSales) := rfl
  have hheld : .obtained sales ∈
      [Event.obtained rivalSales, .obtained rival, .obtained sales, .obtained acme] := by simp
  have hrivalHeld : .obtained rivalSales ∈ [Event.resolved (budgetOf sales), .obtained rivalSales,
      .obtained rival, .obtained sales, .obtained acme] := by simp
  have hdeclared : Chronicle.Run blank declared := 
    run_charted.tail (.declare (List.mem_cons_of_mem _ List.mem_cons_self) "budget" .number)
  have hfirst := (hdeclared.tail (.obtain hcompany (by simp) hacme)).tail
    (.obtain hteam (by simp) hsales)
  have hsecond := (hfirst.tail (.obtain hcompany (by simp) hrival)).tail
    (.obtain hteam (by simp) hrivalSales)
  exact (hsecond.tail (.resolve hheld hbudget)).tail (.resolve hrivalHeld hrivalBudget)

/-- The two budgets, put into a set one way. -/
def oneWay : DependencySet := ⟨[budgetOf sales, budgetOf rivalSales]⟩

/-- The two budgets, put into a set the other way. -/
def otherWay : DependencySet := ⟨[budgetOf rivalSales, budgetOf sales]⟩

/-- A scope. -/
def plainScope : LegalScope := ⟨⟨0, ⟨1⟩, "a"⟩, []⟩

/-- A scope with an `@` in its name. -/
def atScope : LegalScope := ⟨⟨1, ⟨2⟩, "b@a"⟩, []⟩

/-- A scope with a bracket in its name. -/
def bracketScope : LegalScope := ⟨⟨2, ⟨3⟩, "a[b"⟩, []⟩

/-- Each of the scopes has an `x`, and the first has an `x@b` besides. -/
def spelled : FormulaManager where
  names := (((((Interner.fresh.intern "a").2.intern "b@a").2.intern "a[b").2.intern "x").2.intern
    "x@b").2
  declarations := ⟨⟨[((0, ⟨4⟩), .number), ((1, ⟨4⟩), .number), ((2, ⟨4⟩), .number),
    ((0, ⟨5⟩), .number)]⟩⟩
  scopes := ⟨[plainScope, atScope, bracketScope]⟩

end Sample

namespace Chronicle

/-- **Sorted sets are told by their texts.** Take variables that a manager resolved, whatever
was done with it before and since. If neither the names have an `@` nor the paths of the
scopes a bracket, two of them share a text exactly if they have one name, and instances of one
scope and one subject; and two that differ share one only if the parents of these instances
differ or one of the instances was released, be it with one around it. A set of such variables
is sorted by their texts. The texts come out in one order, however the set was filled, and so
do the variables if no two of the set share a text. -/
theorem sorted_by_text {r₀ r : Chronicle} (hblank : r₀.Blank) (hrun : Run r₀ r) :
    (∀ v w, .resolved v ∈ r.log → .resolved w ∈ r.log → ((v == w) = true ↔ v = w)) ∧
    (∀ v w, .resolved v ∈ r.log → .resolved w ∈ r.log → v.Plain → w.Plain →
      (v.text = w.text ↔
        v.name = w.name ∧ v.owner.scope = w.owner.scope ∧ v.owner.subject = w.owner.subject) ∧
      (v.text = w.text → v = w ∨
        v.owner.parent?.map ScopeInstance.id ≠ w.owner.parent?.map ScopeInstance.id ∨
        r.Released v.owner ∨ r.Released w.owner)) ∧
    ∀ d d' : DependencySet, d.Distinct → d'.Distinct → (∀ v ∈ d.members, .resolved v ∈ r.log) →
      (∀ v ∈ d'.members, .resolved v ∈ r.log) → (∀ v, d.contains v = d'.contains v) →
      (d.sorted.Perm d.members ∧ d.sorted.Pairwise fun v w => v.text ≤ w.text) ∧
      d.sorted.map VariableId.text = d'.sorted.map VariableId.text ∧
      ((∀ v ∈ d.members, ∀ w ∈ d.members, v.text = w.text → v = w) → d.sorted = d'.sorted) := by
  have hkept : r.Kept := hblank.kept.run hrun
  have hone (v w : VariableId) (hv : .resolved v ∈ r.log) (hw : .resolved w ∈ r.log)
      (hvw : (v == w) = true) : v = w := by
    obtain ⟨hid, hname, -⟩ := VariableId.beq_iff.1 hvw
    exact hkept.eq_of_owner_beq hv hw (ScopeInstance.beq_iff.2 hid) hname
  refine ⟨fun v w hv hw => ⟨hone v w hv hw, fun heq => by rw [heq]; exact BEq.rfl⟩,
    fun v w hv hw hvplain hwplain => ⟨hkept.text_eq_iff hv hw hvplain hwplain,
      hkept.eq_or_of_text_eq hv hw hvplain hwplain⟩,
    fun d d' hd hd' hmembers hmembers' hsame => ?_⟩
  have hperm : d.members.Perm d'.members := DependencySet.perm_of_contains_eq hd hd'
    (fun v hv w hw => hone v w (hmembers v hv) (hmembers' w hw)) hsame
  exact ⟨⟨d.perm_sorted, d.pairwise_sorted⟩, DependencySet.map_text_sorted_eq hperm,
    DependencySet.sorted_eq hperm⟩

/-- The budgets of the two teams share a text. In whichever order they are put into a set, the
same texts come out. -/
theorem sorted_by_text_twins :
    Sample.blank.Blank ∧ Run Sample.blank Sample.twins ∧
      (Sample.budgetOf Sample.sales).text = (Sample.budgetOf Sample.rivalSales).text ∧
      Sample.oneWay.sorted.map VariableId.text = Sample.otherWay.sorted.map VariableId.text := by
  obtain ⟨-, htexts, hsets⟩ := sorted_by_text Sample.blank_blank Sample.run_twins
  have hresolved : ∀ v ∈ Sample.oneWay.members, .resolved v ∈ Sample.twins.log := by
    simp [Sample.oneWay, Sample.twins]
  have hresolved' : ∀ v ∈ Sample.otherWay.members, .resolved v ∈ Sample.twins.log := by
    simp [Sample.otherWay, Sample.twins]
  have hplain : (Sample.budgetOf Sample.sales).Plain := ⟨by decide, by decide⟩
  have hplain' : (Sample.budgetOf Sample.rivalSales).Plain := ⟨by decide, by decide⟩
  have hsame (v : VariableId) : Sample.oneWay.contains v = Sample.otherWay.contains v := by
    simp [DependencySet.contains, Sample.oneWay, Sample.otherWay, Bool.or_comm]
  obtain ⟨htext, -⟩ := htexts _ _ (hresolved _ List.mem_cons_self)
    (hresolved' _ List.mem_cons_self) hplain hplain'
  refine ⟨Sample.blank_blank, Sample.run_twins, htext.2 ⟨rfl, rfl, rfl⟩, ?_⟩
  exact (hsets _ _ (by simp [DependencySet.Distinct, Sample.oneWay]; decide)
    (by simp [DependencySet.Distinct, Sample.otherWay]; decide) hresolved hresolved' hsame).2.1

/-- **The two budgets differ, and their texts do not.** Put into a set one way and the other,
they come out in two orders. The budget of a company that was released and asked for again
has the text that it had. And a text does not tell an `x@b` in `a` from an `x` in `b@a`, nor
an `x` for the subject `c` in `a[b` from one for `b[c` in `a`. -/
theorem sorted_twins :
    Run Sample.blank Sample.twins ∧
      (.resolved (Sample.budgetOf Sample.sales) ∈ Sample.twins.log ∧
        .resolved (Sample.budgetOf Sample.rivalSales) ∈ Sample.twins.log) ∧
      (Sample.budgetOf Sample.sales == Sample.budgetOf Sample.rivalSales) = false ∧
      (Sample.budgetOf Sample.sales).text = (Sample.budgetOf Sample.rivalSales).text ∧
      (∀ v, Sample.oneWay.contains v = Sample.otherWay.contains v) ∧
      Sample.oneWay.sorted ≠ Sample.otherWay.sorted ∧
      ((Sample.budgetOf Sample.acme == Sample.budgetOf Sample.acmeAgain) = false ∧
        (Sample.budgetOf Sample.acme).text = (Sample.budgetOf Sample.acmeAgain).text) ∧
      (∃ v w, Sample.spelled.resolve ⟨⟨0, Sample.plainScope, "s"⟩, []⟩ "x@b" = .ok v ∧
        Sample.spelled.resolve ⟨⟨1, Sample.atScope, "s"⟩, []⟩ "x" = .ok w ∧
        (v == w) = false ∧ v.text = w.text) ∧
      ∃ v w, Sample.spelled.resolve ⟨⟨2, Sample.plainScope, "b[c"⟩, []⟩ "x" = .ok v ∧
        Sample.spelled.resolve ⟨⟨3, Sample.bracketScope, "c"⟩, []⟩ "x" = .ok w ∧
        (v == w) = false ∧ v.text = w.text := by
  have htext : (Sample.budgetOf Sample.sales).text = (Sample.budgetOf Sample.rivalSales).text := rfl
  refine ⟨Sample.run_twins, by simp [Sample.twins], by decide, htext, fun v => ?_, fun h => ?_,
    ⟨by decide, rfl⟩, ⟨_, _, rfl, rfl, by decide, by decide⟩,
    ⟨_, _, rfl, rfl, by decide, by decide⟩⟩
  · simp [DependencySet.contains, Sample.oneWay, Sample.otherWay, Bool.or_comm]
  · rw [Sample.oneWay, Sample.otherWay, DependencySet.sorted_pair htext,
      DependencySet.sorted_pair htext.symm, List.cons.injEq] at h
    have hsubject := congrArg (fun v => v.owner.id) h.1
    exact absurd hsubject (by decide)

end Chronicle

end Formulary
