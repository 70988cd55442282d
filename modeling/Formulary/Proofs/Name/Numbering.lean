import Formulary.Name.InternTable
import Formulary.Proofs.Answers
import Mathlib.Data.Finset.Card
/-!
# Names by number

An interner is held by many: each of them may have it name a string, or ask what it knows, and
the interner is two tables, which are written to one after the other. `SharedInterners.Asked`
lists what one interner was asked, through whichever handles, and what it replied.

The two tables are inverse to one another (`InternTable.Inverse`). What it is to name a string
is said once (`InternTable.Interned`): the tables are inverse again, nothing that had a name
has lost it, and a string that is new is last. So what an interner holds is read off what it
was asked: every string that was to be named, once, in the order in which the strings came up,
behind the empty string (`InternTable.Numbered`). One request keeps that
(`InternTable.Numbered.ask`), and so does a run, as long as there is room. So strings and names
are one to one, at every point of a run and for all who hold the interner
(`SharedInterners.Asked.one_to_one`).
-/

namespace Formulary

namespace Interner

/-! ## What an interner was asked -/

/-- The string that a request wants named. -/
def Request.wanted? : Request → Option String
  | intern s | tryIntern s => some s
  | get _ | lookup _ | size => none

/-- What an interner was asked and what it replied, oldest first. -/
abbrev Log := List (Request × Reply)

/-- The strings that were to be named. -/
def wanted (log : Log) : List String := log.filterMap fun entry => entry.1.wanted?

/-- The empty string and those that were to be named, each once, in the order in which they
came up. -/
def firsts (log : Log) : List String := ("" :: wanted log).eraseDups

/-- A string was to be named, and the reply was a name. -/
def WasNamed (log : Log) (s : String) (n : Name) : Prop :=
  ∃ request, request.wanted? = some s ∧ (request, .named n) ∈ log

variable {log : Log} {request : Request} {reply : Reply} {s : String}

/-- A request that wants nothing named leaves what came up as it is. -/
theorem firsts_concat_of_none (h : request.wanted? = none) :
    firsts (log ++ [(request, reply)]) = firsts log := by
  have hwanted : wanted (log ++ [(request, reply)]) = wanted log := by simp [wanted, h]
  rw [firsts, hwanted, firsts]

/-- A string that is to be named goes to the end, unless it has come up before. -/
theorem firsts_concat (h : request.wanted? = some s) : firsts (log ++ [(request, reply)]) =
    if s ∈ firsts log then firsts log else firsts log ++ [s] := by
  have hwanted : wanted (log ++ [(request, reply)]) = wanted log ++ [s] := by simp [wanted, h]
  simp only [firsts, hwanted, ← List.cons_append, eraseDups_concat, List.mem_eraseDups]

/-- The more was asked, the more came up. -/
theorem length_firsts_le : (firsts log).length ≤ (firsts (log ++ [(request, reply)])).length := by
  cases h : request.wanted? with
  | none => exact Nat.le_of_eq (by rw [firsts_concat_of_none h])
  | some s =>
    rw [firsts_concat h]
    split
    · exact Nat.le_refl _
    · exact Nat.le_of_lt (by simp)

theorem mem_firsts_iff : s ∈ firsts log ↔ s = "" ∨ s ∈ wanted log := by
  rw [firsts, List.mem_eraseDups, List.mem_cons]

end Interner

open Interner (Request Reply Log firsts wanted WasNamed capacity)

namespace InternTable

variable {t t' : InternTable} {log : Log} {request : Request} {reply : Reply} {s r : String}
variable {n m : Name}

/-! ## The two tables -/

/-- The two tables are inverse: a string has a name in the map exactly if it is at the place
that the name numbers. -/
def Inverse (t : InternTable) : Prop :=
  ∀ s n, t.map.find? s = some n ↔ t.strings[n.raw]? = some s

theorem inverse_fresh : fresh.Inverse := by
  rintro s ⟨raw⟩
  rw [fresh, Table.find?_insert]
  cases raw with
  | zero =>
    simp [Name.empty]
  | succ raw => simp [Name.empty]

/-- **A string that is new may be pushed and then given the number of its place.** Between the
two writes the tables are not inverse, and nobody sees them then. -/
theorem Inverse.assign_push (h : t.Inverse) (hs : t.get? s = none) :
    ((t.push s).assign s ⟨t.size⟩).Inverse := by
  intro r n
  have hplace : t.strings[t.size]? = none := List.getElem?_eq_none (Nat.le_refl _)
  have hlast : n.raw = t.strings.length ↔ (⟨t.size⟩ : Name) = n := by
    cases n
    simp [size, eq_comm]
  simp only [assign, push, Table.find?_insert, getElem?_concat, beq_iff_eq, hlast]
  by_cases hr : s = r
  · subst hr
    rw [if_pos rfl, Option.some.injEq]
    split
    · rename_i hn
      exact iff_of_true hn rfl
    · rename_i hn
      refine iff_of_false hn fun hold => ?_
      exact Option.some_ne_none n (((h s n).2 hold).symm.trans hs)
  · rw [if_neg hr]
    split
    · rename_i hn
      subst hn
      refine iff_of_false (fun hold => ?_) fun heq => hr (Option.some.inj heq)
      exact Option.some_ne_none r (((h r _).1 hold).symm.trans hplace)
    · exact h r n

/-- A name found for a string has that string. -/
theorem Inverse.lookup_of_get? (h : t.Inverse) (hn : t.get? s = some n) : t.lookup n = s := by
  rw [lookup, (h s n).1 hn, Option.getD_some]

/-- The strings that have names are those at some place. -/
theorem Inverse.get?_eq_none_iff (h : t.Inverse) : t.get? s = none ↔ s ∉ t.strings := by
  rw [List.mem_iff_getElem?, Option.eq_none_iff_forall_ne_some]
  constructor
  · rintro hnone ⟨i, hi⟩
    exact hnone ⟨i⟩ ((h s ⟨i⟩).2 hi)
  · intro hnew n hn
    exact hnew ⟨n.raw, (h s n).1 hn⟩

/-- No string is at two places, since it has one name. -/
theorem Inverse.nodup (h : t.Inverse) : t.strings.Nodup := by
  refine List.pairwise_iff_getElem.2 fun i j hi hj hlt heq => ?_
  have hfirst : t.map.find? t.strings[i] = some ⟨i⟩ := (h _ ⟨i⟩).2 (List.getElem?_eq_getElem hi)
  have hsecond : t.map.find? t.strings[i] = some ⟨j⟩ :=
    (h _ ⟨j⟩).2 (heq ▸ List.getElem?_eq_getElem hj)
  have hname : (⟨i⟩ : Name) = ⟨j⟩ := Option.some.inj (hfirst.symm.trans hsecond)
  exact Nat.ne_of_lt hlt (congrArg Name.raw hname)

/-! ## Naming a string -/

/-- **The first look decides nothing.** Whether it is made at once or long before, what is
replied and written is settled by who may write. -/
theorem tryIntern_eq_write : t.tryIntern s = t.write s := by
  unfold tryIntern write
  split <;> rfl

theorem tryIntern_of_get?_eq_some (h : t.get? s = some n) : t.tryIntern s = .ok (n, t) := by
  have hfind : t.map.find? s = some n := h
  simp only [tryIntern, hfind]

theorem tryIntern_of_get?_eq_none (h : t.get? s = none) : t.tryIntern s =
    if capacity ≤ t.size then .error (.overflow t.size)
    else .ok (⟨t.size⟩, (t.push s).assign s ⟨t.size⟩) := by
  have hfind : t.map.find? s = none := h
  rw [tryIntern_eq_write, write, hfind]
  rfl

/-- A string has been given a name: it is found under it, what had a name has kept it, and the
string is last if it is new. -/
structure Interned (t : InternTable) (s : String) (n : Name) (t' : InternTable) : Prop where
  inverse : t'.Inverse
  found : t'.get? s = some n
  kept : ∀ r m, t.get? r = some m → t'.get? r = some m
  strings : t'.strings = if s ∈ t.strings then t.strings else t.strings ++ [s]

/-- **What it is to name a string,** however that comes about. -/
theorem Inverse.interned (h : t.Inverse) (ht : t.tryIntern s = .ok (n, t')) :
    t.Interned s n t' := by
  cases hs : t.get? s with
  | some m =>
    rw [tryIntern_of_get?_eq_some hs] at ht
    cases ht
    have hmem : s ∈ t.strings := List.mem_of_getElem? ((h s n).1 hs)
    exact ⟨h, hs, fun _ _ hold => hold, (if_pos hmem).symm⟩
  | none =>
    have hnew : s ∉ t.strings := h.get?_eq_none_iff.1 hs
    rw [tryIntern_of_get?_eq_none hs] at ht
    split at ht
    · cases ht
    · cases ht
      refine ⟨h.assign_push hs, ?_, fun r m hold => ?_, (if_neg hnew).symm⟩
      · simp [get?, assign, push, Table.find?_insert]
      · have hne : ¬ (s == r) = true := fun heq => by
          rw [eq_of_beq heq, hold] at hs
          cases hs
        simpa only [get?, assign, push, Table.find?_insert, if_neg hne] using hold

/-- A string has a name or is given one, if there is room for one. -/
theorem exists_tryIntern_eq_ok (hroom : t.get? s = none → t.size < capacity) :
    ∃ n t', t.tryIntern s = .ok (n, t') := by
  cases hs : t.get? s with
  | some n => exact ⟨n, t, tryIntern_of_get?_eq_some hs⟩
  | none => exact ⟨_, _, (tryIntern_of_get?_eq_none hs).trans (if_neg (Nat.not_le.2 (hroom hs)))⟩

/-- **Nothing changes if nothing is to be named.** -/
theorem ask_of_wanted?_eq_none (h : request.wanted? = none) : (t.ask request).2 = t := by
  cases request with
  | intern s | tryIntern s => cases h
  | get s | lookup n | size => rfl

/-- Both requests that want a string named are replied its name. -/
theorem ask_of_wanted? (h : request.wanted? = some s) (ht : t.tryIntern s = .ok (n, t')) :
    t.ask request = (.named n, t') := by
  cases request with
  | get s | lookup n | size => cases h
  | intern s' | tryIntern s' =>
    cases h
    simp only [ask, ht]

/-! ## What an interner holds -/

/-- What an interner holds is what was to be named, in the order in which it came up, and each
string was given the name that it has. -/
structure Numbered (t : InternTable) (log : Log) : Prop where
  inverse : t.Inverse
  strings : t.strings = firsts log
  named : ∀ request reply s, (request, reply) ∈ log → request.wanted? = some s →
    ∃ n, reply = .named n ∧ t.get? s = some n

/-- A new interner was asked nothing, and holds the empty string. -/
theorem numbered_fresh : fresh.Numbered [] where
  inverse := inverse_fresh
  strings := rfl
  named _ _ _ h := by cases h

theorem Numbered.get?_eq_none_iff (h : t.Numbered log) : t.get? s = none ↔ s ∉ firsts log := by
  rw [h.inverse.get?_eq_none_iff, h.strings]

/-- There is room for a string that is new, if there is room for all that comes up with it. -/
theorem Numbered.size_lt (h : t.Numbered log) (hw : request.wanted? = some s)
    (hroom : (firsts (log ++ [(request, reply)])).length ≤ capacity) (hnone : t.get? s = none) :
    t.size < capacity := by
  rw [Interner.firsts_concat hw, if_neg (h.get?_eq_none_iff.1 hnone), ← h.strings,
    List.length_append] at hroom
  exact hroom

/-- **One request** adds the string that it wants named, if that is new, and the reply is the
name that the string then has. -/
theorem Numbered.ask (h : t.Numbered log) (hr : t.ask request = (reply, t'))
    (hroom : (firsts (log ++ [(request, reply)])).length ≤ capacity) :
    t'.Numbered (log ++ [(request, reply)]) := by
  cases hw : request.wanted? with
  | none =>
    obtain rfl : t = t' := (ask_of_wanted?_eq_none hw).symm.trans (congrArg Prod.snd hr)
    refine ⟨h.inverse, h.strings.trans (Interner.firsts_concat_of_none hw).symm,
      fun request' reply' s' hmem hw' => ?_⟩
    rcases List.mem_append.1 hmem with hmem | hmem
    · exact h.named request' reply' s' hmem hw'
    · cases List.mem_singleton.1 hmem
      rw [hw] at hw'
      cases hw'
  | some s =>
    obtain ⟨n, after, hafter⟩ := exists_tryIntern_eq_ok (h.size_lt hw hroom)
    have hinterned := h.inverse.interned hafter
    obtain ⟨rfl, rfl⟩ := Prod.mk.inj ((ask_of_wanted? hw hafter).symm.trans hr)
    refine ⟨hinterned.inverse, ?_, fun request' reply' s' hmem hw' => ?_⟩
    · rw [hinterned.strings, Interner.firsts_concat hw, h.strings]
    · rcases List.mem_append.1 hmem with hmem | hmem
      · obtain ⟨m, hm, hget⟩ := h.named request' reply' s' hmem hw'
        exact ⟨m, hm, hinterned.kept s' m hget⟩
      · cases List.mem_singleton.1 hmem
        obtain rfl : s = s' := Option.some.inj (hw.symm.trans hw')
        exact ⟨n, rfl, hinterned.found⟩

/-- A string that was named has the name that it was given. -/
theorem Numbered.get?_of_wasNamed (h : t.Numbered log) (hn : WasNamed log s n) :
    t.get? s = some n := by
  obtain ⟨request, hw, hmem⟩ := hn
  obtain ⟨m, hm, hget⟩ := h.named request _ s hmem hw
  rw [hget, Reply.named.inj hm]

/-- A string has a name if it is empty, or was given one. -/
theorem Numbered.eq_empty_or_wasNamed (h : t.Numbered log) (hn : t.get? s = some n) :
    s = "" ∨ WasNamed log s n := by
  have hmem : s ∈ firsts log := by
    rw [← h.strings]
    exact List.mem_of_getElem? ((h.inverse s n).1 hn)
  rcases Interner.mem_firsts_iff.1 hmem with hs | hmem
  · exact .inl hs
  · obtain ⟨⟨request, reply⟩, hentry, hw⟩ := List.mem_filterMap.1 hmem
    obtain ⟨m, rfl, hm⟩ := h.named request reply s hentry hw
    exact .inr ⟨request, hw, Option.some.inj (hm.symm.trans hn) ▸ hentry⟩

/-- Each string is counted once. -/
theorem Numbered.size_eq (h : t.Numbered log) : t.size = ("" :: wanted log).toFinset.card := by
  have hset : ("" :: wanted log).toFinset = t.strings.toFinset := by
    ext s
    rw [List.mem_toFinset, List.mem_toFinset, h.strings, firsts, List.mem_eraseDups]
  rw [hset, List.toFinset_card_of_nodup h.inverse.nodup, size]

/-- A name that was not given out has the empty string. -/
theorem Numbered.lookup_eq_empty (h : t.Numbered log) (hn : ∀ s, ¬ WasNamed log s n) :
    t.lookup n = "" := by
  cases htext : t.strings[n.raw]? with
  | none => rw [lookup, htext, Option.getD_none]
  | some s =>
    have hget : t.get? s = some n := (h.inverse s n).2 htext
    rw [h.inverse.lookup_of_get? hget]
    exact (h.eq_empty_or_wasNamed hget).resolve_right (hn s)

/-- Strings and names are one to one in an interner that was asked what a log lists. -/
structure OneToOne (t : InternTable) (log : Log) : Prop where
  /-- A name is found for a string exactly if the string is found for the name. -/
  inverse : ∀ s n, t.map.find? s = some n ↔ t.strings[n.raw]? = some s
  /-- What was to be named was given a name. The string has it, and the name has the string. -/
  named : ∀ request reply s, (request, reply) ∈ log → request.wanted? = some s →
    ∃ n, reply = .named n ∧ t.lookup n = s ∧ t.get? s = some n
  /-- Two strings were given one name exactly if they are the same. -/
  injective : ∀ s n s' n', WasNamed log s n → WasNamed log s' n' → (n = n' ↔ s = s')
  /-- No name is found exactly for the strings that were not to be named. -/
  missed : ∀ s, t.get? s = none ↔ s ≠ "" ∧ s ∉ wanted log
  /-- The names are numbered in the order in which the strings came up. -/
  consecutive : ∀ s n, t.get? s = some n ↔ (firsts log)[n.raw]? = some s
  /-- There are as many strings as came up, the empty one counted. -/
  counted : t.size = ("" :: wanted log).toFinset.card
  /-- A name that was not given out has the empty string. -/
  blank : ∀ n, (∀ s, ¬ WasNamed log s n) → t.lookup n = ""

theorem Numbered.oneToOne (h : t.Numbered log) : t.OneToOne log where
  inverse := h.inverse
  named request reply s hmem hw := by
    obtain ⟨n, hreply, hget⟩ := h.named request reply s hmem hw
    exact ⟨n, hreply, h.inverse.lookup_of_get? hget, hget⟩
  injective s n s' n' hn hn' := by
    have hs := h.get?_of_wasNamed hn
    have hs' := h.get?_of_wasNamed hn'
    constructor
    · rintro rfl
      rw [← h.inverse.lookup_of_get? hs, ← h.inverse.lookup_of_get? hs']
    · rintro rfl
      exact Option.some.inj (hs.symm.trans hs')
  missed s := by rw [h.get?_eq_none_iff, Interner.mem_firsts_iff, not_or]
  consecutive s n := by
    rw [← h.strings]
    exact h.inverse s n
  counted := h.size_eq
  blank _ hn := h.lookup_eq_empty hn

end InternTable

/-! ## Handles of one interner -/

namespace SharedInterners

/-- What one interner was asked and replied since some point, oldest first, through any handles
that lead to it. Others are asked in between, and there come to be more interners, and more
handles to this one and to others. -/
inductive Asked (place : Nat) (p : SharedInterners) : SharedInterners → Log → Prop
  | start : Asked place p p []
  | ask {p₁ p₂ : SharedInterners} {log : Log} {handle : Nat} {request : Request} {reply : Reply}
      (h : Asked place p p₁ log) (hplace : p₁.handles[handle]? = some place)
      (hr : p₁.ask? handle request = some (reply, p₂)) :
      Asked place p p₂ (log ++ [(request, reply)])
  | askOther {p₁ p₂ : SharedInterners} {log : Log} {handle : Nat} {request : Request}
      {reply : Reply} (h : Asked place p p₁ log) (hplace : p₁.handles[handle]? ≠ some place)
      (hr : p₁.ask? handle request = some (reply, p₂)) : Asked place p p₂ log
  | new {p₁ : SharedInterners} {log : Log} (h : Asked place p p₁ log) : Asked place p p₁.new log
  | clone {p₁ : SharedInterners} {log : Log} (h : Asked place p p₁ log) (handle : Nat) :
      Asked place p (p₁.clone handle) log

variable {p p₁ : SharedInterners} {t : InternTable} {place handle : Nat} {log : Log}
variable {request : Request} {reply : Reply}

/-- **Through whichever handle, it is the table that is asked.** -/
theorem ask?_eq (hplace : p.handles[handle]? = some place) (ht : p.tables[place]? = some t) :
    p.ask? handle request = some ((t.ask request).1,
      { p with tables := p.tables.set place (t.ask request).2 }) := by
  simp only [ask?, hplace, ht, Option.map_some]

/-- A request through another handle leaves a table alone. -/
theorem tables_of_ask?_other (hplace : p.handles[handle]? ≠ some place)
    (hr : p.ask? handle request = some (reply, p₁)) : p₁.tables[place]? = p.tables[place]? := by
  cases hother : p.handles[handle]? with
  | none =>
    simp only [ask?, hother] at hr
    cases hr
  | some other =>
    have hne : other ≠ place := fun heq => hplace (heq ▸ hother)
    cases ht : p.tables[other]? with
    | none => simp [ask?, hother, ht] at hr
    | some t =>
      rw [ask?_eq hother ht] at hr
      cases hr
      exact List.getElem?_set_ne hne

/-- **What a new interner holds is read off what it was asked,** as long as there is room. -/
theorem Asked.numbered (h : Asked p.tables.length p.new p₁ log)
    (hroom : (firsts log).length ≤ capacity) :
    ∃ t, p₁.tables[p.tables.length]? = some t ∧ t.Numbered log := by
  induction h with
  | start => exact ⟨.fresh, List.getElem?_concat_length, InternTable.numbered_fresh⟩
  | ask _ hplace hr ih =>
    obtain ⟨t, ht, hnumbered⟩ := ih (Nat.le_trans Interner.length_firsts_le hroom)
    rw [ask?_eq hplace ht] at hr
    cases hr
    exact ⟨_, List.getElem?_set_self (List.getElem?_eq_some_iff.1 ht).1, hnumbered.ask rfl hroom⟩
  | askOther _ hplace hr ih =>
    rw [tables_of_ask?_other hplace hr]
    exact ih hroom
  | new _ ih =>
    obtain ⟨t, ht, hnumbered⟩ := ih hroom
    exact ⟨t, (List.getElem?_append_left (List.getElem?_eq_some_iff.1 ht).1).trans ht, hnumbered⟩
  | clone _ _ ih => exact ih hroom

/-- **Strings and names are one to one,** for all who hold a new interner, at every point of a
run, as long as there is room for the strings that are to be named. What one of them asks is
asked of the interner, whichever handle leads to it, and only a string that is to be named can
change anything. -/
theorem Asked.one_to_one (h : Asked p.tables.length p.new p₁ log)
    (hroom : (firsts log).length ≤ capacity) :
    ∃ t, p₁.tables[p.tables.length]? = some t ∧ t.OneToOne log ∧
      ∀ handle request, p₁.handles[handle]? = some p.tables.length → ∃ p₂,
        p₁.ask? handle request = some ((t.ask request).1, p₂) ∧
          p₂.tables[p.tables.length]? = some (t.ask request).2 ∧
          (request.wanted? = none → p₂ = p₁) := by
  obtain ⟨t, ht, hnumbered⟩ := h.numbered hroom
  obtain ⟨hlt, htable⟩ := List.getElem?_eq_some_iff.1 ht
  refine ⟨t, ht, hnumbered.oneToOne, fun handle request hplace => ?_⟩
  refine ⟨_, ask?_eq hplace ht, List.getElem?_set_self hlt, fun hw => ?_⟩
  rw [InternTable.ask_of_wanted?_eq_none hw, ← htable, List.set_getElem_self]

end SharedInterners

namespace Sample

/-- A price is to be named through one handle, then a cost and the price again through another. -/
def costed : Interner.Log :=
  [(.intern "price", .named ⟨1⟩), (.intern "cost", .named ⟨2⟩), (.tryIntern "price", .named ⟨1⟩)]

/-- The table with the price. -/
def priceTable : InternTable where
  map := ⟨[("", ⟨0⟩), ("price", ⟨1⟩)]⟩
  strings := ["", "price"]

/-- The table with the price and the cost. -/
def costTable : InternTable where
  map := ⟨[("", ⟨0⟩), ("price", ⟨1⟩), ("cost", ⟨2⟩)]⟩
  strings := ["", "price", "cost"]

/-- Two handles that lead to one table. -/
def twoHandles (t : InternTable) : SharedInterners := ⟨[t], [0, 0]⟩

theorem asked_costed :
    SharedInterners.Asked 0 ({} : SharedInterners).new (twoHandles costTable) costed := by
  have hcloned : SharedInterners.Asked 0 ({} : SharedInterners).new (twoHandles .fresh) [] :=
    .clone .start 0
  have hprice : (twoHandles .fresh).ask? 0 (.intern "price") =
      some (.named ⟨1⟩, twoHandles priceTable) := rfl
  have hcost : (twoHandles priceTable).ask? 1 (.intern "cost") =
      some (.named ⟨2⟩, twoHandles costTable) := rfl
  have hagain : (twoHandles costTable).ask? 1 (.tryIntern "price") =
      some (.named ⟨1⟩, twoHandles costTable) := rfl
  exact ((hcloned.ask rfl hprice).ask rfl hcost).ask rfl hagain

end Sample

namespace SharedInterners

/-- The price has the name that was given through the first handle, also through the second
one. There are three strings, and a tax is not among them. -/
theorem one_to_one_costed :
    Asked 0 ({} : SharedInterners).new (Sample.twoHandles Sample.costTable) Sample.costed ∧
      (firsts Sample.costed).length ≤ capacity ∧
      Sample.costTable.lookup ⟨1⟩ = "price" ∧ Sample.costTable.get? "price" = some ⟨1⟩ ∧
      Sample.costTable.get? "tax" = none ∧ Sample.costTable.size = 3 ∧
      (Sample.twoHandles Sample.costTable).ask? 1 (.get "price") =
        some (.found (some ⟨1⟩), Sample.twoHandles Sample.costTable) := by
  have hfirsts : firsts Sample.costed = ["", "price", "cost"] := by decide
  have hroom : (firsts Sample.costed).length ≤ capacity := by
    rw [hfirsts]
    decide
  obtain ⟨t, ht, h, hasked⟩ := Asked.one_to_one (p := {}) Sample.asked_costed hroom
  cases ht
  have hprice : (.intern "price", .named ⟨1⟩) ∈ Sample.costed := List.mem_cons_self
  obtain ⟨n, hn, hlookup, hget⟩ := h.named _ _ "price" hprice rfl
  cases hn
  obtain ⟨p, hp, -, hsame⟩ := hasked 1 (.get "price") rfl
  cases hsame rfl
  exact ⟨Sample.asked_costed, hroom, hlookup, hget, (h.missed "tax").2 (by decide),
    h.counted.trans (by decide), hp⟩

end SharedInterners

end Formulary
