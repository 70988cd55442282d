import Formulary.Proofs.Name.Numbering
import Formulary.Workspace
/-!
# Interners by one list, and by two tables

An interner keeps one list of strings and goes through it to find a name, where a table looks
into its map. Both hold the same (`InternTable.Mirrors`) if the two tables are inverse, and then
both reply the same and hold the same again (`InternTable.Mirrors.tryIntern`).

In a workspace an interner is shared by the managers over a vocabulary and by whoever keeps the
number of the vocabulary. All that it is asked there may as well be asked of a table through
handles (`Workspace.Asked.exists_table`).
-/

namespace Formulary

namespace Interner

/-- The reply to a request, and the interner after it. -/
def ask (names : Interner) : Request → Reply × Interner
  | .intern s => (.named (names.intern s).1, (names.intern s).2)
  | .tryIntern s =>
    match names.tryIntern s with
    | .ok (n, names') => (.named n, names')
    | .error e => (.refused e, names)
  | .get s => (.found (names.get? s), names)
  | .lookup n => (.text (names.lookup n), names)
  | .size => (.count names.size, names)

end Interner

namespace InternTable

variable {t : InternTable} {names : Interner} {request : Interner.Request} {s : String} {n : Name}

/-- A table and an interner have the same strings, and the map of the table says so too. -/
structure Mirrors (t : InternTable) (names : Interner) : Prop where
  inverse : t.Inverse
  strings : t.strings = names.strings

theorem mirrors_fresh : fresh.Mirrors .fresh := ⟨inverse_fresh, rfl⟩

namespace Mirrors

/-- **What is looked up is what is searched for.** -/
theorem get?_eq (h : t.Mirrors names) (s : String) : t.get? s = names.get? s := by
  refine Option.ext fun n => ?_
  rw [names.get?_eq_some_iff, ← h.strings]
  exact h.inverse s n

theorem lookup_eq (h : t.Mirrors names) (n : Name) : t.lookup n = names.lookup n := by
  rw [lookup, Interner.lookup, h.strings]

theorem size_eq (h : t.Mirrors names) : t.size = names.size := by
  rw [size, Interner.size, h.strings]

/-- **Both refuse a string, or both give it one name and hold the same again.** -/
theorem tryIntern (h : t.Mirrors names) (s : String) :
    (t.get? s = none ∧ Interner.capacity ≤ t.size ∧
      t.tryIntern s = .error (.overflow t.size) ∧
        names.tryIntern s = .error (.overflow t.size)) ∨
      ∃ t', t.tryIntern s = .ok ((names.intern s).1, t') ∧
        names.tryIntern s = .ok (names.intern s) ∧ t'.Mirrors (names.intern s).2 := by
  by_cases hfull : names.get? s = none ∧ Interner.capacity ≤ names.size
  · have hnone : t.get? s = none := (h.get?_eq s).trans hfull.1
    refine .inl ⟨hnone, h.size_eq ▸ hfull.2, ?_, ?_⟩
    · rw [tryIntern_of_get?_eq_none hnone, if_pos (h.size_eq ▸ hfull.2)]
    · rw [Interner.tryIntern, if_pos hfull, h.size_eq]
  · have hroom (hnone : t.get? s = none) : t.size < Interner.capacity := by
      rw [h.size_eq]
      exact Nat.not_le.1 fun hle => hfull ⟨(h.get?_eq s).symm.trans hnone, hle⟩
    obtain ⟨n, t', ht'⟩ := exists_tryIntern_eq_ok hroom
    have hinterned := h.inverse.interned ht'
    have hmirrors : t'.Mirrors (names.intern s).2 := by
      refine ⟨hinterned.inverse, ?_⟩
      rw [hinterned.strings, Interner.strings_intern]
      simp only [← h.get?_eq, h.inverse.get?_eq_none_iff, ← h.strings, ite_not]
    have hname : n = (names.intern s).1 := by
      have hfound := hinterned.found
      rw [hmirrors.get?_eq, Interner.get?_intern] at hfound
      exact (Option.some.inj hfound).symm
    exact .inr ⟨t', hname ▸ ht', if_neg hfull, hmirrors⟩

/-- **A request is replied alike,** unless the asker is to be stopped. -/
theorem ask (h : t.Mirrors names)
    (hroom : ∀ s, request = .intern s → t.get? s = none → t.size < Interner.capacity) :
    (t.ask request).1 = (names.ask request).1 ∧
      (t.ask request).2.Mirrors (names.ask request).2 := by
  cases request with
  | get s => exact ⟨congrArg _ (h.get?_eq s), h⟩
  | lookup n => exact ⟨congrArg _ (h.lookup_eq n), h⟩
  | size => exact ⟨congrArg _ h.size_eq, h⟩
  | intern s =>
    obtain ⟨hnone, hfull, -⟩ | ⟨t', ht, -, hmirrors⟩ := h.tryIntern s
    · exact absurd (hroom s rfl hnone) (Nat.not_lt.2 hfull)
    · simp only [InternTable.ask, Interner.ask, ht]
      exact ⟨trivial, hmirrors⟩
  | tryIntern s =>
    obtain ⟨-, -, ht, hnames⟩ | ⟨t', ht, hnames, hmirrors⟩ := h.tryIntern s
    · simp only [InternTable.ask, Interner.ask, ht, hnames]
      exact ⟨trivial, h⟩
    · simp only [InternTable.ask, Interner.ask, ht, hnames]
      exact ⟨trivial, hmirrors⟩

end Mirrors

end InternTable

/-! ## The vocabularies of a workspace -/

namespace Workspace

/-- Who may ask for names: whoever keeps the number of a vocabulary, and a manager over it. -/
inductive Handle where
  | vocabulary (v : VocabularyId)
  | manager (id : ManagerId)

/-- The vocabulary that a handle leads to. -/
def vocabularyOf? (w : Workspace) : Handle → Option VocabularyId
  | .vocabulary v => some v
  | .manager id => (w.engine? id).map Engine.vocabulary

/-- The reply to a request through a handle, and the workspace after it. -/
def ask? (w : Workspace) : Handle → Interner.Request → Option (Interner.Reply × Workspace)
  | .vocabulary v, request =>
    let (reply, names) := (w.vocabulary v).ask request
    some (reply, w.setVocabulary v names)
  | .manager id, request =>
    (w.names? id).map fun names =>
      let (reply, names) := names.ask request
      (reply, w.setNames id names)

/-- What one vocabulary was asked and replied since a workspace, oldest first. Other
vocabularies are asked in between, and there come to be more vocabularies and more managers
over this one and others. -/
inductive Asked (v : VocabularyId) (w : Workspace) : Workspace → Interner.Log → Prop
  | start : Asked v w w []
  | ask {w₁ w₂ : Workspace} {log : Interner.Log} {handle : Handle} {request : Interner.Request}
      {reply : Interner.Reply} (h : Asked v w w₁ log) (hv : w₁.vocabularyOf? handle = some v)
      (hr : w₁.ask? handle request = some (reply, w₂)) : Asked v w w₂ (log ++ [(request, reply)])
  | askOther {w₁ w₂ : Workspace} {log : Interner.Log} {handle : Handle}
      {request : Interner.Request} {reply : Interner.Reply} (h : Asked v w w₁ log)
      (hv : w₁.vocabularyOf? handle ≠ some v) (hr : w₁.ask? handle request = some (reply, w₂)) :
      Asked v w w₂ log
  | addVocabulary {w₁ : Workspace} {log : Interner.Log} (h : Asked v w w₁ log) :
      Asked v w w₁.addVocabulary.2 log
  | addEngine {w₁ : Workspace} {log : Interner.Log} (h : Asked v w w₁ log) (u : VocabularyId) :
      Asked v w (w₁.addEngine u).2 log

variable {w w₁ w₂ : Workspace} {v u : VocabularyId} {handle : Handle} {log : Interner.Log}
variable {request : Interner.Request} {reply : Interner.Reply} {names : Interner}

theorem vocabulary_setVocabulary (h : v.index < w.vocabularies.size) :
    (w.setVocabulary v names).vocabulary v = names := by
  simp [vocabulary, setVocabulary, h]

theorem vocabulary_setVocabulary_of_ne (h : u ≠ v) :
    (w.setVocabulary u names).vocabulary v = w.vocabulary v := by
  have hindex : u.index ≠ v.index := fun heq => h (congrArg VocabularyId.mk heq)
  simp [vocabulary, setVocabulary, hindex]

/-- **Through whichever handle, it is the vocabulary that is asked.** -/
theorem ask?_eq (h : w.vocabularyOf? handle = some v) :
    w.ask? handle request = some (((w.vocabulary v).ask request).1,
      w.setVocabulary v ((w.vocabulary v).ask request).2) := by
  cases handle with
  | vocabulary u =>
    cases h
    rfl
  | manager id =>
    obtain ⟨e, he, rfl⟩ := Option.map_eq_some_iff.1 h
    simp only [ask?, names?, setNames, he, Option.map_some]

/-- A request through the handle of another vocabulary leaves this one alone. -/
theorem vocabulary_of_ask?_other (hv : w.vocabularyOf? handle ≠ some v)
    (hr : w.ask? handle request = some (reply, w₁)) :
    w₁.vocabularies.size = w.vocabularies.size ∧ w₁.vocabulary v = w.vocabulary v := by
  cases hu : w.vocabularyOf? handle with
  | some u =>
    have hne : u ≠ v := fun h => hv (h ▸ hu)
    rw [ask?_eq hu] at hr
    cases hr
    exact ⟨Array.size_setIfInBounds, vocabulary_setVocabulary_of_ne hne⟩
  | none =>
    -- a handle that leads nowhere gets no reply
    cases handle with
    | vocabulary u => cases hu
    | manager id =>
      have hnone : w.engine? id = none := Option.map_eq_none_iff.1 hu
      simp [ask?, names?, hnone] at hr

/-- **A new vocabulary is asked as a table is,** as long as there is room: the same may be asked
of a new table through a handle, which gives the same replies and holds the same afterwards. -/
theorem Asked.exists_table (hnew : w.addVocabulary = (v, w₁)) (h : Asked v w₁ w₂ log)
    (hroom : (Interner.firsts log).length ≤ Interner.capacity) :
    v.index < w₂.vocabularies.size ∧ ∃ t,
      SharedInterners.Asked 0 ({} : SharedInterners).new ⟨[t], [0]⟩ log ∧ t.Numbered log ∧
        t.Mirrors (w₂.vocabulary v) := by
  have hstart : v.index < w₁.vocabularies.size ∧ w₁.vocabulary v = .fresh := by
    cases hnew
    simp [vocabulary]
  induction h with
  | start =>
    exact ⟨hstart.1, .fresh, .start, InternTable.numbered_fresh,
      hstart.2 ▸ InternTable.mirrors_fresh⟩
  | @ask w₂ w₃ log handle request reply _ hv hr ih =>
    obtain ⟨hlt, t, hasked, hnumbered, hmirrors⟩ :=
      ih (Nat.le_trans Interner.length_firsts_le hroom)
    have hfits (s : String) (hs : request = .intern s) : t.get? s = none →
        t.size < Interner.capacity :=
      hnumbered.size_lt (congrArg Interner.Request.wanted? hs) hroom
    obtain ⟨hreply, hafter⟩ := hmirrors.ask hfits
    rw [ask?_eq hv, ← hreply] at hr
    cases hr
    have htable : (⟨[t], [0]⟩ : SharedInterners).ask? 0 request =
        some ((t.ask request).1, ⟨[(t.ask request).2], [0]⟩) := rfl
    rw [vocabulary_setVocabulary hlt]
    exact ⟨by simpa [setVocabulary] using hlt, _, hasked.ask rfl htable, hnumbered.ask rfl hroom,
      hafter⟩
  | askOther _ hv hr ih =>
    obtain ⟨hsize, hsame⟩ := vocabulary_of_ask?_other hv hr
    rw [hsize, hsame]
    exact ih hroom
  | @addVocabulary w₂ log _ ih =>
    obtain ⟨hlt, htable⟩ := ih hroom
    have hsame : w₂.addVocabulary.2.vocabulary v = w₂.vocabulary v := by
      simp only [vocabulary, Workspace.addVocabulary, Array.getElem?_push,
        if_neg (Nat.ne_of_lt hlt)]
    exact ⟨by simpa [Workspace.addVocabulary] using Nat.lt_succ_of_lt hlt, hsame ▸ htable⟩
  | addEngine _ u ih => exact ih hroom

end Workspace

end Formulary
