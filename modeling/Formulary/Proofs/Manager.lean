import Formulary.Proofs.Format.Registry
import Formulary.Proofs.Answers
import Formulary.Proofs.Variable.Resolution
/-!
# Managers, as they come about

A manager is made from definitions whose scopes and formats were added one by one,
and goes on by handing out instances and by releasing them. `Reached` lists what it
handed out, and holds however it went on (`Reached.newInstance`,
`Reached.releaseInstance`). An instance it handed out for a scope of its tree has
that very scope (`Reached.scope_eq`).
-/

namespace Formulary

namespace FormulaManager

/-- A manager whose scopes, formats and instances came about by its own operations,
and the instances it handed out. -/
structure Reached (m : FormulaManager) (handed : List ScopeInstance) : Prop where
  /-- The scopes were added one by one. -/
  scopes : m.scopes.Grown
  /-- The formats were registered one by one. -/
  formats : m.formats.Grown
  /-- The instances are of these scopes. -/
  instances : m.instances.Served m.scopes handed

variable {m m' : FormulaManager} {handed : List ScopeInstance} {scope : LegalScope}
variable {i : ScopeInstance}

/-- A manager that is just made has handed out nothing. -/
theorem reached_ofDefinitions {d : Definitions} (hs : d.scopes.Grown) (hf : d.formats.Grown) :
    (ofDefinitions d).Reached [] := ⟨hs, hf, .start⟩

/-- One more instance, of a scope of the tree and inside an instance handed out before. -/
theorem Reached.newInstance (h : m.Reached handed) {subject : String}
    {parent : Option ScopeInstance} (hs : scope ∈ m.scopes.scopes)
    (hp : ∀ p, parent = some p → p ∈ handed)
    (hi : m.newInstance scope subject parent = .ok (i, m')) : m'.Reached (i :: handed) := by
  obtain ⟨⟨j, instances⟩, hget, hpair⟩ := map_eq_ok_iff.1 hi
  cases hpair
  exact ⟨h.scopes, h.formats, .get h.instances hs hp hget⟩

/-- A release takes nothing back of what was handed out. -/
theorem Reached.releaseInstance (h : m.Reached handed) (i : ScopeInstance) :
    (m.releaseInstance i).Reached handed := ⟨h.scopes, h.formats, .release h.instances i⟩

/-- An instance that was handed out sees what its scope sees. -/
theorem Reached.mirrors (h : m.Reached handed) (hi : i ∈ handed) : i.Mirrors :=
  (h.instances.mirrors h.scopes.wellFormed hi).2

/-- **An instance of a scope of the tree has that scope,** and not just its number. -/
theorem Reached.scope_eq (h : m.Reached handed) (hi : i ∈ handed) (hs : scope ∈ m.scopes.scopes)
    (his : (i.scope == scope) = true) : i.scope = scope := by
  have ht := h.scopes.wellFormed
  exact ScopeTree.eq_of_id_eq ht (h.instances.mirrors ht hi).1 hs (LegalScope.beq_iff.1 his)

end FormulaManager

end Formulary
