import Formulary.Dependency
import Formulary.Evaluation
import Formulary.Semantics
/-!
# Workspaces — several formula managers side by side

Managers may share their names, contexts may share a collector, and a context
refers to its manager, which goes on changing as instances and values come and
go. A workspace holds what is shared: the vocabularies, the managers over
them, and the collectors. The passes run in a workspace, on a context.
-/

namespace Formulary

/-- The number of a vocabulary among those of its workspace. -/
structure VocabularyId where
  index : Nat
  deriving DecidableEq

/-- How far the making of a formula manager has got. -/
inductive Stage where
  /-- The host is still making definitions. -/
  | draft (definitions : Definitions)
  /-- The manager is made. -/
  | made (manager : FormulaManager)

namespace Stage

/-- The definitions, whatever the stage. -/
def definitions : Stage → Definitions
  | draft d => d
  | made m => m.toDefinitions

/-- The stage with other definitions. -/
def withDefinitions (d : Definitions) : Stage → Stage
  | draft _ => draft d
  | made m => made { m with toDefinitions := d }

end Stage

/-- A formula manager of a workspace, its vocabulary, and the values the host stores for it. -/
structure Engine where
  /-- The vocabulary its names are in. -/
  vocabulary : VocabularyId
  /-- The manager, or what is to become of it. -/
  stage : Stage
  store : VariableStore := {}

/-- Vocabularies, formula managers and collectors. -/
structure Workspace where
  vocabularies : Array Interner := #[]
  engines : Array Engine := #[]
  collectors : Array DependencySet := #[]

namespace Workspace

instance : Inhabited Workspace := ⟨{}⟩

/-! ## Vocabularies -/

/-- Adds an empty vocabulary. -/
def addVocabulary (w : Workspace) : VocabularyId × Workspace :=
  (⟨w.vocabularies.size⟩, { w with vocabularies := w.vocabularies.push .fresh })

/-- The names of a vocabulary. -/
def vocabulary (w : Workspace) (id : VocabularyId) : Interner :=
  w.vocabularies[id.index]?.getD .fresh

/-- The workspace with other names in a vocabulary. -/
def setVocabulary (w : Workspace) (id : VocabularyId) (names : Interner) : Workspace :=
  { w with vocabularies := w.vocabularies.setIfInBounds id.index names }

/-! ## Formula managers -/

/-- Begins a formula manager over a vocabulary. -/
def addEngine (w : Workspace) (vocabulary : VocabularyId) : ManagerId × Workspace :=
  (⟨w.engines.size⟩, { w with engines := w.engines.push { vocabulary, stage := .draft {} } })

/-- The manager's place in the workspace. -/
def engine? (w : Workspace) (id : ManagerId) : Option Engine := w.engines[id.index]?

/-- The workspace with a manager's place changed. -/
def modifyEngine (w : Workspace) (id : ManagerId) (f : Engine → Engine) : Workspace :=
  { w with engines := w.engines.modify id.index f }

/-- The names a manager works with. -/
def names? (w : Workspace) (id : ManagerId) : Option Interner :=
  (w.engine? id).map fun e => w.vocabulary e.vocabulary

/-- The workspace after a manager's names have become more. -/
def setNames (w : Workspace) (id : ManagerId) (names : Interner) : Workspace :=
  match w.engine? id with
  | some e => w.setVocabulary e.vocabulary names
  | none => w

/-- The definitions of a manager, made or not, with the names as they are now. -/
def definitions? (w : Workspace) (id : ManagerId) : Option Definitions :=
  (w.engine? id).map fun e => { e.stage.definitions with names := w.vocabulary e.vocabulary }

/-- The definitions of a manager that is not made yet. -/
def draft? (w : Workspace) (id : ManagerId) : Option Definitions :=
  match w.engine? id with
  | some ⟨vocabulary, .draft d, _⟩ => some { d with names := w.vocabulary vocabulary }
  | _ => none

/-- The workspace with other definitions for a manager. -/
def setDefinitions (w : Workspace) (id : ManagerId) (d : Definitions) : Workspace :=
  (w.setNames id d.names).modifyEngine id fun e => { e with stage := e.stage.withDefinitions d }

/-- Makes a manager from its definitions. -/
def make (w : Workspace) (id : ManagerId) : Workspace :=
  w.modifyEngine id fun e =>
    match e.stage with
    | .draft d => { e with stage := .made (.ofDefinitions d) }
    | .made _ => e

/-- A manager that is made, with the names and the stored values as they are now. -/
def manager? (w : Workspace) (id : ManagerId) : Option FormulaManager :=
  match w.engine? id with
  | some ⟨vocabulary, .made m, store⟩ =>
    some { m with names := w.vocabulary vocabulary, stored := store.get? }
  | _ => none

/-- The workspace with another manager in place of a made one. -/
def setManager (w : Workspace) (id : ManagerId) (m : FormulaManager) : Workspace :=
  (w.setNames id m.names).modifyEngine id fun e => { e with stage := .made m }

/-- The values a host stores for a manager. -/
def store? (w : Workspace) (id : ManagerId) : Option VariableStore :=
  (w.engine? id).map Engine.store

/-- The workspace with other values stored for a manager. -/
def setStore (w : Workspace) (id : ManagerId) (store : VariableStore) : Workspace :=
  w.modifyEngine id fun e => { e with store }

/-! ## Collectors -/

/-- Adds an empty collector. -/
def addCollector (w : Workspace) : CollectorId × Workspace :=
  (⟨w.collectors.size⟩, { w with collectors := w.collectors.push {} })

/-- What a collector holds. -/
def collected (w : Workspace) (id : CollectorId) : DependencySet :=
  w.collectors[id.index]?.getD {}

/-- Puts a variable into a collector, and answers whether it is new there. -/
def collect (w : Workspace) (id : CollectorId) (v : VariableId) : Bool × Workspace :=
  (!(w.collected id).contains v,
    { w with collectors := w.collectors.modify id.index fun d => d.insert v })

/-- The workspace after variables have been put into a collector, one after another. -/
def collectAll (w : Workspace) (id : CollectorId) (vs : List VariableId) : Workspace :=
  vs.foldl (fun w v => (w.collect id v).2) w

/-- **What is put into a collector one after another** is put into what it holds, and nothing
else changes. -/
theorem collectAll_eq (w : Workspace) (id : CollectorId) (vs : List VariableId) :
    w.collectAll id vs =
      { w with collectors := w.collectors.modify id.index fun d => d.insertAll vs } := by
  induction vs generalizing w with
  | nil =>
    have hsame : (w.collectors.modify id.index fun d => d.insertAll []) = w.collectors := by
      refine Array.ext Array.size_modify fun k _ _ => ?_
      simp [Array.getElem_modify, DependencySet.insertAll]
    rw [hsame]
    rfl
  | cons v rest ih =>
    have hboth : ((w.collectors.modify id.index fun d => d.insert v).modify id.index fun d =>
        d.insertAll rest) = w.collectors.modify id.index fun d => d.insertAll (v :: rest) := by
      refine Array.ext (by simp) fun k _ _ => ?_
      simp only [Array.getElem_modify]
      split <;> rfl
    show (w.collect id v).2.collectAll id rest = _
    rw [ih, collect, hboth]

/-- A collector as shown to a developer. -/
def inspectCollector (w : Workspace) (id : CollectorId) : String :=
  s!"DependencyCollector({(w.collected id).size} variables)"

/-! ## The passes -/

/-- The manager a context refers to. -/
def managerOf (w : Workspace) (cx : ContextMap) : Except ConfigError FormulaManager :=
  match cx.get Key.manager with
  | .error e => .error e
  | .ok id =>
    match w.manager? id with
    | some m => .ok m
    | none => .error (.missingKey Key.manager.name)

/-- Checks a formula in the scope of a context. -/
def runSemantics (w : Workspace) (cx : ContextMap) (tree : FormulaTree) :
    Except (List SemanticsError) Format :=
  match w.managerOf cx with
  | .error e => .error [.config e]
  | .ok m =>
    match cx.get Key.scope with
    | .error e => .error [.config e]
    | .ok scope => Semantics.run m scope cx tree

/-- Puts what a formula needs into the collector of a context, and answers what
the collector then holds. -/
def runDependency (w : Workspace) (cx : ContextMap) (tree : FormulaTree) :
    Except DependencyError DependencySet × Workspace :=
  match w.managerOf cx with
  | .error e => (.error (.config e), w)
  | .ok m =>
    match cx.get Key.inst with
    | .error e => (.error (.config e), w)
    | .ok i =>
      let c := Dependency.run m i cx tree
      match cx.get Key.collector with
      | .error e => (.error (c.failure?.getD (.config e)), w)
      | .ok id =>
        let w := w.collectAll id c.recorded.toList
        match c.failure? with
        | some e => (.error e, w)
        | none => (.ok (w.collected id), w)

/-- Works a formula out for the instance of a context. -/
def runEvaluation (w : Workspace) (cx : ContextMap) (tree : FormulaTree) :
    Except EvalError Value :=
  match w.managerOf cx with
  | .error e => .error (.config e)
  | .ok m =>
    match cx.get Key.inst with
    | .error e => .error (.config e)
    | .ok i => Evaluation.run m i cx tree

end Workspace

end Formulary
