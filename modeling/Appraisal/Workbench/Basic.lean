import Appraisal.Engine.Checkpoint
import Appraisal.Settings.Basic
import Appraisal.Workbench.Error

/-!
# The workbench

Settings, an engine whose assumptions are browsed and edited, and the store of custom formulas.
Reports are calculated on engines of their own and leave the workbench as it is. A request is given
the moment at which it is made.
-/

namespace Appraisal

/-- What a request takes from outside: the time and an id that was never used before. -/
structure Moment where
  now : Instant
  freshId : String

structure Workbench where
  settings : Settings
  engine : Engine
  store : FormulaStore

namespace Workbench

/-- A request that answers with an `α`. -/
abbrev Op (α : Type) := StateM Workbench (Response α)

def withStore (settings : Settings) (store : FormulaStore) (now : Instant) : Workbench :=
  { settings, engine := .new now, store := { store with limits := settings.limits } }

/-- A workbench without custom formulas. -/
def new (settings : Settings) (now : Instant) : Workbench :=
  withStore settings (.empty settings.limits) now

/-- Answers from the workbench and leaves it as it is. -/
def ask {α : Type} (read : Workbench → Except WorkbenchError α) : Op α := fun w =>
  (.ofResult (read w), w)

/-- An operation on the browsed engine. -/
def onEngine {α : Type} (op : Engine.Op α) : Op α := fun w =>
  let (result, engine) := w.engine.run op
  (.ofResult (result.mapError .engine), { w with engine })

/-- An operation on the store. -/
def onStore {α : Type} (op : FormulaStore.Op α) : Op α := fun w =>
  let (result, store) := w.store.run op
  (.ofResult (result.mapError .store), { w with store })

end Workbench

end Appraisal
