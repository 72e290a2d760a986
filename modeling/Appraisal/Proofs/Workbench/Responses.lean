import Appraisal.Workbench.Request
import Mathlib

/-!
# Settled responses

A response has three fields that could contradict each other. None of those that a workbench gives
does: it has data and no error, or it has an error and does not claim success. A rejected batch is
the only one that has an error and data beside it.
-/

namespace Appraisal

/-- A response says yes and has data, or it says no and tells why, with or without data. -/
inductive Response.Settled {α : Type} : Response α → Prop
  | answered (data : α) : Settled (.ok data)
  | refused (data : Option α) (error : Refusal) : Settled ⟨false, data, some error⟩

namespace Response

variable {α β : Type} {r : Response α}

theorem settled_ofResult (result : Except WorkbenchError α) : (ofResult result).Settled := by
  cases result with
  | ok data => exact .answered data
  | error e => exact .refused none e.refusal

theorem Settled.success_iff (hr : r.Settled) : r.success = true ↔ r.error = none := by
  cases hr with
  | answered data => exact iff_of_true rfl rfl
  | refused data error => exact iff_of_false Bool.false_ne_true (Option.some_ne_none error)

theorem Settled.map (hr : r.Settled) (f : α → β) : (r.map f).Settled := by
  cases hr with
  | answered data => exact .answered (f data)
  | refused data error => exact .refused (data.map f) error

end Response

namespace Workbench

variable {α β : Type} {m : Moment}

/-- Every response of the operation is settled. -/
def Op.Settles (op : Op α) : Prop :=
  ∀ w, (op w).1.Settled

theorem settles_ask (read : Workbench → Except WorkbenchError α) : (ask read).Settles :=
  fun w => Response.settled_ofResult (read w)

theorem settles_onEngine (op : Engine.Op α) : (onEngine op).Settles :=
  fun w => Response.settled_ofResult ((w.engine.run op).1.mapError .engine)

theorem settles_onStore (op : FormulaStore.Op α) : (onStore op).Settles :=
  fun w => Response.settled_ofResult ((w.store.run op).1.mapError .store)

theorem settles_batchUpdate (m : Moment) (updates : List AssumptionValue) :
    (batchUpdate m updates).Settles := by
  intro w
  simp only [batchUpdate]
  split
  · split
    · exact .answered _
    · exact .refused none _
  · exact .refused (some _) _

theorem settles_importState (m : Moment) (c : Checkpoint) : (importState m c).Settles := by
  intro w
  simp only [importState]
  split
  · exact .answered _
  · exact .refused none _

theorem Op.Settles.written {op : Op α} (h : op.Settles) (encode : α → Json) :
    (op.written encode).Settles :=
  fun w => (h w).map encode

/-- Whatever is asked, the response to it does not contradict itself. -/
theorem settles_answer (m : Moment) (request : Request) : (answer m request).Settles := by
  cases request with
  | updateAssumption => exact (settles_onEngine _).written _
  | batchUpdate updates => exact (settles_batchUpdate m updates).written _
  | resetAssumption | resetAllAssumptions => exact (settles_onEngine _).written _
  | importState c => exact (settles_importState m c).written _
  | createCustomFormula | activateCustomFormula => exact (settles_onStore _).written _
  | _ => exact (settles_ask _).written _

end Workbench

end Appraisal
