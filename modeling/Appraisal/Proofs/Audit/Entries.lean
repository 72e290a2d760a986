import Appraisal.Proofs.Audit.Order

/-!
# Entries and what they tell

An entry tells an action with its details. A log that starts empty numbers its entries from zero on,
and what the entries tell is what was recorded, in order.
-/

namespace Appraisal.Audit

/-- An action with its details, without the number and the time of an entry. -/
abbrev Event := Action × Json

def Entry.event (entry : Entry) : Event :=
  (entry.action, entry.details)

namespace Log

variable {l : Log}

theorem recordAll_append (l : Log) (events events' : List (Instant × Action × Json)) :
    l.recordAll (events ++ events') = (l.recordAll events).recordAll events' :=
  List.foldl_append

/-- What the entries tell, oldest first. -/
def told (l : Log) : List Event :=
  l.entries.map Entry.event

theorem told_record (l : Log) (now : Instant) (action : Action) (details : Json) :
    (l.record now action details).told = l.told ++ [(action, details)] := by
  simp [told, record, Entry.event]

theorem told_recordAll (l : Log) (now : Instant) (events : List Event) :
    (l.recordAll (events.map (now, ·))).told = l.told ++ events := by
  induction events generalizing l with
  | nil => simp
  | cons event events ih =>
    rw [List.map_cons, recordAll_cons, ih, told_record, List.append_assoc]
    rfl

/-- The entries are numbered from zero on, up to the greatest number and then from zero again. -/
def Numbered (l : Log) : Prop :=
  l.entries.map (·.sequence) = (List.range l.size).map Nat.toUInt64

theorem numbered_empty : empty.Numbered :=
  rfl

theorem Numbered.sequence_next (hl : l.Numbered) (now : Instant) (action : Action)
    (details : Json) : (l.next now action details).sequence = l.size.toUInt64 := by
  rcases l.entries_eq_nil_or_concat with h | ⟨before, last, h⟩
  · simp [next, size, h]
  · have hsize : l.size = before.length + 1 := by simp [size, h]
    have hlast : last.sequence = before.length.toUInt64 := by
      rw [Numbered, hsize, h, List.range_succ, List.map_append, List.map_append] at hl
      exact List.singleton_inj.1 (List.append_inj' hl rfl).2
    rw [next_of_concat h, hsize, hlast]
    exact (UInt64.ofNat_add _ _).symm

theorem Numbered.record (hl : l.Numbered) (now : Instant) (action : Action) (details : Json) :
    (l.record now action details).Numbered := by
  have hsize : (l.record now action details).size = l.size + 1 := by simp [size, Log.record]
  rw [Numbered, hsize, List.range_succ, List.map_append, ← hl]
  simp [Log.record, hl.sequence_next]

theorem Numbered.recordAll (hl : l.Numbered) (events : List (Instant × Action × Json)) :
    (l.recordAll events).Numbered := by
  induction events generalizing l with
  | nil => exact hl
  | cons event events ih => exact ih (hl.record _ _ _)

/-- As long as there are numbers, they are the positions. -/
theorem Numbered.map_toNat (hl : l.Numbered) (h : l.size ≤ 2 ^ 64) :
    l.entries.map (·.sequence.toNat) = List.range l.size := by
  calc l.entries.map (·.sequence.toNat)
      = (l.entries.map (·.sequence)).map UInt64.toNat := by rw [List.map_map]; rfl
    _ = (List.range l.size).map fun n => n % 2 ^ 64 := by rw [hl, List.map_map]; rfl
    _ = (List.range l.size).map id := by
        apply List.map_congr_left
        intro n hn
        have hn := List.mem_range.1 hn
        exact Nat.mod_eq_of_lt (by omega)
    _ = List.range l.size := List.map_id _

end Log

end Appraisal.Audit
