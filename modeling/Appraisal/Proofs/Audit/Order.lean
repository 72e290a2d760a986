import Appraisal.Audit.Log
import Mathlib

/-!
# The order of the audit log

A log keeps its entries and their order in time under any readings of the clock. The numbers go on
increasing as long as there are numbers above the last one. After the greatest one a build with
checked arithmetic stops; one without goes on with zero, and then the log cannot be restored.
-/

namespace Appraisal.Audit.Log

variable {l : Log} {now : Instant} {action : Action} {details : Json}

def Increasing (l : Log) : Prop :=
  l.entries.Pairwise fun a b => a.sequence < b.sequence

def Chronological (l : Log) : Prop :=
  l.entries.Pairwise fun a b => a.timestamp.le b.timestamp = true

/-- The log after events at given readings of the clock. -/
def recordAll (l : Log) (events : List (Instant × Action × Json)) : Log :=
  events.foldl (fun l event => l.record event.1 event.2.1 event.2.2) l

/-- The same in a build that checks its arithmetic, as long as it does not stop. -/
def recordAll? (l : Log) (events : List (Instant × Action × Json)) : Option Log :=
  events.foldlM (fun l event => l.record? event.1 event.2.1 event.2.2) l

/-- How many sequence numbers are left above the last one. -/
def room (l : Log) : Nat :=
  match l.entries.getLast? with
  | some last => 2 ^ 64 - 1 - last.sequence.toNat
  | none => 2 ^ 64

theorem disorder?_eq_none_iff {a b : Entry} :
    disorder? a b = none ↔ a.sequence < b.sequence ∧ a.timestamp.le b.timestamp = true := by
  unfold disorder?
  split_ifs with hs ht
  · simp only [false_iff, not_and]
    intro h
    exact absurd h (UInt64.not_lt.2 hs)
  · simp_all
  · exact ⟨fun _ => ⟨UInt64.not_le.1 hs, by simpa using ht⟩, fun _ => rfl⟩

theorem firstDisorder?_eq_none_iff {entries : List Entry} :
    firstDisorder? entries = none ↔ entries.IsChain fun a b =>
      a.sequence < b.sequence ∧ a.timestamp.le b.timestamp = true := by
  induction entries with
  | nil => simp [firstDisorder?]
  | cons a rest ih =>
    cases rest with
    | nil => simp [firstDisorder?]
    | cons b rest =>
      rw [firstDisorder?, List.isChain_cons_cons, ← ih, ← disorder?_eq_none_iff]
      cases disorder? a b <;> simp

/-- A restored log is ordered throughout, not only from entry to entry. -/
theorem restore_eq_ok_iff {entries : List Entry} :
    restore entries = .ok l ↔ l.entries = entries ∧ l.Increasing ∧ l.Chronological := by
  have htrans : IsTrans Entry fun a b =>
      a.sequence < b.sequence ∧ a.timestamp.le b.timestamp = true :=
    ⟨fun _ _ _ h h' => ⟨UInt64.lt_trans h.1 h'.1, Instant.le_trans h.2 h'.2⟩⟩
  have hordered : firstDisorder? entries = none ↔
      (Log.mk entries).Increasing ∧ (Log.mk entries).Chronological := by
    rw [firstDisorder?_eq_none_iff, List.isChain_iff_pairwise, Increasing, Chronological,
      ← List.pairwise_and_iff]
  unfold restore
  cases h : firstDisorder? entries with
  | some reason =>
    simp only [reduceCtorEq, false_iff]
    rintro ⟨rfl, hl⟩
    simp [hordered.2 hl] at h
  | none =>
    simp only [Except.ok.injEq]
    constructor
    · rintro rfl
      exact ⟨rfl, hordered.1 h⟩
    · rintro ⟨rfl, -⟩
      rfl

theorem entries_eq_nil_or_concat (l : Log) :
    l.entries = [] ∨ ∃ before last, l.entries = before ++ [last] := by
  rcases List.eq_nil_or_concat l.entries with h | ⟨before, last, h⟩
  · exact .inl h
  · exact .inr ⟨before, last, by simpa using h⟩

@[simp] theorem next_action (l : Log) (now : Instant) (action : Action) (details : Json) :
    (l.next now action details).action = action := by
  unfold next
  split <;> rfl

@[simp] theorem next_details (l : Log) (now : Instant) (action : Action) (details : Json) :
    (l.next now action details).details = details := by
  unfold next
  split <;> rfl

theorem next_of_concat {before : List Entry} {last : Entry} (h : l.entries = before ++ [last]) :
    l.next now action details = ⟨last.sequence + 1, now.later last.timestamp, action, details⟩ := by
  simp [next, h]

/-- A clock that steps back does not put an entry before the last one. -/
theorem Chronological.record (hl : l.Chronological) :
    (l.record now action details).Chronological := by
  rcases l.entries_eq_nil_or_concat with h | ⟨before, last, h⟩
  · simp [Chronological, Log.record, h]
  · have hlast : last.timestamp.le (now.later last.timestamp) = true := Instant.le_later_right _ _
    simp only [Chronological, Log.record, next_of_concat h, h, List.pairwise_append,
      List.mem_append, List.mem_singleton, List.pairwise_singleton, forall_eq, true_and] at hl ⊢
    refine ⟨hl, ?_⟩
    rintro a (ha | rfl)
    · exact Instant.le_trans (hl.2 a ha) hlast
    · exact hlast

theorem lt_add_one_iff {n : UInt64} : n < n + 1 ↔ n.toNat ≠ 2 ^ 64 - 1 := by
  have hn := n.toNat_lt
  rw [UInt64.lt_iff_toNat_lt, UInt64.toNat_add, UInt64.toNat_one]
  omega

theorem increasing_record_iff :
    (l.record now action details).Increasing ↔ l.Increasing ∧ 0 < l.room := by
  rcases l.entries_eq_nil_or_concat with h | ⟨before, last, h⟩
  · simp [Increasing, Log.record, room, h]
  · have hn := last.sequence.toNat_lt
    have hroom : 0 < l.room ↔ last.sequence < last.sequence + 1 := by
      rw [lt_add_one_iff]
      simp only [room, h, List.getLast?_concat]
      omega
    rw [hroom]
    simp only [Increasing, Log.record, next_of_concat h, h, List.pairwise_append,
      List.mem_append, List.mem_singleton, List.pairwise_singleton, forall_eq, true_and]
    constructor
    · rintro ⟨hl, hnext⟩
      exact ⟨hl, hnext last (.inr rfl)⟩
    · rintro ⟨hl, hlast⟩
      refine ⟨hl, ?_⟩
      rintro a (ha | rfl)
      · exact UInt64.lt_trans (hl.2 a ha) hlast
      · exact hlast

theorem room_record (h : 0 < l.room) : (l.record now action details).room = l.room - 1 := by
  have hconcat : (l.record now action details).room =
      2 ^ 64 - 1 - (l.next now action details).sequence.toNat := by
    simp [room, Log.record]
  rw [hconcat]
  rcases l.entries_eq_nil_or_concat with hnil | ⟨before, last, hlast⟩
  · simp [room, next, hnil]
  · rw [next_of_concat hlast]
    simp only [room, hlast, List.getLast?_concat] at h ⊢
    have hn := last.sequence.toNat_lt
    rw [UInt64.toNat_add, UInt64.toNat_one]
    omega

theorem add_one_eq_zero_iff {n : UInt64} : n + 1 = 0 ↔ n.toNat = 2 ^ 64 - 1 := by
  have hn := n.toNat_lt
  rw [← UInt64.toNat_inj, UInt64.toNat_add, UInt64.toNat_one, UInt64.toNat_zero]
  omega

theorem isFull_iff_room_eq_zero : l.isFull = true ↔ l.room = 0 := by
  rcases l.entries_eq_nil_or_concat with h | ⟨before, last, h⟩
  · simp [isFull, room, h]
  · have hn := last.sequence.toNat_lt
    simp only [isFull, room, h, List.getLast?_concat, Option.any_some, beq_iff_eq,
      add_one_eq_zero_iff]
    omega

theorem record?_eq_some_of_room (h : 0 < l.room) :
    l.record? now action details = some (l.record now action details) := by
  rw [record?, if_neg]
  rw [isFull_iff_room_eq_zero]
  omega

theorem record?_eq_none_of_room (h : l.room = 0) : l.record? now action details = none :=
  if_pos (isFull_iff_room_eq_zero.2 h)

@[simp] theorem recordAll_nil (l : Log) : l.recordAll [] = l := rfl

@[simp] theorem recordAll_cons (l : Log) (event : Instant × Action × Json)
    (events : List (Instant × Action × Json)) :
    l.recordAll (event :: events) = (l.record event.1 event.2.1 event.2.2).recordAll events := rfl

theorem prefix_recordAll (l : Log) (events : List (Instant × Action × Json)) :
    l.entries <+: (l.recordAll events).entries := by
  induction events generalizing l with
  | nil => exact List.prefix_rfl
  | cons event events ih => exact (List.prefix_append _ _).trans (ih _)

theorem size_recordAll (l : Log) (events : List (Instant × Action × Json)) :
    (l.recordAll events).size = l.size + events.length := by
  induction events generalizing l with
  | nil => rfl
  | cons event events ih =>
    rw [recordAll_cons, ih, List.length_cons]
    simp only [size, Log.record, List.length_append, List.length_singleton]
    omega

theorem Chronological.recordAll (hl : l.Chronological) (events : List (Instant × Action × Json)) :
    (l.recordAll events).Chronological := by
  induction events generalizing l with
  | nil => exact hl
  | cons event events ih => exact ih hl.record

/-- There is room for exactly as many records as there are numbers left. -/
theorem increasing_recordAll_iff (hl : l.Increasing) (events : List (Instant × Action × Json)) :
    (l.recordAll events).Increasing ↔ events.length ≤ l.room := by
  induction events generalizing l with
  | nil => simp [hl]
  | cons event events ih =>
    rw [recordAll_cons, List.length_cons]
    by_cases hroom : 0 < l.room
    · rw [ih (increasing_record_iff.2 ⟨hl, hroom⟩), room_record hroom]
      omega
    · constructor
      · intro h
        have hrecord : (l.record event.1 event.2.1 event.2.2).Increasing :=
          h.sublist (prefix_recordAll _ events).sublist
        exact absurd (increasing_record_iff.1 hrecord).2 hroom
      · intro h
        omega

/-- A build that checks its arithmetic keeps the same log, or it stops. -/
theorem recordAll?_eq (l : Log) (events : List (Instant × Action × Json)) :
    l.recordAll? events = if events.length ≤ l.room then some (l.recordAll events) else none := by
  induction events generalizing l with
  | nil => rfl
  | cons event events ih =>
    rw [recordAll?, List.foldlM_cons, List.length_cons]
    rcases Nat.eq_zero_or_pos l.room with hroom | hroom
    · rw [record?_eq_none_of_room hroom, if_neg (by omega)]
      rfl
    · rw [record?_eq_some_of_room hroom]
      refine (ih _).trans ?_
      rw [room_record hroom, recordAll_cons]
      exact if_congr (by omega) rfl rfl

theorem Increasing.hasOverflowed_eq_false (hl : l.Increasing) : l.hasOverflowed = false := by
  rw [Increasing] at hl
  rw [hasOverflowed]
  cases hentries : l.entries with
  | nil => rfl
  | cons first rest =>
    rw [hentries, List.pairwise_cons] at hl
    simp only [List.tail_cons, List.any_eq_false, beq_iff_eq]
    intro entry hentry hzero
    exact UInt64.not_lt_zero (hzero ▸ hl.1 entry hentry)

theorem hasOverflowed_mono {l' : Log} (h : l.entries <+: l'.entries)
    (hl : l.hasOverflowed = true) : l'.hasOverflowed = true := by
  obtain ⟨more, hmore⟩ := h
  rw [hasOverflowed, List.any_eq_true] at hl ⊢
  obtain ⟨entry, hentry, hzero⟩ := hl
  refine ⟨entry, ?_, hzero⟩
  rw [← hmore, List.tail_append_of_ne_nil (List.ne_nil_of_mem (List.mem_of_mem_tail hentry))]
  exact List.mem_append_left more hentry

theorem hasOverflowed_record (h : l.room = 0) (now : Instant) (action : Action) (details : Json) :
    (l.record now action details).hasOverflowed = true := by
  rcases l.entries_eq_nil_or_concat with hnil | ⟨before, last, hlast⟩
  · rw [room, hnil] at h
    cases h
  · have hzero : last.sequence + 1 = 0 := by
      simpa [isFull, hlast] using isFull_iff_room_eq_zero.2 h
    rw [hasOverflowed, Log.record, List.any_eq_true, List.tail_append_of_ne_nil (by simp [hlast])]
    refine ⟨l.next now action details, List.mem_append_right _ (List.mem_singleton_self _), ?_⟩
    rw [next_of_concat hlast, hzero]
    rfl

theorem hasOverflowed_recordAll_iff (hl : l.Increasing) (events : List (Instant × Action × Json)) :
    (l.recordAll events).hasOverflowed = true ↔ l.room < events.length := by
  induction events generalizing l with
  | nil => simp [hl.hasOverflowed_eq_false]
  | cons event events ih =>
    rw [recordAll_cons, List.length_cons]
    rcases Nat.eq_zero_or_pos l.room with hroom | hroom
    · have hoverflowed := hasOverflowed_mono (prefix_recordAll _ events)
        (hasOverflowed_record hroom event.1 event.2.1 event.2.2)
      exact iff_of_true hoverflowed (by omega)
    · rw [ih (increasing_record_iff.2 ⟨hl, hroom⟩), room_record hroom]
      omega

/-- A log that starts empty or restored keeps its entries and their order in time, and it can be
restored again if and only if the records do not run out of sequence numbers. If they do, a build
that checks its arithmetic stops, and one that does not shows it in the log. -/
theorem restore_recordAll_iff (hl : l = empty ∨ ∃ entries, restore entries = .ok l)
    (events : List (Instant × Action × Json)) :
    l.entries <+: (l.recordAll events).entries ∧
      (l.recordAll events).size = l.size + events.length ∧
      (l.recordAll events).Chronological ∧
      ((l.recordAll events).Increasing ↔ events.length ≤ l.room) ∧
      (restore (l.recordAll events).entries = .ok (l.recordAll events) ↔
        events.length ≤ l.room) ∧
      (l.recordAll? events = if events.length ≤ l.room then some (l.recordAll events) else none) ∧
      ((l.recordAll events).hasOverflowed = true ↔ l.room < events.length) := by
  have hordered : l.Increasing ∧ l.Chronological := by
    rcases hl with rfl | ⟨entries, h⟩
    · exact ⟨.nil, .nil⟩
    · exact (restore_eq_ok_iff.1 h).2
  have hchronological := hordered.2.recordAll events
  have hincreasing := increasing_recordAll_iff hordered.1 events
  refine ⟨prefix_recordAll l events, size_recordAll l events, hchronological, hincreasing, ?_,
    recordAll?_eq l events, hasOverflowed_recordAll_iff hordered.1 events⟩
  rw [restore_eq_ok_iff, ← hincreasing]
  exact ⟨fun h => h.2.1, fun h => ⟨rfl, h, hchronological⟩⟩

/-- The clock is set back by two seconds, and then by another one. -/
theorem restore_recordAll_of_clock_set_back :
    let l : Log := ⟨[⟨41, ⟨2999, 0⟩, .start, .object []⟩]⟩
    let events : List (Instant × Action × Json) :=
      [(⟨2997, 0⟩, .restoreCheckpoint, .object []), (⟨2996, 0⟩, .resetAllAssumptions, .object [])]
    restore l.entries = .ok l ∧ events.length ≤ l.room ∧
      restore (l.recordAll events).entries = .ok (l.recordAll events) ∧
      l.recordAll? events = some (l.recordAll events) := by
  intro l events
  have hl : restore l.entries = .ok l := rfl
  have hroom : events.length ≤ l.room := by decide
  obtain ⟨-, -, -, -, hrestore, hchecked, -⟩ := restore_recordAll_iff (.inr ⟨l.entries, hl⟩) events
  exact ⟨hl, hroom, hrestore.2 hroom, hchecked.trans (if_pos hroom)⟩

/-- A log may end in the greatest number. The next record stops a build that checks its arithmetic,
and in another one it gets the least number. -/
theorem not_increasing_after_greatest :
    let l : Log := ⟨[⟨18446744073709551615, ⟨0, 0⟩, .start, .object []⟩]⟩
    let after := l.record ⟨1, 0⟩ .restoreCheckpoint (.object [])
    restore l.entries = .ok l ∧ l.record? ⟨1, 0⟩ .restoreCheckpoint (.object []) = none ∧
      after.hasOverflowed = true ∧ ¬ after.Increasing ∧
      restore after.entries = .error (.invalidCheckpoint
        "audit sequence 0 follows 18446744073709551615") := by
  intro l after
  have hroom : l.room = 0 := by decide
  have hreason : firstDisorder? after.entries =
      some "audit sequence 0 follows 18446744073709551615" := by
    decide +kernel
  refine ⟨rfl, record?_eq_none_of_room hroom, hasOverflowed_record hroom .., fun h => ?_,
    by rw [restore, hreason]⟩
  exact (increasing_record_iff.1 h).2.ne' hroom

end Appraisal.Audit.Log
