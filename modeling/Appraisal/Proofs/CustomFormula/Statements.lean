import Appraisal.CustomFormula.Store
import Appraisal.Proofs.Except
import Mathlib.Data.List.Basic

/-!
# Statements and transactions of the store

What saving and activating answer and what they leave behind. A refused transaction leaves nothing
behind, and the unique indexes say that the rows of the table stand apart from each other.
-/

namespace Appraisal

namespace FormulaStore

section Op

variable {α β : Type} (s : FormulaStore)

theorem run_bind (op : Op α) (f : α → Op β) :
    s.run (op >>= f) = match s.run op with
      | (.ok a, s') => s'.run (f a)
      | (.error problem, s') => (.error problem, s') := by
  simp only [run, bind, ExceptT.bind, ExceptT.mk, ExceptT.run, StateT.run, StateT.bind]
  rcases op s with ⟨_ | _, s'⟩ <;> rfl

theorem run_tryCatch (op : Op α) (handle : StoreError → Op α) :
    s.run (tryCatch op handle) = match s.run op with
      | (.ok a, s') => (.ok a, s')
      | (.error problem, s') => s'.run (handle problem) := by
  simp only [run, tryCatch, tryCatchThe, MonadExceptOf.tryCatch, ExceptT.tryCatch, ExceptT.mk,
    ExceptT.run, StateT.run, bind, StateT.bind]
  rcases op s with ⟨_ | _, s'⟩ <;> rfl

@[simp] theorem run_ask (read : FormulaStore → Except StoreError α) :
    s.run (Op.ask read) = (read s, s) := rfl

theorem run_write (change : List StoredFormula → List StoredFormula) :
    s.run (Op.write change) = match s.changed change with
      | .ok s' => (.ok (), s')
      | .error problem => (.error problem, s) := by
  rw [Op.write, run_bind, run_ask]
  cases s.changed change <;> rfl

theorem run_transaction (op : Op α) :
    s.run (Op.transaction op) = match s.run op with
      | (.ok a, s') => (.ok a, s')
      | (.error problem, _) => (.error problem, s) := by
  rw [Op.transaction, run_bind]
  change s.run (tryCatch op _) = _
  rw [run_tryCatch]
  rcases s.run op with ⟨_ | _, s'⟩ <;> rfl

end Op

variable {s s' : FormulaStore} {id : String} {row : StoredFormula} {rows : List StoredFormula}

theorem run_create (s : FormulaStore) (id : String) (now : Instant) (draft : FormulaDraft) :
    s.run (create id now draft) =
      match s.check draft >>= fun _ =>
        s.changed (· ++ [(s.nextVersion id now draft).stored]) with
      | .ok s' => (.ok (s.nextVersion id now draft), s')
      | .error problem => (.error problem, s) := by
  rw [create, run_bind, run_ask]
  cases s.check draft with
  | error => rfl
  | ok _ =>
    simp only [run_transaction, run_bind, run_ask, run_write, ok_bind]
    cases s.changed (· ++ [(s.nextVersion id now draft).stored]) <;> rfl

theorem run_create_of_error {now : Instant} {draft : FormulaDraft} {problem : StoreError}
    (h : (s.run (create id now draft)).1 = .error problem) :
    (s.run (create id now draft)).2 = s := by
  rw [run_create] at h ⊢
  split at h <;> simp_all

theorem run_activate_of_none (h : s.row? id = none) :
    s.run (activate id) = (.error (.unknownVersion id), s) := by
  rw [activate, run_bind, run_transaction, run_bind, run_ask, h]

theorem run_activate_of_some (h : s.row? id = some row) :
    s.run (activate id) =
      match s.changed (deactivated row.key) >>= (·.changed (activated id)) with
      | .ok s' => (s'.get id, s')
      | .error problem => (.error problem, s) := by
  rw [activate, run_bind, run_transaction, run_bind, run_ask, h]
  simp only [run_bind, run_write]
  cases s.changed (deactivated row.key) with
  | error => rfl
  | ok mid =>
    simp only [ok_bind]
    cases mid.changed (activated id) <;> rfl

theorem find?_map_of_id {change : StoredFormula → StoredFormula}
    (hid : ∀ r, (change r).id = r.id) (rows : List StoredFormula) (id : String) :
    (rows.map change).find? (·.id = id) = (rows.find? (·.id = id)).map change := by
  rw [List.find?_map]
  congr 2
  funext r
  simp [hid]

/-- Both statements of an activation lead to one version that is active. -/
theorem find?_activated (hrow : s.row? id = some row) :
    (activated id (deactivated row.key s.rows)).find? (·.id = id) =
      some ((row.setActive false).setActive true) := by
  have hid : row.id = id := by simpa using List.find?_some hrow
  rw [activated, find?_map_of_id fun r => by split <;> rfl, deactivated,
    find?_map_of_id fun r => by split <;> rfl, show s.rows.find? _ = some row from hrow]
  simp [FormulaKey.sameGroup, StoredFormula.setActive, hid]

end FormulaStore

namespace StoredFormula

variable {r : StoredFormula}

/-- Which version is active has no part in whether a row can be read. -/
@[simp] theorem read_setActive_eq_error_iff {isActive : Bool} {problem : StoreError} :
    (r.setActive isActive).read = .error problem ↔ r.read = .error problem := by
  have hread : (r.setActive isActive).read = r.read >>= fun f => .ok { f with isActive } := by
    simp only [read, setActive]
    cases Json.stringList? r.inputFields <;> cases Expression.constantsOfJson? r.constants <;>
      cases Instant.ofTimestamp? r.createdAt <;> rfl
  rw [hread]
  cases r.read <;> simp

end StoredFormula

namespace StoredFormula

/-- Rows that no unique index keeps out of one table. -/
structure Apart (a b : StoredFormula) : Prop where
  id_ne : a.id ≠ b.id
  version_ne : a.key.sameGroup b.key = true → a.version ≠ b.version
  active_ne : a.key.sameGroup b.key = true → a.isActive = true → b.isActive = false

theorem Apart.symm {a b : StoredFormula} (h : a.Apart b) : b.Apart a where
  id_ne := h.id_ne.symm
  version_ne hkey := (h.version_ne (FormulaKey.sameGroup_comm.trans hkey)).symm
  active_ne hkey hb := by
    by_contra ha
    have := h.active_ne (FormulaKey.sameGroup_comm.trans hkey) (by simpa using ha)
    simp [hb] at this

end StoredFormula

namespace FormulaStore

open StoredFormula (Apart)

variable {s s' : FormulaStore} {row : StoredFormula} {rows : List StoredFormula}

theorem brokenIndex?_eq_none_iff : brokenIndex? rows = none ↔ rows.Pairwise Apart := by
  simp only [brokenIndex?, isUnique, List.pairwise_filter]
  constructor
  · intro h
    split_ifs at h with hid hversion hactive
    simp only [Bool.not_eq_true', decide_eq_false_iff_not, not_not] at hid hversion hactive
    refine ((hid.and hversion).and hactive).imp fun ⟨⟨hid, hversion⟩, hactive⟩ => ?_
    constructor
    · simpa using hid
    · intro hkey
      simpa [hkey] using hversion
    · intro hkey ha
      by_contra hb
      simp [hkey, ha, hb] at hactive
  · intro h
    have hid : rows.Pairwise fun a b => ¬ a.id = b.id := h.imp (·.id_ne)
    have hversion : rows.Pairwise fun a b =>
        a.key.sameGroup b.key = true → ¬ a.version = b.version := h.imp (·.version_ne)
    have hactive : rows.Pairwise fun a b =>
        a.isActive = true → b.isActive = true → a.key.sameGroup b.key = false := by
      refine h.imp fun hab ha hb => ?_
      by_contra hkey
      simp [hab.active_ne (by simpa using hkey) ha] at hb
    simp [hid, hversion, hactive]

theorem changed_eq_ok_iff {change : List StoredFormula → List StoredFormula} :
    s.changed change = .ok s' ↔
      s.isWritable = true ∧ (change s.rows).Pairwise Apart ∧
        { s with rows := change s.rows } = s' := by
  rw [← brokenIndex?_eq_none_iff, changed]
  cases s.isWritable <;> cases brokenIndex? (change s.rows) <;> simp

/-- A refused activation leaves nothing behind, unless the version was found and cannot be read:
then it has been activated before it is read back. -/
theorem run_activate_of_error {id : String} {problem : StoreError}
    (h : (s.run (activate id)).1 = .error problem) :
    (s.run (activate id)).2 = s ∨ ∃ row, s.row? id = some row ∧ row.read = .error problem ∧
      (s.run (activate id)).2 = { s with rows := activated id (deactivated row.key s.rows) } := by
  cases hrow : s.row? id with
  | none => exact .inl (by rw [run_activate_of_none hrow])
  | some row =>
    rw [run_activate_of_some hrow] at h ⊢
    cases hchanged : s.changed (deactivated row.key) >>= (·.changed (activated id)) with
    | error => exact .inl rfl
    | ok s' =>
      obtain ⟨mid, hmid, hs'⟩ := bind_eq_ok_iff.1 hchanged
      obtain ⟨-, -, rfl⟩ := changed_eq_ok_iff.1 hmid
      obtain ⟨-, -, rfl⟩ := changed_eq_ok_iff.1 hs'
      refine .inr ⟨row, rfl, ?_, rfl⟩
      simpa only [hchanged, get, row?, find?_activated hrow,
        StoredFormula.read_setActive_eq_error_iff] using h

end FormulaStore

end Appraisal
