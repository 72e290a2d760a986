import Appraisal.Proofs.CustomFormula.Statements
import Mathlib.Algebra.Group.Nat.Defs
import Mathlib.Data.List.Range

/-!
# Versions of a key

A store goes through any sequence of calls, accepted or refused. The versions of each key are
counted from one without a gap, and one of them is active: the one that was activated last, or the
first one until any is. What a call does to a store is said once; all invariants are derived from
that.
-/

namespace Appraisal

namespace StoredFormula

/-- A row after the version `row` has become the only active one of its key. -/
def switched (row r : StoredFormula) : StoredFormula :=
  if r.key.sameGroup row.key then r.setActive (r.id = row.id) else r

variable {row r a b : StoredFormula} {rows : List StoredFormula}

@[simp] theorem switched_id : (row.switched r).id = r.id := by
  unfold switched
  split <;> rfl

@[simp] theorem switched_key : (row.switched r).key = r.key := by
  unfold switched
  split <;> rfl

@[simp] theorem switched_version : (row.switched r).version = r.version := by
  unfold switched
  split <;> rfl

@[simp] theorem setActive_switched (isActive : Bool) :
    (row.switched r).setActive isActive = r.setActive isActive := by
  unfold switched
  split <;> rfl

theorem switched_of_sameGroup (h : r.key.sameGroup row.key = true) :
    row.switched r = r.setActive (r.id = row.id) :=
  if_pos h

theorem switched_of_not_sameGroup (h : r.key.sameGroup row.key = false) : row.switched r = r := by
  simp [switched, h]

theorem Apart.switched (h : a.Apart b) : (row.switched a).Apart (row.switched b) where
  id_ne := by simpa using h.id_ne
  version_ne := by simpa using h.version_ne
  active_ne hkey ha := by
    rw [switched_key, switched_key] at hkey
    have hb : b.key.sameGroup row.key = a.key.sameGroup row.key :=
      (FormulaKey.sameGroup_congr_left hkey).symm
    cases hrow : a.key.sameGroup row.key with
    | true =>
      rw [switched_of_sameGroup hrow] at ha
      rw [switched_of_sameGroup (hb.trans hrow)]
      have hid : a.id = row.id := by simpa [setActive] using ha
      simpa [setActive, ← hid] using h.id_ne.symm
    | false =>
      rw [switched_of_not_sameGroup hrow] at ha
      rw [switched_of_not_sameGroup (hb.trans hrow)]
      exact h.active_ne hkey ha

theorem eq_of_id_eq (h : rows.Pairwise Apart) (ha : a ∈ rows) (hb : b ∈ rows) (hid : a.id = b.id) :
    a = b := by
  by_contra hne
  have : Std.Symm Apart := ⟨fun _ _ => Apart.symm⟩
  exact (h.forall ha hb hne).id_ne hid

/-- An id is the id of one row. -/
theorem filter_id_eq (h : rows.Pairwise Apart) (hrow : row ∈ rows) :
    rows.filter (·.id = row.id) = [row] := by
  induction rows with
  | nil => cases hrow
  | cons r rows ih =>
    obtain ⟨hr, hrows⟩ := List.pairwise_cons.1 h
    rcases List.mem_cons.1 hrow with rfl | hrow
    · rw [List.filter_cons_of_pos (by simp), List.filter_eq_nil_iff.2]
      intro r' hr'
      simpa using (hr r' hr').id_ne.symm
    · rw [List.filter_cons_of_neg (by simpa using (hr row hrow).id_ne)]
      exact ih hrows hrow

end StoredFormula

namespace FormulaStore

open StoredFormula (Apart)

variable {s s' : FormulaStore} {id : String} {row : StoredFormula} {rows : List StoredFormula}
variable {key : FormulaKey}

/-- The calls that may change a store. A version is saved under a new id. -/
inductive Call where
  | create (id : String) (now : Instant) (draft : FormulaDraft)
  | activate (id : String)

/-- The store after a call, accepted or refused. -/
def after (s : FormulaStore) : Call → FormulaStore
  | .create id now draft => (s.run (create id now draft)).2
  | .activate id => (s.run (activate id)).2

def afterAll (s : FormulaStore) (calls : List Call) : FormulaStore :=
  calls.foldl after s

/-- The store with one more row. -/
def appended (s : FormulaStore) (r : StoredFormula) : FormulaStore :=
  { s with rows := s.rows ++ [r] }

/-- The store after the version `row` has become the only active one of its key. -/
def switched (s : FormulaStore) (row : StoredFormula) : FormulaStore :=
  { s with rows := s.rows.map row.switched }

/-- What a call does to a store that may be written: nothing if the call is refused, and then there
is no version that it could have activated. -/
inductive Change (s : FormulaStore) : Call → FormulaStore → Prop
  | refused {call : Call} (h : ∀ id, call = .activate id → s.row? id = none) : Change s call s
  | saved (id : String) (now : Instant) (draft : FormulaDraft)
      (h : (s.rows ++ [(s.nextVersion id now draft).stored]).Pairwise Apart) :
      Change s (.create id now draft) (s.appended (s.nextVersion id now draft).stored)
  | switched {id : String} {row : StoredFormula} (h : s.row? id = some row) :
      Change s (.activate id) (s.switched row)

/-- A store that may be written and whose rows keep to the unique indexes. -/
structure Sound (s : FormulaStore) : Prop where
  isWritable : s.isWritable = true
  apart : s.rows.Pairwise Apart

theorem mem_of_row? (h : s.row? id = some row) : row ∈ s.rows ∧ row.id = id :=
  ⟨List.mem_of_find?_eq_some h, by simpa using List.find?_some h⟩

theorem pairwise_deactivated (h : rows.Pairwise Apart) :
    (deactivated key rows).Pairwise Apart := by
  refine List.pairwise_map.2 (h.imp fun {a b} hab => ?_)
  constructor
  · split_ifs <;> exact hab.id_ne
  · split_ifs <;> exact hab.version_ne
  · split_ifs <;> simp_all [StoredFormula.setActive, hab.active_ne]

/-- Both statements of an activation in one. -/
theorem activated_deactivated (h : rows.Pairwise Apart) (hrow : row ∈ rows) :
    activated row.id (deactivated row.key rows) = rows.map row.switched := by
  rw [activated, deactivated, List.map_map]
  refine List.map_congr_left fun r hr => ?_
  simp only [Function.comp_apply]
  cases hkey : r.key.sameGroup row.key with
  | true =>
    rw [StoredFormula.switched_of_sameGroup hkey]
    by_cases hid : r.id = row.id <;> simp [StoredFormula.setActive, hid]
  | false =>
    rw [StoredFormula.switched_of_not_sameGroup hkey]
    have hid : r.id ≠ row.id := by
      intro hid
      obtain rfl := StoredFormula.eq_of_id_eq h hr hrow hid
      simp [FormulaKey.sameGroup] at hkey
    simp [hid]

theorem run_activate_of_sound (hs : s.Sound) (hrow : s.row? id = some row) :
    s.run (activate id) = ((s.switched row).get id, s.switched row) := by
  obtain ⟨hmem, rfl⟩ := mem_of_row? hrow
  have hrows := activated_deactivated hs.apart hmem
  have hlast : (s.rows.map row.switched).Pairwise Apart :=
    List.pairwise_map.2 (hs.apart.imp fun hab => hab.switched)
  have hfirst : s.changed (deactivated row.key) =
      .ok { s with rows := deactivated row.key s.rows } :=
    changed_eq_ok_iff.2 ⟨hs.isWritable, pairwise_deactivated hs.apart, rfl⟩
  have hsecond : ({ s with rows := deactivated row.key s.rows } : FormulaStore).changed
      (activated row.id) = .ok (s.switched row) :=
    changed_eq_ok_iff.2 ⟨hs.isWritable, hrows ▸ hlast, by simp only [hrows, switched]⟩
  rw [run_activate_of_some hrow, hfirst, ok_bind, hsecond]

theorem Sound.change (hs : s.Sound) (call : Call) : Change s call (s.after call) := by
  cases call with
  | create id now draft =>
    simp only [after, run_create]
    split
    next s' h =>
      obtain ⟨-, -, h⟩ := bind_eq_ok_iff.1 h
      obtain ⟨-, hapart, rfl⟩ := changed_eq_ok_iff.1 h
      exact .saved id now draft hapart
    next => exact .refused (by simp)
  | activate id =>
    simp only [after]
    cases hrow : s.row? id with
    | none =>
      rw [run_activate_of_none hrow]
      exact .refused (by simpa using hrow)
    | some row =>
      rw [run_activate_of_sound hs hrow]
      exact .switched hrow

theorem Change.sound {call : Call} (h : Change s call s') (hs : s.Sound) : s'.Sound := by
  cases h with
  | refused => exact hs
  | saved id now draft hapart => exact ⟨hs.isWritable, hapart⟩
  | switched hrow =>
    exact ⟨hs.isWritable, List.pairwise_map.2 (hs.apart.imp fun hab => hab.switched)⟩

theorem sound_empty (limits : Expression.Limits) : (empty limits).Sound :=
  ⟨rfl, .nil⟩

theorem Sound.afterAll (hs : s.Sound) (calls : List Call) : (s.afterAll calls).Sound := by
  induction calls generalizing s with
  | nil => exact hs
  | cons call calls ih => exact ih ((hs.change call).sound hs)

theorem group_congr {other : FormulaKey} (h : key.sameGroup other = true) :
    s.group key = s.group other :=
  List.filter_congr fun _ _ => FormulaKey.sameGroup_congr_right h

theorem sameGroup_of_mem_group {r : StoredFormula} (h : r ∈ s.group key) :
    r.key.sameGroup key = true :=
  (List.mem_filter.1 h).2

theorem group_appended (r : StoredFormula) :
    (s.appended r).group key = s.group key ++ if r.key.sameGroup key then [r] else [] := by
  simp only [group, appended, List.filter_append]
  split <;> simp_all

theorem group_switched : (s.switched row).group key = (s.group key).map row.switched := by
  simp only [group, switched, List.filter_map]
  congr 2
  funext r
  simp

theorem group_switched_of_not_sameGroup (h : row.key.sameGroup key = false) :
    (s.switched row).group key = s.group key := by
  rw [group_switched]
  refine (List.map_congr_left fun r hr => ?_).trans (List.map_id _)
  refine StoredFormula.switched_of_not_sameGroup ?_
  rw [FormulaKey.sameGroup_congr_left (sameGroup_of_mem_group hr), FormulaKey.sameGroup_comm, h]

/-- The number after the first `n`. -/
theorem succ_max?_range' {n : Nat} (h : n < 2 ^ 32 - 1) :
    ((List.range' 1 n).max?.getD 0 + 1) % 2 ^ 32 = n + 1 := by
  have hmax : (List.range' 1 n).max?.getD 0 = n := by
    by_cases hn : n = 0
    · simp [hn]
    · have hlast : n ∈ List.range' 1 n ∧ ∀ m ∈ List.range' 1 n, m ≤ n := by
        simp only [List.mem_range'_1]
        exact ⟨by omega, by omega⟩
      rw [List.max?_eq_some_iff.2 hlast, Option.getD_some]
  rw [hmax, Nat.mod_eq_of_lt (by omega)]

theorem isActive_nextVersion (id : String) (now : Instant) {draft : FormulaDraft} :
    (s.nextVersion id now draft).isActive = (s.group draft.key).isEmpty := by
  change ((s.group draft.key).map (·.version)).max?.isNone = _
  cases s.group draft.key <;> rfl

theorem version_nextVersion (id : String) (now : Instant) {draft : FormulaDraft}
    (h : (s.group draft.key).map (·.version) = List.range' 1 (s.group draft.key).length)
    (hsize : (s.group draft.key).length < 2 ^ 32 - 1) :
    (s.nextVersion id now draft).version = (s.group draft.key).length + 1 := by
  change (((s.group draft.key).map (·.version)).max?.getD 0 + 1) % 2 ^ 32 = _
  rw [h, succ_max?_range' hsize]

/-- The versions `g` of a key, one of which is named by the last activation. -/
structure Tracked (g : List StoredFormula) (named : Option String) : Prop where
  versions : g.length < 2 ^ 32 → g.map (·.version) = List.range' 1 g.length
  active : g ≠ [] → ∃ r, g.filter (·.isActive) = [r] ∧
    match named with
    | some id => r.id = id
    | none => r.version = 1
  named : g = [] → named = none

section Tracked

variable {g : List StoredFormula} {named : Option String} {r : StoredFormula}

theorem tracked_nil : Tracked [] none where
  versions _ := rfl
  active h := absurd rfl h
  named _ := rfl

theorem Tracked.append (h : Tracked g named)
    (hversion : r.version = ((g.map (·.version)).max?.getD 0 + 1) % 2 ^ 32)
    (hactive : r.isActive = (g.map (·.version)).max?.isNone) : Tracked (g ++ [r]) named where
  versions hsize := by
    rw [List.length_append, List.length_singleton] at hsize ⊢
    have hg := h.versions (by omega)
    have hnext : r.version = 1 + g.length := by
      rw [hversion, hg, succ_max?_range' (by omega), Nat.add_comm]
    rw [List.map_append, hg, List.range'_concat, List.map_singleton, hnext, Nat.one_mul]
  active _ := by
    rw [List.filter_append]
    by_cases hg : g = []
    · subst hg
      have hr : r.isActive = true := by simpa using hactive
      rw [h.named rfl]
      exact ⟨r, by simp [hr], by simpa using hversion⟩
    · obtain ⟨a, ha, hnamed⟩ := h.active hg
      have hr : r.isActive = false := by
        rw [hactive, Option.isNone_eq_false_iff, Option.isSome_iff_ne_none, ne_eq,
          List.max?_eq_none_iff, List.map_eq_nil_iff]
        exact hg
      exact ⟨a, by simp [ha, hr], hnamed⟩
  named hnil := by simp at hnil

theorem Tracked.switched (h : Tracked g named) (hapart : g.Pairwise Apart) (hrow : row ∈ g)
    (hkey : ∀ r ∈ g, r.key.sameGroup row.key = true) :
    Tracked (g.map row.switched) (some row.id) where
  versions hsize := by
    rw [List.length_map] at hsize ⊢
    rw [List.map_map, ← h.versions hsize]
    exact List.map_congr_left fun r _ => StoredFormula.switched_version
  active _ := by
    have hfilter : (g.map row.switched).filter (·.isActive) =
        (g.filter (·.id = row.id)).map row.switched := by
      rw [List.filter_map]
      congr 1
      refine List.filter_congr fun r hr => ?_
      simp [StoredFormula.switched_of_sameGroup (hkey r hr), StoredFormula.setActive]
    rw [StoredFormula.filter_id_eq hapart hrow] at hfilter
    exact ⟨row.switched row, hfilter, StoredFormula.switched_id⟩
  named hnil := by
    rw [List.map_eq_nil_iff] at hnil
    simp [hnil] at hrow

end Tracked

/-- The version of a key that a call names. -/
def named? (s : FormulaStore) (key : FormulaKey) : Call → Option String
  | .create .. => none
  | .activate id => if (s.group key).any (·.id = id) then some id else none

/-- The version that the last of the calls to name one of a key names, at the time of the call. -/
def lastNamed? (key : FormulaKey) (s : FormulaStore) : List Call → Option String
  | [] => none
  | call :: calls => (lastNamed? key (s.after call) calls).or (s.named? key call)

theorem Change.tracked {call : Call} {named : Option String} (h : Change s call s')
    (hs : s.Sound) (hkey : Tracked (s.group key) named) :
    Tracked (s'.group key) ((s.named? key call).or named) := by
  cases h with
  | refused hrefused =>
    have hnone : s.named? key call = none := by
      cases call with
      | create => rfl
      | activate id =>
        have hrow := List.find?_eq_none.1 (hrefused id rfl)
        refine if_neg ?_
        simp only [List.any_eq_true, not_exists, not_and]
        exact fun r hr => hrow r (List.mem_filter.1 hr).1
    rwa [hnone]
  | saved id now draft hapart =>
    rw [group_appended]
    split
    next hdraft =>
      have hgroup : s.group draft.key = s.group key :=
        (group_congr draft.key.sameGroup_normalized).symm.trans (group_congr hdraft)
      rw [← hgroup] at hkey ⊢
      exact hkey.append rfl rfl
    next => rwa [List.append_nil]
  | @switched id row hrow =>
    obtain ⟨hmem, rfl⟩ := mem_of_row? hrow
    cases hgroup : row.key.sameGroup key with
    | true =>
      have hrow : row ∈ s.group key := List.mem_filter.2 ⟨hmem, hgroup⟩
      have hnamed : s.named? key (.activate row.id) = some row.id :=
        if_pos (List.any_eq_true.2 ⟨row, hrow, by simp⟩)
      rw [group_switched, hnamed]
      refine hkey.switched (hs.apart.filter _) hrow fun r hr => ?_
      rw [FormulaKey.sameGroup_congr_right hgroup]
      exact sameGroup_of_mem_group hr
    | false =>
      have hnamed : s.named? key (.activate row.id) = none := by
        refine if_neg ?_
        simp only [List.any_eq_true, not_exists, not_and]
        intro r hr hid
        obtain rfl :=
          StoredFormula.eq_of_id_eq hs.apart (List.mem_filter.1 hr).1 hmem (by simpa using hid)
        simp [sameGroup_of_mem_group hr] at hgroup
      rw [group_switched_of_not_sameGroup hgroup, hnamed]
      exact hkey

theorem Sound.tracked_afterAll {named : Option String} (hs : s.Sound) (calls : List Call)
    (hkey : Tracked (s.group key) named) :
    Tracked ((s.afterAll calls).group key) ((s.lastNamed? key calls).or named) := by
  induction calls generalizing s named with
  | nil => exact hkey
  | cons call calls ih =>
    have hchange := hs.change call
    rw [lastNamed?, Option.or_assoc]
    exact ih (hchange.sound hs) (hchange.tracked hs hkey)

theorem tracked_afterAll_empty (limits : Expression.Limits) (calls : List Call)
    (key : FormulaKey) :
    Tracked (((empty limits).afterAll calls).group key) ((empty limits).lastNamed? key calls) := by
  have h : Tracked (((empty limits).afterAll calls).group key)
      (((empty limits).lastNamed? key calls).or none) :=
    (sound_empty limits).tracked_afterAll calls tracked_nil
  rwa [Option.or_none] at h

/-- A valid draft is saved under a fresh id, as long as there is a next version. -/
theorem Sound.run_create {named : Option String} {now : Instant} {draft : FormulaDraft}
    (hs : s.Sound) (hkey : Tracked (s.group draft.key) named) (hcheck : s.check draft = .ok ())
    (hfresh : s.row? id = none) (hsize : (s.group draft.key).length < 2 ^ 32 - 1) :
    s.run (create id now draft) =
      (.ok (s.nextVersion id now draft), s.appended (s.nextVersion id now draft).stored) := by
  set r := (s.nextVersion id now draft).stored with hr
  have hversions := hkey.versions (by omega)
  have hapart : ∀ a ∈ s.rows, a.Apart r := by
    intro a ha
    have hgroup (h : a.key.sameGroup r.key = true) : a ∈ s.group draft.key :=
      List.mem_filter.2
        ⟨ha, (FormulaKey.sameGroup_congr_right draft.key.sameGroup_normalized).symm.trans h⟩
    -- The new number lies above all numbers of the key, and only a first version is active.
    constructor
    · have hid : a.id ≠ id := by simpa using List.find?_eq_none.1 hfresh a ha
      exact hid
    · intro h
      have hmem : a.version ∈ List.range' 1 (s.group draft.key).length :=
        hversions ▸ List.mem_map_of_mem (hgroup h)
      have hnext := version_nextVersion id now hversions hsize
      rw [List.mem_range'_1] at hmem
      change a.version ≠ (s.nextVersion id now draft).version
      omega
    · intro h _
      have hne : s.group draft.key ≠ [] := List.ne_nil_of_mem (hgroup h)
      exact (isActive_nextVersion id now).trans (by simpa using hne)
  have hpairwise : (s.rows ++ [r]).Pairwise Apart :=
    List.pairwise_append.2 ⟨hs.apart, List.pairwise_singleton _ _, by simpa using hapart⟩
  have hchanged : s.changed (· ++ [r]) = .ok (s.appended r) :=
    changed_eq_ok_iff.2 ⟨hs.isWritable, hpairwise, rfl⟩
  rw [FormulaStore.run_create, hcheck, ok_bind, hchanged]

/-- The key that a call is about. -/
def addressed? (s : FormulaStore) : Call → Option FormulaKey
  | .create _ _ draft => some draft.key
  | .activate id => (s.row? id).map (·.key)

theorem Change.group_eq {call : Call} (h : Change s call s')
    (hkey : ∀ addressed, s.addressed? call = some addressed → addressed.sameGroup key = false) :
    s'.group key = s.group key := by
  cases h with
  | refused => rfl
  | saved id now draft =>
    have hstored : (s.nextVersion id now draft).stored.key.sameGroup key = false :=
      (FormulaKey.sameGroup_congr_left draft.key.sameGroup_normalized).trans (hkey draft.key rfl)
    rw [group_appended, hstored]
    exact List.append_nil _
  | @switched id row hrow =>
    exact group_switched_of_not_sameGroup (hkey row.key (by simp [addressed?, hrow]))

/-- The rows but for which of them are active. -/
def contents (s : FormulaStore) : List StoredFormula :=
  s.rows.map (·.setActive false)

theorem Change.prefix_contents {call : Call} (h : Change s call s') :
    s.contents <+: s'.contents := by
  cases h with
  | refused => exact List.prefix_rfl
  | saved id now draft =>
    rw [contents, contents, appended, List.map_append]
    exact List.prefix_append _ _
  | @switched id row hrow =>
    have hcontents : (s.rows.map row.switched).map (·.setActive false) = s.contents := by
      rw [List.map_map]
      exact List.map_congr_left fun r _ => StoredFormula.setActive_switched false
    rw [← hcontents]
    exact List.prefix_rfl

theorem Sound.prefix_contents (hs : s.Sound) (calls : List Call) :
    s.contents <+: (s.afterAll calls).contents := by
  induction calls generalizing s with
  | nil => exact List.prefix_rfl
  | cons call calls ih =>
    have hchange := hs.change call
    exact hchange.prefix_contents.trans (ih (hchange.sound hs))

theorem after_eq_of_error {id : String} {now : Instant} {draft : FormulaDraft}
    {problem : StoreError} (h : (s.run (create id now draft)).1 = .error problem) :
    s.after (.create id now draft) = s :=
  run_create_of_error h

theorem after_create_of_ok {now : Instant} {draft : FormulaDraft} {f : CustomFormula}
    (hf : (s.run (create id now draft)).1 = .ok f) :
    f = s.nextVersion id now draft ∧ (s.rows ++ [f.stored]).Pairwise Apart ∧
      s.after (.create id now draft) = s.appended f.stored := by
  rw [after]
  rw [run_create] at hf ⊢
  cases hsaved : s.check draft >>= fun _ =>
      s.changed (· ++ [(s.nextVersion id now draft).stored]) with
  | error => simp [hsaved] at hf
  | ok s' =>
    obtain ⟨-, -, hchanged⟩ := bind_eq_ok_iff.1 hsaved
    obtain ⟨-, hapart, rfl⟩ := changed_eq_ok_iff.1 hchanged
    simp only [hsaved, Except.ok.injEq] at hf
    subst hf
    exact ⟨rfl, hapart, rfl⟩

/-- A version that is saved comes after those of its key. -/
theorem group_after_create {named : Option String} {now : Instant} {draft : FormulaDraft}
    {f : CustomFormula} (hkey : Tracked (s.group draft.key) named)
    (hf : (s.run (create id now draft)).1 = .ok f) :
    (s.after (.create id now draft)).group draft.key = s.group draft.key ++ [f.stored] ∧
      ((s.group draft.key).length < 2 ^ 32 - 1 → f.version = (s.group draft.key).length + 1) := by
  obtain ⟨rfl, -, hafter⟩ := after_create_of_ok hf
  have hstored : (s.nextVersion id now draft).stored.key.sameGroup draft.key = true :=
    draft.key.sameGroup_normalized
  refine ⟨by rw [hafter, group_appended, hstored, if_pos rfl], fun hsize => ?_⟩
  exact version_nextVersion id now (hkey.versions (hsize.trans (by decide))) hsize

/-- Whatever calls are made of a store without formulas: the versions of every key are the first
numbers, exactly one of them is active, and a call changes neither versions of other keys nor
anything but the active versions of its own. A valid draft is saved under a fresh id, as the next
version of its key. -/
theorem rows_of_calls (limits : Expression.Limits) (calls : List Call) :
    let s := (empty limits).afterAll calls
    (∀ key, (s.group key).length < 2 ^ 32 →
      (s.group key).map (·.version) = List.range' 1 (s.group key).length) ∧
    (∀ key, s.group key ≠ [] → ∃ r, (s.group key).filter (·.isActive) = [r] ∧
      match (empty limits).lastNamed? key calls with
      | some id => r.id = id
      | none => r.version = 1) ∧
    (∀ id now draft, s.check draft = .ok () → s.row? id = none →
      (s.group draft.key).length < 2 ^ 32 - 1 →
        ∃ f, (s.run (create id now draft)).1 = .ok f) ∧
    (∀ id now draft f, (s.run (create id now draft)).1 = .ok f → f.id = id ∧
      (s.after (.create id now draft)).rows = s.rows ++ [f.stored] ∧
      (s.after (.create id now draft)).group draft.key = s.group draft.key ++ [f.stored] ∧
      ((s.group draft.key).length < 2 ^ 32 - 1 → f.version = (s.group draft.key).length + 1)) ∧
    (∀ call key,
      (∀ addressed, s.addressed? call = some addressed → addressed.sameGroup key = false) →
        (s.after call).group key = s.group key) ∧
    (∀ id now draft problem, (s.run (create id now draft)).1 = .error problem →
      (s.after (.create id now draft)).rows = s.rows) ∧
    (∀ id, s.row? id = none → (s.after (.activate id)).rows = s.rows) ∧
    ∀ later, s.contents <+: (s.afterAll later).contents := by
  intro s
  have hs : s.Sound := (sound_empty limits).afterAll calls
  have htracked (key) : Tracked (s.group key) ((empty limits).lastNamed? key calls) :=
    tracked_afterAll_empty limits calls key
  refine ⟨fun key => (htracked key).versions, fun key => (htracked key).active, ?_, ?_,
    fun call key => (hs.change call).group_eq, ?_, ?_, hs.prefix_contents⟩
  · intro id now draft hcheck hfresh hsize
    rw [hs.run_create (htracked draft.key) hcheck hfresh hsize]
    exact ⟨_, rfl⟩
  · intro id now draft f hf
    obtain ⟨hnext, -, hafter⟩ := after_create_of_ok hf
    refine ⟨by rw [hnext]; rfl, by rw [hafter]; rfl, ?_⟩
    exact group_after_create (htracked draft.key) hf
  · intro id now draft problem h
    rw [after_eq_of_error h]
  · intro id h
    rw [after, run_activate_of_none h]

end FormulaStore

end Appraisal
