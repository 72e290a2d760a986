import Appraisal.Proofs.CustomFormula.Versions
import Appraisal.Proofs.Instant
import Mathlib

/-!
# Reading formulas back

A saved row says all that was saved, but for a constant that is not finite: such a constant has no
spelling, and its row can never be read again.
-/

namespace Appraisal

/-- A list is read back as far as its members are: in whole or not at all. -/
theorem Json.list?_array_map {α : Type} {encode : α → Json} {decode : Json → Option α}
    {p : α → Bool} (h : ∀ a, decode (encode a) = if p a then some a else none) (as : List α) :
    Json.list? decode (.array (as.map encode)) = if as.all p then some as else none := by
  simp only [Json.list?, Json.arrayItems?, Option.bind_eq_bind, Option.bind_some]
  induction as with
  | nil => rfl
  | cons a as ih =>
    rw [List.map_cons, List.mapM_cons, h, ih, List.all_cons]
    cases p a <;> cases as.all p <;> rfl

namespace Expression

def Constant.isFinite (c : Constant) : Bool :=
  c.value.isFinite

theorem constantsOfJson?_constantsToJson (constants : List Constant) :
    constantsOfJson? (constantsToJson constants) =
      if constants.all Constant.isFinite then some constants else none := by
  refine Json.list?_array_map (fun c => ?_) constants
  change (do return Constant.mk c.key c.label (← Json.amount? (.amount c.value))) = _
  rw [Json.amount, Constant.isFinite]
  split <;> rfl

end Expression

theorem Json.stringList?_strings (texts : List String) :
    Json.stringList? (.strings texts) = some texts := by
  have hone (text : String) :
      string? (string text) = if (fun _ => true) text then some text else none := rfl
  exact (list?_array_map hone texts).trans (if_pos (by simp))

namespace CustomFormula

open Expression (Constant)

variable {f g : CustomFormula}

theorem read_stored (hf : f.createdAt.IsCivil)
    (hfinite : f.constants.all Constant.isFinite = true) : f.stored.read = .ok f := by
  simp only [StoredFormula.read, stored, Json.stringList?_strings,
    Expression.constantsOfJson?_constantsToJson, hfinite, if_true,
    Instant.ofTimestamp?_timestamp hf, StoredFormula.column, ok_bind]
  rfl

theorem read_stored_of_not_finite (hfinite : f.constants.all Constant.isFinite = false) :
    ∃ reason, f.stored.read = .error (.corrupt ⟨f.id, reason⟩) := by
  simp only [StoredFormula.read, stored, Json.stringList?_strings,
    Expression.constantsOfJson?_constantsToJson, hfinite, StoredFormula.column, ok_bind,
    Bool.false_eq_true, if_false, error_bind]
  exact ⟨_, rfl⟩

theorem read_stored_eq_ok_iff (hf : f.createdAt.IsCivil) :
    f.stored.read = .ok g ↔ f.constants.all Constant.isFinite = true ∧ f = g := by
  cases hfinite : f.constants.all Constant.isFinite with
  | true => simp [read_stored hf hfinite]
  | false =>
    obtain ⟨reason, hread⟩ := read_stored_of_not_finite hfinite
    simp [hread]

theorem read_stored_bind_eq_ok_iff {α : Type} {next : CustomFormula → Except StoreError α} {a : α}
    (hf : f.createdAt.IsCivil) : (f.stored.read >>= next) = .ok a ↔
      f.constants.all Constant.isFinite = true ∧ next f = .ok a := by
  simp only [bind_eq_ok_iff, read_stored_eq_ok_iff hf]
  constructor
  · rintro ⟨_, ⟨hfinite, rfl⟩, ha⟩
    exact ⟨hfinite, ha⟩
  · rintro ⟨hfinite, ha⟩
    exact ⟨f, ⟨hfinite, rfl⟩, ha⟩

end CustomFormula

namespace FormulaStore

open Expression (Constant)
open StoredFormula (Apart)

variable {s : FormulaStore} {id : String} {key : FormulaKey} {r : StoredFormula}

/-- A call saves only what `P` says of its time and its constants. -/
def Call.Saves (P : Instant → List Constant → Prop) : Call → Prop
  | .create _ now draft => P now draft.constants
  | .activate _ => True

/-- Every row is a saved formula with what `P` says. -/
def Holds (P : Instant → List Constant → Prop) (s : FormulaStore) : Prop :=
  ∀ r ∈ s.rows, ∃ f : CustomFormula, r = f.stored ∧ P f.createdAt f.constants

theorem Sound.holds_afterAll {P : Instant → List Constant → Prop} (hs : s.Sound) (h : s.Holds P)
    {calls : List Call} (hcalls : ∀ call ∈ calls, call.Saves P) : (s.afterAll calls).Holds P := by
  induction calls generalizing s with
  | nil => exact h
  | cons call calls ih =>
    have hchange := hs.change call
    refine ih (hchange.sound hs) ?_ fun c hc => hcalls c (List.mem_cons_of_mem _ hc)
    generalize s.after call = s' at hchange
    cases hchange with
    | refused => exact h
    | saved id now draft =>
      intro r hr
      rcases List.mem_append.1 hr with hr | hr
      · exact h r hr
      · rw [List.mem_singleton.1 hr]
        exact ⟨_, rfl, hcalls _ List.mem_cons_self⟩
    | @switched id row =>
      intro r hr
      obtain ⟨saved, hsaved, rfl⟩ := List.mem_map.1 hr
      obtain ⟨f, rfl, hf⟩ := h saved hsaved
      unfold StoredFormula.switched
      split
      · exact ⟨{ f with isActive := decide (f.stored.id = row.id) }, rfl, hf⟩
      · exact ⟨f, rfl, hf⟩

theorem row?_appended_of_some {row : StoredFormula} (h : s.row? id = some row) :
    (s.appended r).row? id = some row := by
  rw [row?, appended, List.find?_append]
  simp only [row?] at h
  rw [h]
  rfl

theorem row?_appended_self (h : (s.rows ++ [r]).Pairwise Apart) :
    (s.appended r).row? r.id = some r := by
  have hnone : s.rows.find? (·.id = r.id) = none := by
    refine List.find?_eq_none.2 fun a ha => ?_
    simpa using ((List.pairwise_append.1 h).2.2 a ha r (List.mem_singleton_self r)).id_ne
  rw [row?, appended, List.find?_append, hnone]
  simp

theorem get_appended_of_ok {f : CustomFormula} (h : s.get id = .ok f) :
    (s.appended r).get id = .ok f := by
  rw [get] at h ⊢
  cases hrow : s.row? id with
  | none => simp [hrow] at h
  | some row =>
    rw [row?_appended_of_some hrow]
    simpa [hrow] using h

theorem get_appended_self (h : (s.rows ++ [r]).Pairwise Apart) :
    (s.appended r).get r.id = r.read := by
  rw [get, row?_appended_self h]

/-- The list of all versions, newest first, is the rows backwards. -/
theorem mergeSort_of_range' {g : List StoredFormula}
    (h : g.map (·.version) = List.range' 1 g.length) :
    (g.mergeSort fun a b => b.version ≤ a.version) = g.reverse := by
  have hsorted : g.Pairwise fun a b => a.version < b.version := by
    rw [← List.pairwise_map, h]
    exact List.pairwise_lt_range'
  have hreverse : g.reverse.Pairwise fun a b => decide (b.version ≤ a.version) = true := by
    refine List.pairwise_reverse.2 (hsorted.imp fun hab => ?_)
    simpa using hab.le
  refine List.Perm.eq_of_pairwise ?_ (List.pairwise_mergeSort ?_ ?_ g) hreverse
    ((List.mergeSort_perm g _).trans g.reverse_perm.symm)
  · intro a b ha hb hab hba
    have hversion : a.version = b.version := by
      simp only [decide_eq_true_eq] at hab hba
      omega
    exact List.inj_on_of_nodup_map (h ▸ List.nodup_range')
      ((List.mergeSort_perm g _).mem_iff.1 ha) (List.mem_reverse.1 hb) hversion
  · intro a b c hab hbc
    simp only [decide_eq_true_eq] at *
    omega
  · intro a b
    simp only [Bool.or_eq_true, decide_eq_true_eq]
    omega

theorem group_appended_of_sameGroup (h : r.key.sameGroup key = true) :
    (s.appended r).group key = s.group key ++ [r] := by
  rw [group_appended, if_pos h]

theorem versions_eq_mapM_reverse
    (h : (s.group key).map (·.version) = List.range' 1 (s.group key).length) :
    s.versions key = (s.group key).reverse.mapM StoredFormula.read := by
  rw [versions, mergeSort_of_range' h]

/-- The new row is read first, and all others are read as before. -/
theorem versions_appended (hkey : r.key.sameGroup key = true)
    (h : (s.group key).map (·.version) = List.range' 1 (s.group key).length)
    (hversion : r.version = (s.group key).length + 1) :
    (s.appended r).versions key =
      r.read >>= fun f => s.versions key >>= fun fs => .ok (f :: fs) := by
  have hrange : ((s.appended r).group key).map (·.version) =
      List.range' 1 ((s.appended r).group key).length := by
    rw [group_appended_of_sameGroup hkey, List.map_append, h, List.length_append,
      List.length_singleton, List.range'_concat, List.map_singleton, hversion, Nat.one_mul,
      Nat.add_comm 1]
  rw [versions_eq_mapM_reverse hrange, versions_eq_mapM_reverse h, group_appended_of_sameGroup hkey,
    List.reverse_append, List.reverse_singleton, List.singleton_append, List.mapM_cons]
  rfl

theorem active_appended_of_inactive (hkey : r.key.sameGroup key = true)
    (hr : r.isActive = false) : (s.appended r).active key = s.active key := by
  rw [active, active, group_appended_of_sameGroup hkey, List.find?_append]
  simp [hr]

theorem active_appended_of_nil (hkey : r.key.sameGroup key = true) (hr : r.isActive = true)
    (hnil : s.group key = []) :
    (s.appended r).active key = r.read >>= fun f => .ok (some f) := by
  rw [active, group_appended_of_sameGroup hkey, hnil]
  simp only [List.nil_append, List.find?_cons, hr]
  cases hread : r.read <;> simp [Option.mapM_some, hread, Functor.map, Except.map]

theorem get_switched_of_error {row : StoredFormula} {problem : StoreError}
    (hrow : s.row? id = some row) (hread : row.read = .error problem) :
    (s.switched row).get id = .error problem := by
  have hlast : (s.switched row).row? id = some (row.switched row) := by
    rw [row?, switched, find?_map_of_id fun r => StoredFormula.switched_id]
    exact congrArg _ hrow
  rw [get, hlast]
  simpa [StoredFormula.switched, FormulaKey.sameGroup] using hread

section Saved

variable {now : Instant} {draft : FormulaDraft} {f : CustomFormula}

theorem group_nextVersion_key : s.group (s.nextVersion id now draft).key = s.group draft.key :=
  group_congr draft.key.sameGroup_normalized

theorem sameGroup_stored_key : f.stored.key.sameGroup f.key = true :=
  FormulaKey.sameGroup_iff.2 rfl

/-- The next version of a key is the first one in the list of all its versions. -/
theorem versions_appended_nextVersion {named : Option String} (hf : f = s.nextVersion id now draft)
    (hkey : Tracked (s.group f.key) named) (hsize : (s.group f.key).length < 2 ^ 32 - 1) :
    (s.appended f.stored).versions f.key =
      f.stored.read >>= fun g => s.versions f.key >>= fun fs => .ok (g :: fs) := by
  have hversions := hkey.versions (hsize.trans (by decide))
  refine versions_appended sameGroup_stored_key hversions ?_
  subst hf
  rw [group_nextVersion_key] at hversions hsize ⊢
  exact version_nextVersion id now hversions hsize

theorem isActive_stored_nextVersion (hf : f = s.nextVersion id now draft) :
    f.stored.isActive = (s.group f.key).isEmpty := by
  subst hf
  rw [group_nextVersion_key]
  exact isActive_nextVersion id now

end Saved

theorem exists_mapM_read {rows : List StoredFormula}
    (h : ∀ r ∈ rows, ∃ f, r.read = .ok f) : ∃ fs, rows.mapM StoredFormula.read = .ok fs := by
  induction rows with
  | nil => exact ⟨[], rfl⟩
  | cons r rows ih =>
    obtain ⟨f, hf⟩ := h r List.mem_cons_self
    obtain ⟨fs, hfs⟩ := ih fun a ha => h a (List.mem_cons_of_mem r ha)
    exact ⟨f :: fs, by rw [List.mapM_cons, hf, ok_bind, hfs, ok_bind]; rfl⟩

theorem Holds.readable
    (h : s.Holds fun now constants => now.IsCivil ∧ constants.all Constant.isFinite = true)
    (key : FormulaKey) : (∃ fs, s.versions key = .ok fs) ∧ ∃ a, s.active key = .ok a := by
  have hread : ∀ r ∈ s.group key, ∃ f, r.read = .ok f := by
    intro r hr
    obtain ⟨f, rfl, hcivil, hfinite⟩ := h r (List.mem_filter.1 hr).1
    exact ⟨f, CustomFormula.read_stored hcivil hfinite⟩
  constructor
  · exact exists_mapM_read fun r hr => hread r (List.mem_mergeSort.1 hr)
  · rw [active]
    cases hactive : (s.group key).find? (·.isActive) with
    | none => exact ⟨none, rfl⟩
    | some r =>
      obtain ⟨f, hf⟩ := hread r (List.mem_of_find?_eq_some hactive)
      exact ⟨some f, by rw [Option.mapM_some, hf]; rfl⟩

/-- A formula that is one constant. -/
def constantDraft (value : Float) : FormulaDraft where
  key := ⟨none, none, "k"⟩
  label := "K"
  expression := "k"
  inputFields := []
  constants := [⟨"k", "K", value⟩]
  notes := none
  createdBy := none

theorem Sound.run_create_constantDraft {named : Option String} {value : Float} (hs : s.Sound)
    (hlimits : s.limits = .standard) (hkey : Tracked (s.group (constantDraft value).key) named)
    (hfresh : s.row? id = none) (hsize : (s.group (constantDraft value).key).length < 2 ^ 32 - 1) :
    s.run (create id ⟨0, 0⟩ (constantDraft value)) =
      (.ok (s.nextVersion id ⟨0, 0⟩ (constantDraft value)),
        s.appended (s.nextVersion id ⟨0, 0⟩ (constantDraft value)).stored) := by
  have hvalid : (Expression.validate .standard "k" ["k"]).isValid = true := by cbv
  have hcheck : s.check (constantDraft value) = .ok () := by
    rw [check, hlimits]
    exact if_pos hvalid
  exact hs.run_create hkey hcheck hfresh hsize

theorem run_create_constantDraft (value : Float) :
    (empty .standard).run (create "1" ⟨0, 0⟩ (constantDraft value)) =
      (.ok ((empty .standard).nextVersion "1" ⟨0, 0⟩ (constantDraft value)),
        (empty .standard).appended
          ((empty .standard).nextVersion "1" ⟨0, 0⟩ (constantDraft value)).stored) :=
  (sound_empty .standard).run_create_constantDraft rfl tracked_nil rfl (by simp [group, empty])

theorem isFinite_infinite : (1 / 0 : Float).isFinite = false := by
  decide +kernel

theorem constantsToJson_infinite : Expression.constantsToJson [⟨"k", "K", 1 / 0⟩] =
    .array [.object [("key", .string "k"), ("label", .string "K"), ("value", .null)]] := by
  have hamount : Json.amount (1 / 0) = .null := by
    rw [Json.amount, isFinite_infinite]
    rfl
  rw [Expression.constantsToJson, List.map_singleton, Constant.toJson, hamount]

theorem switched_of_infinite :
    let s := (empty .standard).afterAll
      [.create "1" ⟨0, 0⟩ (constantDraft 1), .create "2" ⟨0, 0⟩ (constantDraft (1 / 0))]
    (∃ problem, (s.run (activate "2")).1 = .error problem) ∧
      s.rows.map (·.isActive) = [true, false] ∧
      (s.after (.activate "2")).rows.map (·.isActive) = [false, true] := by
  intro s
  set first := (empty .standard).appended
    ((empty .standard).nextVersion "1" ⟨0, 0⟩ (constantDraft 1)).stored
  set f := first.nextVersion "2" ⟨0, 0⟩ (constantDraft (1 / 0))
  have hempty := sound_empty .standard
  have hfirst : (empty .standard).after (.create "1" ⟨0, 0⟩ (constantDraft 1)) = first :=
    congrArg Prod.snd (run_create_constantDraft 1)
  have hchange : Change (empty .standard) (.create "1" ⟨0, 0⟩ (constantDraft 1)) first :=
    hfirst ▸ hempty.change _
  have hsecond : first.after (.create "2" ⟨0, 0⟩ (constantDraft (1 / 0))) =
      first.appended f.stored :=
    congrArg Prod.snd ((hchange.sound hempty).run_create_constantDraft rfl
      (hchange.tracked hempty tracked_nil) rfl (by decide))
  have hs : s = first.appended f.stored := by
    rw [← hsecond, ← hfirst]
    rfl
  have hrow : s.row? "2" = some f.stored := by
    rw [hs]
    rfl
  have hinfinite : f.constants.all Constant.isFinite = false := by
    change ([⟨"k", "K", 1 / 0⟩] : List Constant).all Constant.isFinite = false
    simp [Constant.isFinite, isFinite_infinite]
  obtain ⟨reason, hread⟩ := CustomFormula.read_stored_of_not_finite hinfinite
  have hsound : s.Sound := hempty.afterAll _
  rw [after, run_activate_of_sound hsound hrow]
  refine ⟨⟨_, get_switched_of_error hrow hread⟩, ?_, ?_⟩ <;> rw [hs] <;> rfl

/-- What reads as before and what is read of a new version, right after it was saved. If one of its
constants is not finite, it cannot be read, and neither can the list of all versions of its key. -/
theorem read_after_create (limits : Expression.Limits) (calls : List Call) {id : String}
    {now : Instant} {draft : FormulaDraft} {f : CustomFormula} (hnow : now.IsCivil)
    (hf : (((empty limits).afterAll calls).run (create id now draft)).1 = .ok f) :
    let s := (empty limits).afterAll calls
    let s' := s.after (.create id now draft)
    let finite := draft.constants.all Constant.isFinite
    (∀ g, s'.get f.id = .ok g ↔ finite = true ∧ f = g) ∧
    ((s.group f.key).length < 2 ^ 32 - 1 → ∀ fs, s'.versions f.key = .ok fs ↔
      finite = true ∧ ∃ older, s.versions f.key = .ok older ∧ f :: older = fs) ∧
    (s.group f.key ≠ [] → s'.active f.key = s.active f.key) ∧
    (s.group f.key = [] → ∀ a, s'.active f.key = .ok a ↔ finite = true ∧ some f = a) ∧
    (∀ other g, s.get other = .ok g → s'.get other = .ok g) ∧
    ((∀ call ∈ calls ++ [.create id now draft],
        call.Saves fun now constants => now.IsCivil ∧ constants.all Constant.isFinite = true) →
      ∀ key, (∃ fs, s'.versions key = .ok fs) ∧ ∃ a, s'.active key = .ok a) := by
  intro s s' finite
  obtain ⟨hnext, hapart, hs'⟩ := after_create_of_ok hf
  have hcreated : f.createdAt.IsCivil := by rwa [hnext]
  have hfinite : f.constants.all Constant.isFinite = finite := by rw [hnext]; rfl
  have hread {α : Type} {next : CustomFormula → Except StoreError α} {a : α} :
      (f.stored.read >>= next) = .ok a ↔ finite = true ∧ next f = .ok a := by
    rw [CustomFormula.read_stored_bind_eq_ok_iff hcreated, hfinite]
  have htracked := tracked_afterAll_empty limits calls f.key
  have hactive : f.stored.isActive = (s.group f.key).isEmpty := isActive_stored_nextVersion hnext
  rw [show s' = s.appended f.stored from hs']
  refine ⟨fun g => ?_, fun hsize fs => ?_, fun hne => ?_, fun hnil a => ?_, fun other g h => ?_,
    fun hcalls key => ?_⟩
  · rw [show f.id = f.stored.id from rfl, get_appended_self hapart, ← hfinite]
    exact CustomFormula.read_stored_eq_ok_iff hcreated
  · rw [versions_appended_nextVersion hnext htracked hsize, hread, bind_eq_ok_iff]
    simp only [Except.ok.injEq]
    rfl
  · rw [active_appended_of_inactive sameGroup_stored_key (by simpa [hactive] using hne)]
  · rw [active_appended_of_nil sameGroup_stored_key (by simpa [hactive] using hnil) hnil, hread,
      Except.ok.injEq]
  · exact get_appended_of_ok h
  · -- The new store is one that calls lead to as well, so all its rows are saved formulas.
    have hall : s.appended f.stored =
        (empty limits).afterAll (calls ++ [.create id now draft]) := by
      rw [afterAll, List.foldl_concat]
      exact hs'.symm
    rw [hall]
    exact ((sound_empty limits).holds_afterAll (fun _ h => by cases h) hcalls).readable key

theorem read_after_create_of_constant :
    ((empty .standard).run (create "1" ⟨0, 0⟩ (constantDraft 0.8))).1 =
        .ok ((empty .standard).nextVersion "1" ⟨0, 0⟩ (constantDraft 0.8)) ∧
      ((empty .standard).after (.create "1" ⟨0, 0⟩ (constantDraft 0.8))).get "1" =
        .ok ((empty .standard).nextVersion "1" ⟨0, 0⟩ (constantDraft 0.8)) := by
  have hcivil : (⟨0, 0⟩ : Instant).IsCivil := ⟨by decide, by decide, by decide⟩
  have hfinite : (constantDraft 0.8).constants.all Constant.isFinite = true := by
    have : (0.8 : Float).isFinite = true := by decide +kernel
    simp [constantDraft, Constant.isFinite, this]
  have hsaved := congrArg Prod.fst (run_create_constantDraft 0.8)
  exact ⟨hsaved, ((read_after_create .standard [] hcivil hsaved).1 _).2 ⟨hfinite, rfl⟩⟩

/-- An infinite constant is saved and has no spelling. -/
theorem not_read_after_create :
    ((empty .standard).run (create "1" ⟨0, 0⟩ (constantDraft (1 / 0)))).1 =
        .ok ((empty .standard).nextVersion "1" ⟨0, 0⟩ (constantDraft (1 / 0))) ∧
      ((empty .standard).after (.create "1" ⟨0, 0⟩ (constantDraft (1 / 0)))).get "1" =
        .error (.corrupt ⟨"1", "invalid type: null, expected f64 at line 1 column 36"⟩) := by
  have hcolumn : StoredFormula.faultColumn (.array [.object [("key", .string "k"),
      ("label", .string "K"), ("value", .null)]]) = 36 := by
    decide +kernel
  have hread : ((empty .standard).nextVersion "1" ⟨0, 0⟩ (constantDraft (1 / 0))).stored.read =
      .error (.corrupt ⟨"1", "invalid type: null, expected f64 at line 1 column 36"⟩) := by
    have hstored : ((empty .standard).nextVersion "1" ⟨0, 0⟩
        (constantDraft (1 / 0))).stored.constants = _ := constantsToJson_infinite
    rw [StoredFormula.read, hstored, hcolumn]
    rfl
  rw [after, run_create_constantDraft]
  exact ⟨rfl, hread⟩

end FormulaStore

end Appraisal
