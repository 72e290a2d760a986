import Appraisal.Proofs.CustomFormula.ReadingBack
import Appraisal.Proofs.Expression.Evaluation
import Appraisal.Workbench.Request

/-!
# Evaluating stored formulas

A formula was valid over its input fields when it was saved, and is valid again over any context
that defines these. No later request changes its row but for whether it is active, so the
evaluation of an active formula can only fail for want of a finite value.
-/

namespace Appraisal

namespace Expression

theorem isValid_validate_mono {limits : Limits} {text : String} {available available' : List String}
    (h : (validate limits text available).isValid = true)
    (hsub : ∀ name ∈ available, name ∈ available') :
    (validate limits text available').isValid = true := by
  obtain ⟨hlength, e, he, hnames⟩ := isValid_validate_iff_parse.1 h
  refine isValid_validate_iff_parse.2 ⟨hlength, e, he, fun name hname => ?_⟩
  exact ⟨hsub name (hnames name hname).1, (hnames name hname).2⟩

end Expression

namespace FormulaStore

open StoredFormula (Apart)

variable {s : FormulaStore} {id : String} {now : Instant} {draft : FormulaDraft} {f : CustomFormula}
  {row : StoredFormula} {key : FormulaKey}

theorem limits_changed {s' : FormulaStore} {change : List StoredFormula → List StoredFormula}
    (h : s.changed change = .ok s') : s'.limits = s.limits := by
  obtain ⟨-, -, rfl⟩ := changed_eq_ok_iff.1 h
  rfl

theorem limits_after (call : Call) : (s.after call).limits = s.limits := by
  cases call with
  | create id now draft =>
    rw [after, run_create]
    split
    next s' h =>
      obtain ⟨-, -, h⟩ := bind_eq_ok_iff.1 h
      exact limits_changed h
    next => rfl
  | activate id =>
    rw [after]
    cases hrow : s.row? id with
    | none => rw [run_activate_of_none hrow]
    | some row =>
      rw [run_activate_of_some hrow]
      split
      next s' h =>
        obtain ⟨mid, hmid, h⟩ := bind_eq_ok_iff.1 h
        exact (limits_changed h).trans (limits_changed hmid)
      next => rfl

theorem limits_afterAll (calls : List Call) : (s.afterAll calls).limits = s.limits := by
  induction calls generalizing s with
  | nil => rfl
  | cons call calls ih => exact ih.trans (limits_after call)

/-- Whatever rows there were, a draft is saved into a table that keeps to its indexes. -/
theorem sound_after_create (hf : (s.run (create id now draft)).1 = .ok f) :
    s.check draft = .ok () ∧ (s.after (.create id now draft)).Sound := by
  rw [after]
  rw [run_create] at hf ⊢
  cases hsaved : s.check draft >>= fun _ =>
      s.changed (· ++ [(s.nextVersion id now draft).stored]) with
  | error => simp [hsaved] at hf
  | ok s' =>
    obtain ⟨_, hcheck, hchanged⟩ := bind_eq_ok_iff.1 hsaved
    obtain ⟨hwritable, hapart, rfl⟩ := changed_eq_ok_iff.1 hchanged
    exact ⟨hcheck, hwritable, hapart⟩

theorem isValid_of_check (h : s.check draft = .ok ()) :
    (Expression.validate s.limits draft.expression draft.availableNames).isValid = true := by
  rw [check] at h
  split_ifs at h with hvalid
  exact hvalid

theorem eq_of_isActive {rows : List StoredFormula} {a b : StoredFormula} (h : rows.Pairwise Apart)
    (ha : a ∈ rows) (hb : b ∈ rows) (hkey : a.key.sameGroup b.key = true)
    (hactive : a.isActive = true) (hactive' : b.isActive = true) : a = b := by
  by_contra hne
  have : Std.Symm Apart := ⟨fun _ _ => Apart.symm⟩
  have hinactive := (h.forall ha hb hne).active_ne hkey hactive
  simp [hactive'] at hinactive

/-- The one active version of a key is read. -/
theorem Sound.active_eq (hs : s.Sound) (hrow : row ∈ s.rows) (hkey : row.key.sameGroup key = true)
    (hactive : row.isActive = true) {f : CustomFormula} (hread : row.read = .ok f) :
    s.active key = .ok (some f) := by
  have hgroup : row ∈ s.group key := List.mem_filter.2 ⟨hrow, hkey⟩
  obtain ⟨found, hfound⟩ : ∃ found, (s.group key).find? (·.isActive) = some found :=
    Option.isSome_iff_exists.1 (List.find?_isSome.2 ⟨row, hgroup, hactive⟩)
  have hmem := List.mem_of_find?_eq_some hfound
  have hsame : found.key.sameGroup row.key = true := by
    rw [FormulaKey.sameGroup_congr_right hkey]
    exact sameGroup_of_mem_group hmem
  obtain rfl := eq_of_isActive hs.apart (List.mem_filter.1 hmem).1 hrow hsame
    (by simpa using List.find?_some hfound) hactive
  rw [active, hfound, Option.mapM_some, hread]
  rfl

/-- A saved row stays as it is but for whether it is active. -/
theorem Sound.eq_of_row? (hs : s.Sound) (hf : f.stored ∈ s.rows) {calls : List Call}
    (hrow : (s.afterAll calls).row? f.id = some row) :
    row = { f with isActive := row.isActive }.stored := by
  have hlater : (s.afterAll calls).Sound := hs.afterAll calls
  have hmem : f.stored.setActive false ∈ (s.afterAll calls).contents :=
    (hs.prefix_contents calls).subset (List.mem_map_of_mem hf)
  obtain ⟨kept, hkept, hcontents⟩ := List.mem_map.1 hmem
  have hid : kept.id = f.id := congrArg (fun r : StoredFormula => r.id) hcontents
  obtain ⟨hrowmem, hrowid⟩ := mem_of_row? hrow
  obtain rfl := StoredFormula.eq_of_id_eq hlater.apart hrowmem hkept (hrowid.trans hid.symm)
  change row = (f.stored.setActive row.isActive)
  calc row = (row.setActive false).setActive row.isActive := rfl
    _ = (f.stored.setActive false).setActive row.isActive := by rw [hcontents]

end FormulaStore

/-- The call of the store that a request makes. -/
def Request.call? (m : Moment) : Request → Option FormulaStore.Call
  | .createCustomFormula draft => some (.create m.freshId m.now draft)
  | .activateCustomFormula id => some (.activate id)
  | _ => none

namespace Workbench

open Expression (Constant)

variable {w w' : Workbench} {m : Moment}

theorem store_answer (m : Moment) (request : Request) (w : Workbench) :
    (answer m request w).2.settings = w.settings ∧
      (answer m request w).2.store = w.store.afterAll (request.call? m).toList := by
  cases request with
  | batchUpdate updates =>
    change (batchUpdate m updates w).2.settings = _ ∧ (batchUpdate m updates w).2.store = w.store
    simp only [batchUpdate]
    split
    · rcases w.engine.run (Engine.updateAll m.now updates) with ⟨_ | _, _⟩ <;> exact ⟨rfl, rfl⟩
    · exact ⟨rfl, rfl⟩
  | importState c =>
    change (importState m c w).2.settings = _ ∧ (importState m c w).2.store = w.store
    simp only [importState]
    cases Engine.fromCheckpoint .standard m.now c <;> exact ⟨rfl, rfl⟩
  | _ => exact ⟨rfl, rfl⟩

/-- A later state of a workbench. Between the requests, who shares the browsed engine may change
it in any way. -/
inductive Later (w : Workbench) : Workbench → Prop
  | refl : Later w w
  | shared {w' : Workbench} (engine : Engine) (h : Later w w') : Later w { w' with engine }
  | answered {w' : Workbench} (m : Moment) (request : Request) (h : Later w w') :
      Later w (answer m request w').2

/-- The requests have left the settings alone, and changed the store by its own calls only. -/
theorem Later.exists_calls (h : Later w w') :
    w'.settings = w.settings ∧ ∃ calls, w'.store = w.store.afterAll calls := by
  induction h with
  | refl => exact ⟨rfl, [], rfl⟩
  | shared engine _ ih => exact ih
  | @answered w' m request _ ih =>
    obtain ⟨hsettings, calls, hstore⟩ := ih
    obtain ⟨hsettings', hstore'⟩ := store_answer m request w'
    refine ⟨hsettings'.trans hsettings, calls ++ (request.call? m).toList, ?_⟩
    rw [hstore', hstore, FormulaStore.afterAll, FormulaStore.afterAll, FormulaStore.afterAll,
      List.foldl_append]

theorem evaluateCustomFormula_of_active {key : FormulaKey} {context : Context} {f : CustomFormula}
    (h : w.store.active key = .ok (some f)) :
    (evaluateCustomFormula key context w).1 = .ok {
      formulaId := f.id
      version := f.version
      evaluation := Expression.preview w.settings.limits f.expression context f.constants } := by
  simp only [evaluateCustomFormula, ask, h]
  rfl

theorem run_create_of_createCustomFormula {draft : FormulaDraft} {f : CustomFormula}
    (h : (createCustomFormula m draft w).1.result = .ok f) :
    (w.store.run (FormulaStore.create m.freshId m.now draft)).1 = .ok f := by
  simp only [createCustomFormula, onStore] at h
  cases hrun : (w.store.run (FormulaStore.create m.freshId m.now draft)).1 with
  | error problem =>
    rw [hrun] at h
    cases h
  | ok g =>
    rw [hrun] at h
    cases h
    rfl

/-- A formula that was saved with finite constants is found whenever it is the active one of its
key, and its evaluation over a context with its input fields is the preview of its text, which fails
for no other reason than that the value is not finite. The clock is taken within the years 0 to
9999: a stored time is read back with exactly four digits for its year. -/
theorem evaluated_of_created {settings : Settings} {store : FormulaStore} {opened : Instant}
    {draft : FormulaDraft} {f : CustomFormula} {row : StoredFormula} {key : FormulaKey}
    {context : Context} (hw : Later (withStore settings store opened) w) (hnow : m.now.IsCivil)
    (hf : (createCustomFormula m draft w).1.result = .ok f)
    (hfinite : f.constants.all Constant.isFinite = true)
    (hw' : Later (createCustomFormula m draft w).2 w')
    (hrow : w'.store.row? f.id = some row) (hactive : row.isActive = true)
    (hkey : key.sameGroup f.key = true) (hcontext : ∀ name ∈ f.inputFields, name ∈ context) :
    let evaluation := Expression.preview settings.limits f.expression context f.constants
    (evaluateCustomFormula key context w').1 = .ok ⟨f.id, f.version, evaluation⟩ ∧
      (evaluation.failure = none ∨ evaluation.failure = some .notFinite) := by
  intro evaluation
  obtain ⟨hsettings, calls, hstore⟩ := hw.exists_calls
  obtain ⟨hsettings', later, hstore'⟩ := hw'.exists_calls
  have hrun := run_create_of_createCustomFormula hf
  obtain ⟨hcheck, hsound⟩ := FormulaStore.sound_after_create hrun
  obtain ⟨hnext, -, hafter⟩ := FormulaStore.after_create_of_ok hrun
  set saved := w.store.after (.create m.freshId m.now draft)
  have hsaved : f.stored ∈ saved.rows := by
    rw [hafter]
    exact List.mem_append_right _ (List.mem_singleton_self _)
  replace hstore' : w'.store = saved.afterAll later := hstore'
  replace hsettings' : w'.settings = settings := hsettings'.trans hsettings
  -- The row is the saved one, and read as such.
  rw [hstore'] at hrow
  have hrow' := hsound.eq_of_row? hsaved hrow
  rw [hactive] at hrow'
  have hcivil : f.createdAt.IsCivil := by rwa [hnext]
  have hread : row.read = .ok { f with isActive := true } := by
    rw [hrow']
    exact CustomFormula.read_stored hcivil hfinite
  have hfound : w'.store.active key = .ok (some { f with isActive := true }) := by
    rw [hstore']
    refine (hsound.afterAll later).active_eq (FormulaStore.mem_of_row? hrow).1 ?_ hactive hread
    rw [hrow', FormulaKey.sameGroup_comm]
    exact hkey
  have hevaluated : (evaluateCustomFormula key context w').1 = _ :=
    evaluateCustomFormula_of_active hfound
  rw [hsettings'] at hevaluated
  refine ⟨hevaluated, ?_⟩
  -- Its text is valid under the limits of the settings, over any names that include its own.
  have hlimits : w.store.limits = settings.limits := by
    rw [hstore, FormulaStore.limits_afterAll]
    rfl
  have hvalid : (Expression.validate settings.limits f.expression
      (Expression.availableNames context f.constants)).isValid = true := by
    have hdraft := FormulaStore.isValid_of_check hcheck
    have hexpression : draft.expression = f.expression := by rw [hnext]; rfl
    have hnames : draft.availableNames = f.inputFields ++ f.constants.map (·.key) := by
      rw [hnext]
      rfl
    rw [hlimits, hexpression, hnames] at hdraft
    refine Expression.isValid_validate_mono hdraft (List.forall_mem_append.2 ⟨?_, ?_⟩)
    · intro name hname
      exact List.mem_append_left _ (Std.ExtTreeMap.mem_keys.2 (hcontext name hname))
    · intro name hname
      exact List.mem_append_right _ hname
  rw [show evaluation = _ from Expression.preview_of_isValid hvalid]
  exact (Expression.settled_evaluate hvalid).imp (·.1) (·.1)

/-- A formula of an input field and a constant. -/
def shareDraft : FormulaDraft where
  key := ⟨none, some "r", "total"⟩
  label := "Total"
  expression := "p/s"
  inputFields := ["p"]
  constants := [⟨"s", "", 0.8⟩]
  notes := none
  createdBy := none

theorem evaluated_of_created_share :
    let w := new .standard ⟨0, 0⟩
    let created := createCustomFormula ⟨⟨0, 0⟩, "1"⟩ shareDraft w
    let w' := (answer ⟨⟨1, 0⟩, "2"⟩ (.activateCustomFormula "3") created.2).2
    let context := Context.ofPairs [("p", 40), ("other", 2)]
    created.1.success = true ∧ ∃ evaluation : Expression.Evaluation,
      (evaluateCustomFormula shareDraft.key context w').1 = .ok ⟨"1", 1, evaluation⟩ ∧
        evaluation.value = 50 ∧ evaluation.failure = none := by
  intro w created w' context
  have hvalid : (Expression.validate .standard "p/s" ["p", "s"]).isValid = true := by cbv
  have hcheck : w.store.check shareDraft = .ok () := if_pos hvalid
  have hrun : w.store.run (FormulaStore.create "1" ⟨0, 0⟩ shareDraft) =
      (.ok (w.store.nextVersion "1" ⟨0, 0⟩ shareDraft),
        w.store.appended (w.store.nextVersion "1" ⟨0, 0⟩ shareDraft).stored) :=
    (FormulaStore.sound_empty .standard).run_create FormulaStore.tracked_nil hcheck rfl (by decide)
  have hcreated : created = (.ok (w.store.nextVersion "1" ⟨0, 0⟩ shareDraft), { w with
      store := w.store.appended (w.store.nextVersion "1" ⟨0, 0⟩ shareDraft).stored }) := by
    simp only [created, createCustomFormula, onStore, hrun]
    rfl
  have hfinite : (w.store.nextVersion "1" ⟨0, 0⟩ shareDraft).constants.all
      Expression.Constant.isFinite = true := by
    decide +kernel
  have hrow : w'.store.row? "1" = some (w.store.nextVersion "1" ⟨0, 0⟩ shareDraft).stored := by
    rw [(store_answer _ _ _).2, hcreated]
    change ((w.store.appended _).after (.activate "3")).row? "1" = _
    have hnone : (w.store.appended (w.store.nextVersion "1" ⟨0, 0⟩ shareDraft).stored).row? "3" =
        none := rfl
    rw [FormulaStore.after, FormulaStore.run_activate_of_none hnone]
    rfl
  have hcontext : ∀ name ∈ ["p"], name ∈ context := by
    simp [context, Context.ofPairs]
  have hopened : Later (withStore .standard (.empty Settings.standard.limits) ⟨0, 0⟩) w := .refl
  have hkey : shareDraft.key.sameGroup (w.store.nextVersion "1" ⟨0, 0⟩ shareDraft).key = true := rfl
  obtain ⟨hevaluated, -⟩ := evaluated_of_created hopened ⟨by decide, by decide, by decide⟩
    (congrArg (·.1.result) hcreated) hfinite (.answered _ _ .refl) hrow rfl hkey hcontext
  have hparse : Expression.parse Expression.Limits.standard.maxDepth "p/s" =
      .ok (.binary .div (.var "p") (.var "s")) := by cbv
  have heval : Expression.eval ((Expression.bindings context shareDraft.constants).get? ·)
      (.binary .div (.var "p") (.var "s")) = .ok 50 := by decide +kernel
  have hnames : ∀ name ∈ ["p", "s"],
      name ∈ Expression.availableNames context shareDraft.constants := by
    simp [Expression.availableNames, context, Context.ofPairs, shareDraft]
  have hpreview : Expression.preview .standard "p/s" context shareDraft.constants =
      ⟨50, Expression.inputSteps context shareDraft.constants ++ [⟨"Result", 50⟩], none⟩ := by
    rw [Expression.preview_of_isValid (Expression.isValid_validate_mono hvalid hnames),
      Expression.evaluate, Expression.outcome_of_eval (by decide) hparse heval]
    rfl
  exact ⟨by rw [hcreated]; rfl, _, hevaluated, congrArg (·.value) hpreview,
    congrArg (·.failure) hpreview⟩

end Workbench

end Appraisal
