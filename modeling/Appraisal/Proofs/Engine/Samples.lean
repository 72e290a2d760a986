import Appraisal.Engine.Simulation
import Appraisal.Proofs.Context
import Appraisal.Proofs.Simulation.Ending

/-!
# Samples

A run takes its draws from one generator, one after the other: all draws of the first variable, then
all of the second one, and so on. A sample consists of one draw of each variable at the same place,
and a formula sees it over the context of the run. If one draw does not end there are no samples.
-/

namespace Appraisal.Engine

open Simulation (Yields Ends yields_pure ends_pure)

variable {vs ws : List UncertainVariable} {size : Nat} {seed : UInt64}
  {columns : List (String × List Float)}

/-- One column for each variable, with one number for each sample. -/
structure IsTable (vs : List UncertainVariable) (size : Nat)
    (columns : List (String × List Float)) : Prop where
  ids : columns.map (·.1) = vs.map (·.id)
  length_eq : ∀ column ∈ columns, column.2.length = size

theorem yields_drawAll (size : Nat) (vs : List UncertainVariable) :
    Yields (drawAll size vs) fun draws =>
      draws.length = vs.length ∧ ∀ xs ∈ draws, xs.length = size := by
  induction vs with
  | nil => exact yields_pure ⟨rfl, List.forall_mem_nil _⟩
  | cons v vs ih =>
    refine (Simulation.yields_drawsWith (Simulation.yields_true _) size).bind fun first hfirst => ?_
    refine ih.bind fun rest hrest => yields_pure ⟨?_, ?_⟩
    · rw [List.length_cons, List.length_cons, hrest.1]
    · exact List.forall_mem_cons.2 ⟨hfirst.1, hrest.2⟩

theorem columnDraws?_eq_some_iff : columnDraws? vs size seed = some columns ↔
    ∃ draws g, (drawAll size vs).run (.ofSeed seed) = some (draws, g) ∧
      (vs.map (·.id)).zip draws = columns := by
  rw [columnDraws?, Option.bind_eq_bind, Option.bind_eq_some_iff, Prod.exists]
  simp only [Option.pure_def, Option.some.injEq]

theorem isTable_of_columnDraws? (h : columnDraws? vs size seed = some columns) :
    IsTable vs size columns := by
  obtain ⟨draws, g, hrun, rfl⟩ := columnDraws?_eq_some_iff.1 h
  obtain ⟨hlength, hsize⟩ := yields_drawAll size vs _ _ hrun
  refine ⟨List.map_fst_zip (by rw [List.length_map, hlength]), fun column hcolumn => ?_⟩
  exact hsize _ (List.of_mem_zip hcolumn).2

theorem ends_drawAll (h : ∀ v ∈ vs, ¬ v.Searches) : Ends (drawAll size vs) := by
  induction vs with
  | nil => exact ends_pure _
  | cons v vs ih =>
    obtain ⟨hv, hvs⟩ := List.forall_mem_cons.1 h
    exact (Simulation.ends_drawsWith (Simulation.ends_drawWith hv) size).bind fun _ =>
      (ih hvs).bind fun _ => ends_pure _

theorem exists_columnDraws? (h : ∀ v ∈ vs, ¬ v.Searches) (size : Nat) (seed : UInt64) :
    ∃ columns, columnDraws? vs size seed = some columns := by
  obtain ⟨draws, g, hrun⟩ := (ends_drawAll h).exists_run (.ofSeed seed)
  exact ⟨_, columnDraws?_eq_some_iff.2 ⟨draws, g, hrun, rfl⟩⟩

theorem yields_drawAll_of_endless {v : UncertainVariable} (hv : v ∈ vs) (hordered : v.Ordered)
    (hendless : v.Endless) (hsize : size ≠ 0) : Yields (drawAll size vs) fun _ => False := by
  induction vs with
  | nil => cases hv
  | cons w vs ih =>
    obtain rfl | hv := List.mem_cons.1 hv
    · obtain ⟨n, rfl⟩ := Nat.exists_eq_succ_of_ne_zero hsize
      have hdraws : Yields (Simulation.draws v (n + 1)) fun _ => False :=
        (Simulation.yields_of_endless hordered hendless).bind fun _ hnever => hnever.elim
      exact hdraws.bind fun _ hnever => hnever.elim
    · exact (Simulation.yields_true _).bind fun _ _ => (ih hv).bind fun _ hnever => hnever.elim

theorem columnDraws?_eq_none_of_endless {v : UncertainVariable} (hv : v ∈ vs)
    (hvalid : v.validate = .ok ()) (hendless : v.Endless) (hsize : size ≠ 0) (seed : UInt64) :
    columnDraws? vs size seed = none := by
  have hnever := yields_drawAll_of_endless hv (UncertainVariable.ordered_of_validate hvalid)
    hendless hsize
  rw [columnDraws?, hnever.run_eq_none]
  rfl

/-- A point is drawn without a random number. -/
theorem yields_drawAll_points (h : ∀ v ∈ vs, v.distribution = .point) (size : Nat) :
    Yields (drawAll size vs) (· = vs.map fun v => List.replicate size v.mode) := by
  induction vs with
  | nil => exact yields_pure rfl
  | cons v vs ih =>
    obtain ⟨hv, hvs⟩ := List.forall_mem_cons.1 h
    have hdraw : Yields (Simulation.draw v) (· = v.mode) := by
      rw [Simulation.draw, Simulation.drawWith, hv]
      split_ifs <;> exact yields_pure rfl
    refine (Simulation.yields_drawsWith hdraw size).bind fun first hfirst => ?_
    refine (ih hvs).bind fun rest hrest => yields_pure ?_
    rw [List.map_cons, hrest, List.eq_replicate_iff.2 hfirst]

theorem columnDraws?_points (h : ∀ v ∈ vs, v.distribution = .point) (size : Nat) (seed : UInt64) :
    columnDraws? vs size seed = some (vs.map fun v => (v.id, List.replicate size v.mode)) := by
  have hends : ∀ v ∈ vs, ¬ v.Searches := fun v hv hsearches => by
    cases (h v hv).symm.trans hsearches.1
  obtain ⟨columns, hcolumns⟩ := exists_columnDraws? hends size seed
  obtain ⟨draws, g, hrun, rfl⟩ := columnDraws?_eq_some_iff.1 hcolumns
  obtain rfl : draws = _ := yields_drawAll_points h size _ _ hrun
  rw [hcolumns, List.zip_map']

theorem drawAll_append (size : Nat) (vs ws : List UncertainVariable) :
    drawAll size (vs ++ ws) = do return (← drawAll size vs) ++ (← drawAll size ws) := by
  induction vs with
  | nil => simp [drawAll]
  | cons v vs ih => simp [drawAll, ih]

/-- The columns of a run start with those of a run with the first of its variables. -/
theorem columnDraws?_append (h : columnDraws? (vs ++ ws) size seed = some columns) :
    ∃ first rest, columnDraws? vs size seed = some first ∧ columns = first ++ rest ∧
      rest.map (·.1) = ws.map (·.id) := by
  obtain ⟨draws, g, hrun, rfl⟩ := columnDraws?_eq_some_iff.1 h
  rw [drawAll_append] at hrun
  obtain ⟨first, g₁, hfirst, hrun⟩ := Simulation.run_bind_eq_some_iff.1 hrun
  obtain ⟨rest, g₂, hrest, ⟨⟩⟩ := Simulation.run_bind_eq_some_iff.1 hrun
  have hlength := (yields_drawAll size vs _ _ hfirst).1
  have hlength' := (yields_drawAll size ws _ _ hrest).1
  refine ⟨_, (ws.map (·.id)).zip rest, columnDraws?_eq_some_iff.2 ⟨first, g₁, hfirst, rfl⟩, ?_, ?_⟩
  · rw [List.map_append, List.zip_append (by rw [List.length_map, hlength])]
  · exact List.map_fst_zip (by rw [List.length_map, hlength'])

theorem exists_columnDraws?_append (h : columnDraws? vs size seed = some columns)
    (hws : ∀ w ∈ ws, ¬ w.Searches) :
    ∃ columns, columnDraws? (vs ++ ws) size seed = some columns := by
  obtain ⟨first, g₁, hfirst, -⟩ := columnDraws?_eq_some_iff.1 h
  obtain ⟨rest, g₂, hrest⟩ := (ends_drawAll hws).exists_run g₁
  have hrun : (drawAll size (vs ++ ws)).run (.ofSeed seed) = some (first ++ rest, g₂) := by
    rw [drawAll_append]
    exact Simulation.run_bind_eq_some_iff.2
      ⟨first, g₁, hfirst, Simulation.run_bind_eq_some_iff.2 ⟨rest, g₂, hrest, rfl⟩⟩
  exact ⟨_, columnDraws?_eq_some_iff.2 ⟨_, _, hrun, rfl⟩⟩

/-- The draws of the first variables are told by these variables alone. -/
theorem columnDraws?_take (h : columnDraws? vs size seed = some columns) (j : Nat) :
    columnDraws? (vs.take j) size seed = some (columns.take j) := by
  rw [← List.take_append_drop j vs] at h
  obtain ⟨first, rest, hfirst, rfl, hrest⟩ := columnDraws?_append h
  have hlength := congrArg List.length (isTable_of_columnDraws? hfirst).ids
  have hlength' := congrArg List.length hrest
  simp only [List.length_map, List.length_take, List.length_drop] at hlength hlength'
  have hnone : rest.take (j - first.length) = [] := by
    rw [List.take_eq_nil_iff, ← List.length_eq_zero_iff]
    omega
  rw [hfirst, List.take_append, List.take_of_length_le (by omega), hnone, List.append_nil]

/-- The values of some columns at place `i`. -/
def placeOf (columns : List (String × List Float)) (i : Nat) : List (String × Float) :=
  columns.map fun column => (column.1, column.2.getD i 0)

theorem map_fst_placeOf (columns : List (String × List Float)) (i : Nat) :
    (placeOf columns i).map (·.1) = columns.map (·.1) := by
  rw [placeOf, List.map_map]
  rfl

theorem outputsOf_eq (f : Formula) (base : Context) (columns : List (String × List Float))
    (size : Nat) :
    outputsOf f base columns size = (List.range size).map fun i =>
      f.evaluate ((placeOf columns i).foldl (fun context p => context.insert p.1 p.2) base) := by
  induction size generalizing columns with
  | zero => rfl
  | succ size ih =>
    -- The first value of the rest of a column is the second one of the column.
    have htail (i : Nat) :
        placeOf (columns.map fun c => (c.1, c.2.tail)) i = placeOf columns (i + 1) := by
      simp [placeOf, List.getD_eq_getElem?_getD]
    have hhead : sampleContext base columns =
        (placeOf columns 0).foldl (fun context p => context.insert p.1 p.2) base := by
      rw [sampleContext, placeOf, List.foldl_map]
      simp [List.headD_eq_head?_getD, List.head?_eq_getElem?, List.getD_eq_getElem?_getD]
    rw [outputsOf, ih, List.range_succ_eq_map, List.map_cons, List.map_map, hhead]
    simp only [htail]
    rfl

theorem exists_outputs? (h : ∀ v ∈ vs, ¬ v.Searches) (f : Formula) (base : Context) (size : Nat)
    (seed : UInt64) :
    ∃ values, outputs? f base vs size seed = some values ∧ values.length = size := by
  obtain ⟨columns, hcolumns⟩ := exists_columnDraws? h size seed
  refine ⟨outputsOf f base columns size, ?_, ?_⟩
  · rw [outputs?, hcolumns]
    rfl
  · rw [outputsOf_eq, List.length_map, List.length_range]

end Appraisal.Engine
