/-!
# Overflow of floating-point numbers

An infinite or undefined operand never gives a finite number: what has overflowed once stays so
under every further addition, multiplication and division.
-/

namespace Appraisal

open Float.Model (UnpackedFloat Format)

theorem isFinite_of_pack {x : UnpackedFloat} (h : (Float.Model.pack x).unpack.isFinite = true) :
    x.isFinite = true := by
  cases x with
  | zero | finite => rfl
  | infinity s => cases s <;> exact absurd h (by decide)
  | notANumber => exact absurd h (by decide)

theorem unpacked_isFinite_of_add {spec : Format} {x y : UnpackedFloat}
    (h : (UnpackedFloat.add spec x y).isFinite = true) :
    x.isFinite = true ∧ y.isFinite = true := by
  cases x with
  | notANumber => cases y <;> cases h
  | infinity s =>
    cases y with
    | infinity t => cases s <;> cases t <;> cases h
    | _ => cases h
  | zero | finite =>
    cases y with
    | zero | finite => exact ⟨rfl, rfl⟩
    | _ => cases h

theorem unpacked_isFinite_of_sub {spec : Format} {x y : UnpackedFloat}
    (h : (UnpackedFloat.sub spec x y).isFinite = true) :
    x.isFinite = true ∧ y.isFinite = true := by
  cases x with
  | notANumber => cases y <;> cases h
  | infinity s =>
    cases y with
    | infinity t => cases s <;> cases t <;> cases h
    | _ => cases h
  | zero | finite =>
    cases y with
    | zero | finite => exact ⟨rfl, rfl⟩
    | _ => cases h

theorem unpacked_isFinite_of_mul {spec : Format} {x y : UnpackedFloat}
    (h : (UnpackedFloat.mul spec x y).isFinite = true) :
    x.isFinite = true ∧ y.isFinite = true := by
  cases x with
  | infinity | notANumber => cases y <;> cases h
  | zero | finite =>
    cases y with
    | zero | finite => exact ⟨rfl, rfl⟩
    | infinity | notANumber => cases h

theorem unpacked_isFinite_of_div {spec : Format} {x y : UnpackedFloat}
    (h : (UnpackedFloat.div spec x y).isFinite = true) : x.isFinite = true := by
  cases x with
  | zero | finite => rfl
  | infinity | notANumber => cases y <;> cases h

theorem isFinite_of_add {x y : Float} (h : (x + y).isFinite = true) :
    x.isFinite = true ∧ y.isFinite = true :=
  unpacked_isFinite_of_add (isFinite_of_pack h)

theorem isFinite_of_sub {x y : Float} (h : (x - y).isFinite = true) :
    x.isFinite = true ∧ y.isFinite = true :=
  unpacked_isFinite_of_sub (isFinite_of_pack h)

theorem isFinite_of_mul {x y : Float} (h : (x * y).isFinite = true) :
    x.isFinite = true ∧ y.isFinite = true :=
  unpacked_isFinite_of_mul (isFinite_of_pack h)

theorem isFinite_of_div {x y : Float} (h : (x / y).isFinite = true) : x.isFinite = true :=
  unpacked_isFinite_of_div (isFinite_of_pack h)

/-- A finite total has finite terms. -/
theorem isFinite_of_foldl_add {start : Float} {xs : List Float}
    (h : (xs.foldl (· + ·) start).isFinite = true) :
    start.isFinite = true ∧ ∀ x ∈ xs, x.isFinite = true := by
  induction xs generalizing start with
  | nil => exact ⟨h, by simp⟩
  | cons x xs ih =>
    obtain ⟨hsum, hxs⟩ := ih h
    obtain ⟨hstart, hx⟩ := isFinite_of_add hsum
    exact ⟨hstart, List.forall_mem_cons.2 ⟨hx, hxs⟩⟩

/-- No later term brings a total back that has overflowed. -/
theorem isFinite_foldl_add_iff {start : Float} {xs : List Float} :
    (xs.foldl (· + ·) start).isFinite = true ↔
      ∀ total ∈ xs.scanl (· + ·) start, total.isFinite = true := by
  induction xs generalizing start with
  | nil => simp
  | cons x xs ih =>
    rw [List.foldl_cons, List.scanl_cons, List.forall_mem_cons, ← ih, iff_and_self]
    exact fun h => (isFinite_of_add (isFinite_of_foldl_add h).1).1

end Appraisal
