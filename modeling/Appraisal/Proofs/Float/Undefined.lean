import Appraisal.Number.Rounding

/-!
# Undefined numbers

Arithmetic keeps an undefined operand undefined, on whichever side it stands, and so does rounding.
Nothing is above or below an undefined number, which is why a comparison loses it, and a power can
be decided by the other operand.
-/

namespace Appraisal

open Float.Model (UnpackedFloat)

variable {x y : Float}

theorem isNaN_iff_unpack : x.isNaN = true ↔ x.toModel.unpack = .notANumber := by
  change x.toModel.unpack.isNaN = true ↔ _
  cases x.toModel.unpack with
  | notANumber => exact iff_of_true rfl rfl
  | _ => exact iff_of_false Bool.false_ne_true UnpackedFloat.noConfusion

theorem not_isFinite_of_isNaN (h : x.isNaN = true) : x.isFinite = false := by
  change x.toModel.unpack.isFinite = false
  rw [isNaN_iff_unpack.1 h]
  rfl

theorem isNaN_zero_div_zero : (0 / 0 : Float).isNaN = true :=
  rfl

theorem isNaN_pack {u : UnpackedFloat} (h : u = .notANumber) :
    Float.isNaN ⟨Float.Model.pack u⟩ = true := by
  rw [h]
  rfl

/-- What an operation on unpacked numbers has to do for the packed ones. -/
theorem isNaN_pack_apply {op : UnpackedFloat → UnpackedFloat → UnpackedFloat}
    (hleft : ∀ v, op .notANumber v = .notANumber) (hright : ∀ u, op u .notANumber = .notANumber)
    (h : x.isNaN = true ∨ y.isNaN = true) :
    Float.isNaN ⟨Float.Model.pack (op x.toModel.unpack y.toModel.unpack)⟩ = true := by
  apply isNaN_pack
  rcases h with h | h <;> rw [isNaN_iff_unpack.1 h]
  · exact hleft _
  · exact hright _

theorem isNaN_add (h : x.isNaN = true ∨ y.isNaN = true) : (x + y).isNaN = true :=
  isNaN_pack_apply (fun _ => rfl) (fun u => by cases u <;> rfl) h

theorem isNaN_sub (h : x.isNaN = true ∨ y.isNaN = true) : (x - y).isNaN = true :=
  isNaN_pack_apply (fun _ => rfl) (fun u => by cases u <;> rfl) h

theorem isNaN_mul (h : x.isNaN = true ∨ y.isNaN = true) : (x * y).isNaN = true :=
  isNaN_pack_apply (fun _ => rfl) (fun u => by cases u <;> rfl) h

theorem isNaN_div (h : x.isNaN = true ∨ y.isNaN = true) : (x / y).isNaN = true :=
  isNaN_pack_apply (fun _ => rfl) (fun u => by cases u <;> rfl) h

theorem isNaN_abs (h : x.isNaN = true) : x.abs.isNaN = true := by
  apply isNaN_pack
  rw [isNaN_iff_unpack.1 h]
  rfl

theorem isNaN_sqrt (h : x.isNaN = true) : x.sqrt.isNaN = true := by
  apply isNaN_pack
  rw [isNaN_iff_unpack.1 h]
  rfl

theorem not_lt_of_isNaN (h : x.isNaN = true) (y : Float) : ¬ x < y := by
  change ¬ decide ((x.toModel.unpack.compare y.toModel.unpack == some .lt) = true) = true
  rw [isNaN_iff_unpack.1 h]
  exact Bool.false_ne_true

theorem not_gt_of_isNaN (h : x.isNaN = true) (y : Float) : ¬ x > y := by
  change ¬ decide ((y.toModel.unpack.compare x.toModel.unpack == some .lt) = true) = true
  rw [isNaN_iff_unpack.1 h]
  cases y.toModel.unpack <;> exact Bool.false_ne_true

namespace Number

theorem wholePart_of_isNaN (h : x.isNaN = true) : wholePart x = x :=
  if_neg (not_lt_of_isNaN (isNaN_abs h) _)

theorem floor_of_isNaN (h : x.isNaN = true) : floor x = x := by
  have hsame : ¬ x < x := not_lt_of_isNaN h x
  simp only [floor, wholePart_of_isNaN h, if_neg hsame]

theorem ceiling_of_isNaN (h : x.isNaN = true) : ceiling x = x := by
  have hsame : ¬ x < x := not_lt_of_isNaN h x
  simp only [ceiling, wholePart_of_isNaN h, if_neg hsame]

theorem isNaN_roundHalfUp (h : x.isNaN = true) : (roundHalfUp x).isNaN = true := by
  simp only [roundHalfUp, floor_of_isNaN h]
  split
  · exact isNaN_add (.inl h)
  · exact h

/-- The larger of two numbers is the other one if the first is undefined. -/
theorem larger_of_isNaN (h : x.isNaN = true) (y : Float) : larger x y = y :=
  if_pos h

/-- A zero exponent or a unit base, which decides a power alone. -/
def IsUnitPower (base exponent : Float) : Prop :=
  (exponent == 0) = true ∨ (base == 1) = true

theorem power_of_isUnitPower (h : IsUnitPower x y) : power x y = 1 :=
  if_pos (Bool.or_eq_true_iff.2 h)

theorem isNaN_power (h : x.isNaN = true ∨ y.isNaN = true) (hunit : ¬ IsUnitPower x y) :
    (power x y).isNaN = true := by
  rw [power, if_neg (fun hone => hunit (Bool.or_eq_true_iff.1 hone)),
    if_pos (Bool.or_eq_true_iff.2 h)]
  exact isNaN_zero_div_zero

end Number

end Appraisal
