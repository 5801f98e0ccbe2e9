import Mathlib.Data.List.Perm.Basic
import Mathlib.Logic.Function.Basic
import Multirotor.Binary32.Arithmetic

/-!
# Binary32 numbers up to the sign of a zero

Two numbers are alike when they share a place in the order, that is when they are equal or both are
zeros.  Comparisons, sums and products make nothing of the difference between alike numbers, and the
extremes of a list depend on the places of its members alone, in whatever order they come.
-/

namespace Multirotor.Binary32

/-- The numbers share a place in the order. -/
def Alike (x y : Binary32) : Prop := x.place? = y.place?

instance (x y : Binary32) : Decidable (x.Alike y) := inferInstanceAs (Decidable (_ = _))

variable {x x' y y' : Binary32}

theorem Alike.refl (x : Binary32) : x.Alike x := rfl

theorem Alike.trans {z : Binary32} (alike : x.Alike y) (alike' : y.Alike z) : x.Alike z :=
  Eq.trans alike alike'

theorem Alike.symm (alike : x.Alike y) : y.Alike x := Eq.symm alike

theorem alike_finite_zero (s t : Bool) : (finite s 0).Alike (finite t 0) := by
  cases s <;> cases t <;> rfl

/-- Alike numbers differ at most in the sign of a zero. -/
theorem alike_iff : x.Alike y ↔ x = y ∨ ∃ s t, x = finite s 0 ∧ y = finite t 0 := by
  constructor
  · rw [Alike]
    intro places
    rcases x with _ | ⟨_ | _⟩ | ⟨_ | _, a, bound⟩ <;>
      rcases y with _ | ⟨_ | _⟩ | ⟨_ | _, b, bound'⟩ <;>
        simp [place?] at places ⊢ <;> omega
  · rintro (rfl | ⟨s, t, rfl, rfl⟩)
    · rfl
    · exact alike_finite_zero s t

/-- Only zeros are alike without being equal. -/
theorem Alike.eq_of_ne_zero (alike : x.Alike y) (nonzero : x.place? ≠ some 0) : x = y := by
  rcases alike_iff.mp alike with same | ⟨s, t, rfl, rfl⟩
  · exact same
  · exact absurd (alike_finite_zero s false) nonzero

/-! ## The order -/

theorem Alike.lt_iff (alike : x.Alike x') (alike' : y.Alike y') : x < y ↔ x' < y' := by
  rw [Binary32.lt_iff, Binary32.lt_iff, alike, alike']

theorem exists_place (number : x ≠ nan) : ∃ place, x.place? = some place := by
  cases x with
  | nan => exact absurd rfl number
  | infinity negative => cases negative <;> exact ⟨_, rfl⟩
  | finite negative rank => cases negative <;> exact ⟨_, rfl⟩

/-- Alike numbers that are not NaN are numerically equal. -/
theorem Alike.le_and_le (alike : x.Alike y) (number : y ≠ nan) : x ≤ y ∧ y ≤ x := by
  obtain ⟨place, same⟩ := exists_place number
  have same' : x.place? = some place := Eq.trans alike same
  exact ⟨le_iff.mpr ⟨place, place, same', same, Int.le_refl place⟩,
    le_iff.mpr ⟨place, place, same, same', Int.le_refl place⟩⟩

theorem Alike.clampUnit (alike : x.Alike y) : (clampUnit x).Alike (clampUnit y) := by
  simp only [Binary32.clampUnit, alike.lt_iff (.refl 0), (Alike.refl 1).lt_iff alike]
  split
  · rfl
  · split
    · rfl
    · exact alike

/-! ## Arithmetic -/

private theorem ofRatio_zero (negative : Bool) (den : Nat) :
    ofRatio negative 0 den = finite negative 0 := by
  have rank : nearestRank 0 den = 0 := by simp [nearestRank, nearestEven]
  simp [ofRatio, rank]

protected theorem add_comm (x y : Binary32) : x + y = y + x := by
  change x.add y = y.add x
  rcases x with _ | s | ⟨s, a⟩ <;> rcases y with _ | t | ⟨t, b⟩ <;> try rfl
  · simp only [add, eq_comm (a := s)]
    split <;> simp_all
  · simp only [add, Bool.and_comm s, Int.add_comm (units s a)]

protected theorem mul_comm (x y : Binary32) : x * y = y * x := by
  change x.mul y = y.mul x
  rcases x with _ | s | ⟨s, a⟩ <;> rcases y with _ | t | ⟨t, b⟩ <;> try rfl
  all_goals simp only [mul, bne_comm (a := s)]
  rw [Nat.mul_comm]

protected theorem abs_neg (x : Binary32) : (-x).abs = x.abs := by
  change x.neg.abs = x.abs
  cases x <;> rfl

protected theorem neg_mul (x y : Binary32) : -x * y = -(x * y) := by
  change x.neg.mul y = (x.mul y).neg
  rcases x with _ | s | ⟨s, a⟩ <;> rcases y with _ | t | ⟨t, b⟩ <;> try rfl
  · rw [neg, mul, mul, neg, Bool.not_bne]
  · rw [neg, mul, mul, Bool.not_bne]
    split <;> rfl
  · rw [neg, mul, mul, Bool.not_bne]
    split <;> rfl
  · rw [neg, mul, mul, Bool.not_bne]
    exact (neg_ofRatio _ _ _).symm

theorem neg_mul_comm (x y : Binary32) : -x * y = x * -y := by
  rw [Binary32.neg_mul, Binary32.mul_comm, ← Binary32.neg_mul, Binary32.mul_comm]

/-- The sign of a zero in a sum shows at most in the sign of a zero. -/
private theorem zero_add_alike (s t : Bool) (y : Binary32) :
    (finite s 0 + y).Alike (finite t 0 + y) := by
  change ((finite s 0).add y).Alike ((finite t 0).add y)
  have units_zero (negative : Bool) : units negative 0 = 0 := by cases negative <;> rfl
  rcases y with _ | _ | ⟨u, b⟩ <;> try rfl
  simp only [add, Fin.val_zero, units_zero, Int.zero_add, ofUnits]
  split
  · rename_i zero
    simp only [zero, Int.natAbs_zero, ofRatio_zero]
    exact alike_finite_zero _ _
  · rfl

private theorem zero_mul_alike (s t : Bool) (y : Binary32) :
    (finite s 0 * y).Alike (finite t 0 * y) := by
  change ((finite s 0).mul y).Alike ((finite t 0).mul y)
  rcases y with _ | _ | ⟨u, b⟩ <;> try rfl
  have zero : magnitude ((0 : Fin 0x7f800000) : Nat) = 0 := rfl
  simp only [mul, zero, Nat.zero_mul, ofRatio_zero]
  exact alike_finite_zero _ _

theorem Alike.add (alike : x.Alike x') (alike' : y.Alike y') : (x + y).Alike (x' + y') := by
  have left {x x' : Binary32} (alike : x.Alike x') (y : Binary32) : (x + y).Alike (x' + y) := by
    rcases alike_iff.mp alike with rfl | ⟨s, t, rfl, rfl⟩
    · rfl
    · exact zero_add_alike s t y
  apply (left alike y).trans
  rw [Binary32.add_comm x', Binary32.add_comm x']
  exact left alike' x'

theorem Alike.neg (alike : x.Alike y) : (-x).Alike (-y) := by
  rcases alike_iff.mp alike with rfl | ⟨s, t, rfl, rfl⟩
  · rfl
  · exact alike_finite_zero _ _

theorem Alike.sub (alike : x.Alike x') (alike' : y.Alike y') : (x - y).Alike (x' - y') :=
  alike.add alike'.neg

theorem Alike.mul (alike : x.Alike x') (alike' : y.Alike y') : (x * y).Alike (x' * y') := by
  have left {x x' : Binary32} (alike : x.Alike x') (y : Binary32) : (x * y).Alike (x' * y) := by
    rcases alike_iff.mp alike with rfl | ⟨s, t, rfl, rfl⟩
    · rfl
    · exact zero_mul_alike s t y
  apply (left alike y).trans
  rw [Binary32.mul_comm x', Binary32.mul_comm x']
  exact left alike' x'

/-! ## Extremes -/

theorem place?_greatest (x y : Binary32) :
    (greatest x y).place? = Option.merge max x.place? y.place? := by
  by_cases number_x : x = nan
  · simp [greatest, number_x, place?]
  by_cases number_y : y = nan
  · simp [greatest, number_y, number_x, place?, lt_iff]
  obtain ⟨a, place_x⟩ := exists_place number_x
  obtain ⟨b, place_y⟩ := exists_place number_y
  have order : x < y ↔ a < b := by simp [lt_iff, place_x, place_y]
  simp only [greatest, number_x, false_or, order, apply_ite place?, place_x, place_y,
    Option.merge_some_some]
  split <;> congr <;> omega

theorem place?_least (x y : Binary32) :
    (least x y).place? = Option.merge min x.place? y.place? := by
  by_cases number_y : y = nan
  · simp [least, number_y, place?]
  by_cases number_x : x = nan
  · simp [least, number_y, number_x, place?, lt_iff]
  obtain ⟨a, place_x⟩ := exists_place number_x
  obtain ⟨b, place_y⟩ := exists_place number_y
  have order : x < y ↔ a < b := by simp [lt_iff, place_x, place_y]
  simp only [least, number_y, false_or, order, apply_ite place?, place_x, place_y,
    Option.merge_some_some]
  split <;> congr <;> omega

/-- The greatest of a list depends on the places of its members, not on their order. -/
theorem foldl_greatest_alike {xs ys : List Binary32}
    (perm : (xs.map place?).Perm (ys.map place?)) (start : Binary32) :
    (xs.foldl greatest start).Alike (ys.foldl greatest start) := by
  have places (values : List Binary32) : (values.foldl greatest start).place? =
      (values.map place?).foldl (Option.merge max) start.place? := by
    rw [List.foldl_map]
    exact (List.foldl_hom place? fun x y => (place?_greatest x y).symm).symm
  rw [Alike, places, places]
  exact perm.foldl_eq _

theorem foldl_least_alike {xs ys : List Binary32}
    (perm : (xs.map place?).Perm (ys.map place?)) (start : Binary32) :
    (xs.foldl least start).Alike (ys.foldl least start) := by
  have places (values : List Binary32) : (values.foldl least start).place? =
      (values.map place?).foldl (Option.merge min) start.place? := by
    rw [List.foldl_map]
    exact (List.foldl_hom place? fun x y => (place?_least x y).symm).symm
  rw [Alike, places, places]
  exact perm.foldl_eq _

end Multirotor.Binary32
