import Mathlib.Algebra.Order.Group.MinMax
import Multirotor.Proofs.Binary32.Near

/-!
# Extremes of finite binary32 numbers

On finite numbers the lesser, the greater and the clamp are those of the values, so the extremes of
a list are the extremes of its values.  They move no more than the members of the list do.
-/

namespace Multirotor.Binary32

variable {x y : Binary32} {u v d : ℚ}

theorem greatest_value (finite_x : x.IsFinite) (finite_y : y.IsFinite) :
    (greatest x y).IsFinite ∧ (greatest x y).value = max x.value y.value := by
  have number := finite_x.ne_nan
  rw [greatest]
  split
  · rename_i chosen
    have less := (lt_iff_value finite_x finite_y).mp (chosen.resolve_left number)
    exact ⟨finite_y, (max_eq_right less.le).symm⟩
  · rename_i kept
    rw [not_or, lt_iff_value finite_x finite_y, not_lt] at kept
    exact ⟨finite_x, (max_eq_left kept.2).symm⟩

theorem least_value (finite_x : x.IsFinite) (finite_y : y.IsFinite) :
    (least x y).IsFinite ∧ (least x y).value = min x.value y.value := by
  have number := finite_y.ne_nan
  rw [least]
  split
  · rename_i chosen
    have less := (lt_iff_value finite_x finite_y).mp (chosen.resolve_left number)
    exact ⟨finite_x, (min_eq_left less.le).symm⟩
  · rename_i kept
    rw [not_or, lt_iff_value finite_x finite_y, not_lt] at kept
    exact ⟨finite_y, (min_eq_right kept.2).symm⟩

theorem clampUnit_value (finite_x : x.IsFinite) :
    (clampUnit x).IsFinite ∧ (clampUnit x).value = max 0 (min 1 x.value) := by
  have above := lt_iff_value one_between.finite finite_x
  rw [value_one] at above
  simp only [Binary32.clampUnit, neg_iff_value finite_x, above]
  split
  · rename_i negative
    exact ⟨zero_between.finite, by rw [value_zero, max_eq_left (min_le_of_right_le negative.le)]⟩
  · rename_i nonneg
    split
    · rename_i large
      exact ⟨one_between.finite,
        by rw [value_one, min_eq_left large.le, max_eq_right zero_le_one]⟩
    · rename_i small
      exact ⟨finite_x, by rw [min_eq_right (not_lt.mp small), max_eq_right (not_lt.mp nonneg)]⟩

/-! ## Lists -/

/-- A fold that always keeps one of two values ends with the start or with a value of the list. -/
private theorem foldl_eq_or_mem {α : Type} (select : α → α → α)
    (keeps : ∀ x y, select x y = x ∨ select x y = y) (start : α) (values : List α) :
    values.foldl select start = start ∨ values.foldl select start ∈ values := by
  induction values generalizing start with
  | nil => exact .inl rfl
  | cons value values induction =>
    rw [List.foldl_cons]
    rcases induction (select start value) with kept | found
    · rw [kept]
      rcases keeps start value with left | right
      · exact .inl left
      · exact .inr (by rw [right]; exact List.mem_cons_self)
    · exact .inr (List.mem_cons_of_mem _ found)

private theorem greatest_eq_or (x y : Binary32) : greatest x y = x ∨ greatest x y = y := by
  rw [greatest]
  split
  · exact .inr rfl
  · exact .inl rfl

private theorem least_eq_or (x y : Binary32) : least x y = x ∨ least x y = y := by
  rw [least]
  split
  · exact .inl rfl
  · exact .inr rfl

private theorem foldl_greatest_mem {values : List Binary32}
    (attained : values.foldl greatest (.infinity true) ≠ .infinity true) :
    values.foldl greatest (.infinity true) ∈ values :=
  (foldl_eq_or_mem greatest greatest_eq_or _ values).resolve_left attained

private theorem foldl_least_mem {values : List Binary32}
    (attained : values.foldl least (.infinity false) ≠ .infinity false) :
    values.foldl least (.infinity false) ∈ values :=
  (foldl_eq_or_mem least least_eq_or _ values).resolve_left attained

private theorem IsFinite.between_infinities (finite_x : x.IsFinite) :
    infinity true < x ∧ ¬ infinity false < x := by
  obtain ⟨negative, rank, rfl⟩ := finite_x.exists_eq
  have bound := rank.isLt
  cases negative with
  | false =>
    simp [lt_iff, place?]
    omega
  | true => simp [lt_iff, place?]

/-- A selection that agrees with an operation on values selects the outcome of the operation on a
list. -/
private theorem foldl_value {select : Binary32 → Binary32 → Binary32} {op : ℚ → ℚ → ℚ}
    (step : ∀ {x y : Binary32}, x.IsFinite → y.IsFinite →
      (select x y).IsFinite ∧ (select x y).value = op x.value y.value)
    {start : Binary32} (finite_start : start.IsFinite) {values : List Binary32}
    (finite_values : ∀ v ∈ values, v.IsFinite) :
    (values.foldl select start).IsFinite ∧
      (values.foldl select start).value = (values.map value).foldl op start.value := by
  induction values generalizing start with
  | nil => exact ⟨finite_start, rfl⟩
  | cons first values induction =>
    obtain ⟨finite_next, value_next⟩ := step finite_start (finite_values first List.mem_cons_self)
    rw [List.foldl_cons, List.map_cons, List.foldl_cons, ← value_next]
    exact induction finite_next fun v mem => finite_values v (List.mem_cons_of_mem _ mem)

theorem foldl_greatest_value {values : List Binary32} (nonempty : values ≠ [])
    (finite_values : ∀ v ∈ values, v.IsFinite) (floor : ℚ) :
    (values.foldl greatest (.infinity true)).IsFinite ∧
      max floor (values.foldl greatest (.infinity true)).value =
        (values.map value).foldl max floor := by
  obtain ⟨first, values, rfl⟩ := List.exists_cons_of_ne_nil nonempty
  have finite_first := finite_values first List.mem_cons_self
  have first_eq : greatest (.infinity true) first = first :=
    if_pos (.inr finite_first.between_infinities.1)
  obtain ⟨finite_highest, highest_eq⟩ := foldl_value greatest_value finite_first
    fun v mem => finite_values v (List.mem_cons_of_mem _ mem)
  rw [List.foldl_cons, first_eq, List.map_cons, List.foldl_cons, List.foldl_assoc, highest_eq]
  exact ⟨finite_highest, rfl⟩

theorem foldl_least_value {values : List Binary32} (nonempty : values ≠ [])
    (finite_values : ∀ v ∈ values, v.IsFinite) (ceiling : ℚ) :
    (values.foldl least (.infinity false)).IsFinite ∧
      min ceiling (values.foldl least (.infinity false)).value =
        (values.map value).foldl min ceiling := by
  obtain ⟨first, values, rfl⟩ := List.exists_cons_of_ne_nil nonempty
  have finite_first := finite_values first List.mem_cons_self
  have first_eq : least (.infinity false) first = first := by
    rw [least, if_neg]
    rintro (rfl | less)
    · exact finite_first
    · exact finite_first.between_infinities.2 less
  obtain ⟨finite_lowest, lowest_eq⟩ := foldl_value least_value finite_first
    fun v mem => finite_values v (List.mem_cons_of_mem _ mem)
  rw [List.foldl_cons, first_eq, List.map_cons, List.foldl_cons, List.foldl_assoc, lowest_eq]
  exact ⟨finite_lowest, rfl⟩

/-- A fold whose steps stay on one side of both operands ends on that side of every value. -/
private theorem foldl_side {r : ℚ → ℚ → Prop} {op : ℚ → ℚ → ℚ} (refl : ∀ a, r a a)
    (trans : ∀ {a b c}, r a b → r b c → r a c) (step : ∀ a b, r (op a b) a ∧ r (op a b) b)
    (start : ℚ) (values : List ℚ) :
    r (values.foldl op start) start ∧ ∀ v ∈ values, r (values.foldl op start) v := by
  induction values generalizing start with
  | nil => exact ⟨refl start, by simp⟩
  | cons first values induction =>
    obtain ⟨next, later⟩ := induction (op start first)
    obtain ⟨left, right⟩ := step start first
    exact ⟨trans next left, List.forall_mem_cons.mpr ⟨trans next right, later⟩⟩

theorem le_foldl_max (floor : ℚ) (values : List ℚ) :
    floor ≤ values.foldl max floor ∧ ∀ v ∈ values, v ≤ values.foldl max floor :=
  foldl_side (r := fun a b => b ≤ a) le_refl (fun first second => second.trans first)
    (fun a b => ⟨le_max_left a b, le_max_right a b⟩) floor values

theorem foldl_min_le (ceiling : ℚ) (values : List ℚ) :
    values.foldl min ceiling ≤ ceiling ∧ ∀ v ∈ values, values.foldl min ceiling ≤ v :=
  foldl_side (r := (· ≤ ·)) le_refl le_trans
    (fun a b => ⟨min_le_left a b, min_le_right a b⟩) ceiling values

/-- The greatest of a list of finite numbers is one of them, and none is above it. -/
theorem foldl_greatest_isGreatest {values : List Binary32} (nonempty : values ≠ [])
    (finite_values : ∀ v ∈ values, v.IsFinite) :
    values.foldl greatest (.infinity true) ∈ values ∧
      ∀ v ∈ values, v ≤ values.foldl greatest (.infinity true) := by
  obtain ⟨finite_highest, value_eq⟩ := foldl_greatest_value nonempty finite_values
    (values.foldl greatest (.infinity true)).value
  rw [max_self] at value_eq
  constructor
  · apply foldl_greatest_mem
    intro empty
    rw [empty] at finite_highest
    exact finite_highest
  · intro v mem
    rw [le_iff_value (finite_values v mem) finite_highest, value_eq]
    exact (le_foldl_max _ _).2 _ (List.mem_map_of_mem mem)

/-- The least of a list of finite numbers is one of them, and none is below it. -/
theorem foldl_least_isLeast {values : List Binary32} (nonempty : values ≠ [])
    (finite_values : ∀ v ∈ values, v.IsFinite) :
    values.foldl least (.infinity false) ∈ values ∧
      ∀ v ∈ values, values.foldl least (.infinity false) ≤ v := by
  obtain ⟨finite_lowest, value_eq⟩ := foldl_least_value nonempty finite_values
    (values.foldl least (.infinity false)).value
  rw [min_self] at value_eq
  constructor
  · apply foldl_least_mem
    intro empty
    rw [empty] at finite_lowest
    exact finite_lowest
  · intro v mem
    rw [le_iff_value finite_lowest (finite_values v mem), value_eq]
    exact (foldl_min_le _ _).2 _ (List.mem_map_of_mem mem)

/-! ## Approximate extremes -/

theorem Near.least (hx : x.Near u d) (hy : y.Near v d) : (least x y).Near (min u v) d := by
  obtain ⟨finite_least, least_eq⟩ := least_value hx.finite hy.finite
  refine ⟨finite_least, ?_⟩
  rw [least_eq]
  exact (abs_min_sub_min_le_max _ _ _ _).trans (max_le hx.close hy.close)

theorem Near.clampUnit (hx : x.Near u d) : (clampUnit x).Near (max 0 (min 1 u)) d := by
  obtain ⟨finite_clamped, clamped_eq⟩ := clampUnit_value hx.finite
  refine ⟨finite_clamped, ?_⟩
  rw [clamped_eq]
  have clipped := abs_min_sub_min_le_max 1 x.value 1 u
  have clamped := abs_max_sub_max_le_max 0 (min 1 x.value) 0 (min 1 u)
  rw [sub_self, abs_zero] at clipped clamped
  rw [max_eq_right (abs_nonneg (x.value - u))] at clipped
  rw [max_eq_right (abs_nonneg (min 1 x.value - min 1 u))] at clamped
  exact clamped.trans (clipped.trans hx.close)

private theorem foldl_close {op : ℚ → ℚ → ℚ}
    (steady : ∀ {a b c e : ℚ}, |a - b| ≤ d → |c - e| ≤ d → |op a c - op b e| ≤ d)
    {values : List Binary32} {exacts : List ℚ} (near : List.Forall₂ (·.Near · d) values exacts)
    {a b : ℚ} (starts : |a - b| ≤ d) :
    |(values.map value).foldl op a - exacts.foldl op b| ≤ d := by
  induction near generalizing a b with
  | nil => exact starts
  | cons first _ induction => exact induction (steady starts first.close)

theorem foldl_max_close (nonneg : 0 ≤ d) {values : List Binary32} {exacts : List ℚ}
    (near : List.Forall₂ (·.Near · d) values exacts) (floor : ℚ) :
    |(values.map value).foldl max floor - exacts.foldl max floor| ≤ d :=
  foldl_close
    (fun first second => (abs_max_sub_max_le_max _ _ _ _).trans (max_le first second)) near
    (by rwa [sub_self, abs_zero])

theorem foldl_min_close (nonneg : 0 ≤ d) {values : List Binary32} {exacts : List ℚ}
    (near : List.Forall₂ (·.Near · d) values exacts) (ceiling : ℚ) :
    |(values.map value).foldl min ceiling - exacts.foldl min ceiling| ≤ d :=
  foldl_close
    (fun first second => (abs_min_sub_min_le_max _ _ _ _).trans (max_le first second)) near
    (by rwa [sub_self, abs_zero])

end Multirotor.Binary32
