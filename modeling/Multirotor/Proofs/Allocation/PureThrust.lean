import Multirotor.Proofs.Allocation.Shaping

/-!
# Pure thrust

A command without roll, pitch and yaw is never scaled, even without headroom, because its demand for
attitude is not above 0.  A weight leaves the attitude axes zeros, and the product of a zero with
any finite share is a zero that no sum notices.  What is left of a demand is one product within the
unit interval, which normalizing returns as it is.
-/

namespace Multirotor

open Binary32

/-- A command for thrust alone: the other axes are zeros of either sign. -/
structure Command.PureThrust (c : Command) : Prop where
  thrust : 0 ≤ c.thrust ∧ c.thrust ≤ 1
  roll : c.roll.Alike 0
  pitch : c.pitch.Alike 0
  yaw : c.yaw.Alike 0

instance (c : Command) : Decidable c.PureThrust :=
  decidable_of_iff ((0 ≤ c.thrust ∧ c.thrust ≤ 1) ∧ c.roll.Alike 0 ∧ c.pitch.Alike 0 ∧
      c.yaw.Alike 0)
    ⟨fun ⟨thrust, roll, pitch, yaw⟩ => ⟨thrust, roll, pitch, yaw⟩,
      fun ⟨thrust, roll, pitch, yaw⟩ => ⟨thrust, roll, pitch, yaw⟩⟩

/-- A motor with finite attitude shares that takes between none and all of the thrust. -/
structure Factors.Carries (f : Factors) : Prop where
  roll : f.roll.IsFinite
  pitch : f.pitch.IsFinite
  yaw : f.yaw.IsFinite
  throttle : 0 ≤ f.throttle ∧ f.throttle ≤ 1

instance (f : Factors) : Decidable f.Carries :=
  decidable_of_iff (f.roll.IsFinite ∧ f.pitch.IsFinite ∧ f.yaw.IsFinite ∧
      0 ≤ f.throttle ∧ f.throttle ≤ 1)
    ⟨fun ⟨roll, pitch, yaw, throttle⟩ => ⟨roll, pitch, yaw, throttle⟩,
      fun ⟨roll, pitch, yaw, throttle⟩ => ⟨roll, pitch, yaw, throttle⟩⟩

theorem Geometry.carries_of_mem_table (g : Geometry) : ∀ row ∈ g.table, row.Carries := by
  intro row mem
  obtain ⟨⟨roll, pitch, yaw, -⟩, throttle⟩ := g.lifts_of_mem_table row mem
  refine ⟨(between_units roll).finite, (between_units pitch).finite, (between_units yaw).finite, ?_⟩
  rw [throttle]
  decide

/-- The thrust that a policy hands on to the motors. -/
def Normalization.weighted (policy : Normalization) (thrust : Binary32) : Binary32 :=
  match policy with
  | .clampAndShift | .headroom => thrust
  | .staticWeight percent => thrust * (.ofNat percent.toNat / 100)

theorem prescale_thrust_eq (policy : Normalization) (c : Command) :
    (prescale policy c).thrust = policy.weighted c.thrust := by
  cases policy with
  | clampAndShift => rfl
  | headroom => exact prescale_thrust (by simp) c
  | staticWeight percent => rfl

namespace Command.PureThrust

variable {c : Command} (pure : c.PureThrust)
include pure

theorem between : c.thrust.Between 0 1 :=
  between_of_le zero_between one_between pure.thrust.1 pure.thrust.2

/-- There is no demand for attitude that could be scaled. -/
theorem no_attitude : ¬ 0 < c.roll.abs + c.pitch.abs + c.yaw.abs := by
  have attitude : (c.roll.abs + c.pitch.abs + c.yaw.abs).Alike (0 + 0 + 0) :=
    (pure.roll.abs_of_zero.add pure.pitch.abs_of_zero).add pure.yaw.abs_of_zero
  rw [(Alike.refl 0).lt_iff attitude]
  decide

theorem prescale_eq_self {policy : Normalization} (unweighted : ∀ p, policy ≠ .staticWeight p) :
    prescale policy c = c := by
  cases policy with
  | clampAndShift => rfl
  | headroom => exact if_neg fun shrinks => pure.no_attitude shrinks.2
  | staticWeight percent => exact absurd rfl (unweighted percent)

/-- Every accepted policy makes pure thrust of pure thrust. -/
theorem prescaled {policy : Normalization} (accepted : policy.validate = .ok ()) :
    (prescale policy c).PureThrust := by
  cases policy with
  | clampAndShift => exact pure
  | headroom => rwa [pure.prescale_eq_self (by simp)]
  | staticWeight percent =>
    have weight := Normalization.weight_between accepted
    have thrust := pure.between.mul_of_nonneg weight (by norm_num)
    have rest := one_between.sub weight (by norm_num)
    exact ⟨⟨le_of_between zero_between thrust le_rfl, le_of_between thrust one_between le_rfl⟩,
      pure.roll.mul_of_zero rest.finite, pure.pitch.mul_of_zero rest.finite,
      pure.yaw.mul_of_zero rest.finite⟩

section

variable {f : Factors} (carries : f.Carries)
include carries

theorem product_between : (c.thrust * f.throttle).Between 0 1 :=
  pure.between.mul_of_nonneg
    (between_of_le zero_between one_between carries.throttle.1 carries.throttle.2) (by norm_num)

/-- The attitude shares do not show in the demand. -/
theorem demand_alike : (f.demand c).Alike (c.thrust * f.throttle) := by
  have finite_product := (pure.product_between carries).finite
  have step {x axis share : Binary32} (alike : x.Alike (c.thrust * f.throttle))
      (zero : axis.Alike 0) (finite_share : share.IsFinite) :
      (x + axis * share).Alike (c.thrust * f.throttle) :=
    (alike.add (zero.mul_of_zero finite_share)).trans (add_zero_alike finite_product)
  exact step (step (step (.refl _) pure.roll carries.roll) pure.pitch carries.pitch) pure.yaw
    carries.yaw

theorem demand_mem : 0 ≤ f.demand c ∧ f.demand c ≤ 1 := by
  have product := pure.product_between carries
  obtain ⟨le, ge⟩ := (pure.demand_alike carries).le_and_le product.finite.ne_nan
  exact ⟨Binary32.le_trans (le_of_between zero_between product le_rfl) ge,
    Binary32.le_trans le (le_of_between product one_between le_rfl)⟩

end

/-- Neither scale nor shift nor clamp alters pure thrust. -/
theorem allocate_eq_mix {policy : Normalization} (accepted : policy.validate = .ok ())
    {table : List Factors} (carries : ∀ row ∈ table, row.Carries) :
    allocate table policy c = mix table (prescale policy c) := by
  apply normalize_eq_self
  intro v mem
  obtain ⟨row, row_mem, rfl⟩ := List.mem_map.mp mem
  exact (pure.prescaled accepted).demand_mem (carries row (List.mem_of_mem_take row_mem))

end Command.PureThrust

/-- Every accepted policy hands pure thrust on unaltered: each motor gets its share of what the
policy makes of the thrust, and every motor of a geometry gets all of it. -/
theorem allocate_pureThrust {c : Command} (pure : c.PureThrust) {policy : Normalization}
    (accepted : policy.validate = .ok ()) :
    ((∀ percent, policy ≠ .staticWeight percent) → prescale policy c = c) ∧
      (∀ table : List Factors, table.length ≤ 6 → (∀ row ∈ table, row.Carries) →
        allocate table policy c = mix table (prescale policy c) ∧
          List.Forall₂ (fun row speed =>
            speed ≤ policy.weighted c.thrust * row.throttle ∧
              policy.weighted c.thrust * row.throttle ≤ speed) table (allocate table policy c)) ∧
        ∀ g : Geometry, ∀ speed ∈ allocate g.table policy c,
          speed ≤ policy.weighted c.thrust ∧ policy.weighted c.thrust ≤ speed := by
  have shaped := pure.prescaled accepted
  refine ⟨pure.prescale_eq_self, fun table short carries => ?_, fun g speed mem => ?_⟩
  · have unaltered := pure.allocate_eq_mix accepted carries
    refine ⟨unaltered, ?_⟩
    rw [unaltered, mix, List.take_of_length_le (show table.length ≤ maxMotors from short),
      List.forall₂_map_right_iff, List.forall₂_same, ← prescale_thrust_eq]
    intro row mem
    have finite_product := (shaped.product_between (carries row mem)).finite
    exact (shaped.demand_alike (carries row mem)).le_and_le finite_product.ne_nan
  · rw [pure.allocate_eq_mix accepted g.carries_of_mem_table] at mem
    obtain ⟨row, row_mem, rfl⟩ := List.mem_map.mp mem
    have row_mem := List.mem_of_mem_take row_mem
    have demand := shaped.demand_alike (g.carries_of_mem_table row row_mem)
    rw [(g.lifts_of_mem_table row row_mem).2] at demand
    rw [← prescale_thrust_eq]
    exact (demand.trans (mul_one_alike shaped.between.finite)).le_and_le
      shaped.between.finite.ne_nan

/-- Full thrust on zeros of both signs, weighted, on motors that no geometry has. -/
theorem allocate_pureThrust_weighted :
    let c : Command := ⟨1, -0.0, 0, -0.0⟩
    let policy : Normalization := .staticWeight 37
    let table : List Factors := [⟨-1, 3e38, -0.0, 0.3⟩, ⟨0, -3e38, 1, 1⟩, ⟨1, 0, -1, 1e-45⟩]
    c.PureThrust ∧ policy.validate = .ok () ∧ table.length ≤ 6 ∧ (∀ row ∈ table, row.Carries) ∧
      allocate table policy c = mix table (prescale policy c) ∧
      List.Forall₂ (fun row speed =>
        speed ≤ policy.weighted c.thrust * row.throttle ∧
          policy.weighted c.thrust * row.throttle ≤ speed) table (allocate table policy c) := by
  intro c policy table
  have pure : c.PureThrust := by decide
  have accepted : policy.validate = .ok () := rfl
  have short : table.length ≤ 6 := by decide
  have carries : ∀ row ∈ table, row.Carries := by decide +kernel
  obtain ⟨-, shares, -⟩ := allocate_pureThrust pure accepted
  exact ⟨pure, accepted, short, carries, shares table short carries⟩

end Multirotor
