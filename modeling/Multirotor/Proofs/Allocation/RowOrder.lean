import Mathlib.Data.Fin.VecNotation
import Mathlib.Data.List.FinRange
import Mathlib.Logic.Equiv.Basic
import Multirotor.Proofs.Allocation.Leveling

/-!
# The order of the rows

The demands of a command keep the order of the table's rows, and what normalizing makes of a demand
is one function for all orders of the others: the highest and the lowest count only where they are
not zero, and there their places determine them.  So whatever a motor gets, it gets in every slot,
even if demands are NaN or infinite.
-/

namespace Multirotor

open Binary32

/-! ## One function for all orders -/

/-- What becomes of a demand does not depend on the order of the others. -/
theorem Normalization.level_eq_of_perm (policy : Normalization) {xs ys : List Binary32}
    (perm : xs.Perm ys) : policy.level xs = policy.level ys := by
  cases policy with
  | clampAndShift =>
    have scale : scaleFor (xs.foldl greatest (.infinity true)) =
        scaleFor (ys.foldl greatest (.infinity true)) :=
      scaleFor_eq_of_alike (foldl_greatest_alike (perm.map place?) _)
    have scaled : (scaleDown xs).Perm (scaleDown ys) := by
      rw [scaleDown_eq_map, scaleDown_eq_map, scale]
      exact perm.map _
    have shift : shiftFor ((scaleDown xs).foldl least (.infinity false)) =
        shiftFor ((scaleDown ys).foldl least (.infinity false)) :=
      shiftFor_eq_of_alike (foldl_least_alike (scaled.map place?) _)
    funext v
    simp only [level, scale, shift]
  | headroom => rfl
  | staticWeight => rfl

/-! ## Rearrangements -/

section

variable {n : Nat}

/-- Rearranging demands rearranges what normalizing makes of them. -/
theorem normalize_ofFn_comp (policy : Normalization) (demands : Fin n → Binary32)
    (σ : Equiv.Perm (Fin n)) :
    normalize policy (List.ofFn (demands ∘ σ)) =
      List.ofFn ((policy.level (List.ofFn demands) ∘ demands) ∘ σ) := by
  rw [normalize_eq_map, policy.level_eq_of_perm (σ.ofFn_comp_perm demands), List.map_ofFn,
    Function.comp_assoc]

/-- A table of few rows makes one demand of each. -/
theorem mix_ofFn (short : n ≤ maxMotors) (rows : Fin n → Factors) (c : Command) :
    mix (List.ofFn rows) c = List.ofFn fun i => (rows i).demand c := by
  rw [mix, List.take_of_length_le (by rwa [List.length_ofFn]), List.map_ofFn]
  rfl

end

/-- Rearranging the rows of a table rearranges the speeds, and rearranging any number of demands
rearranges what clamping and shifting makes of them; no speed changes by it. -/
theorem allocate_rearranged :
    (∀ {n : Nat}, n ≤ 6 → ∀ (rows : Fin n → Factors) (policy : Normalization) (c : Command),
      ∃ speeds : Fin n → Binary32,
        allocate (List.ofFn rows) policy c = List.ofFn speeds ∧
          ∀ σ : Equiv.Perm (Fin n),
            allocate (List.ofFn (rows ∘ σ)) policy c = List.ofFn (speeds ∘ σ)) ∧
      ∀ {n : Nat} (demands : Fin n → Binary32), ∃ speeds : Fin n → Binary32,
        clampAndShift (List.ofFn demands) = List.ofFn speeds ∧
          ∀ σ : Equiv.Perm (Fin n),
            clampAndShift (List.ofFn (demands ∘ σ)) = List.ofFn (speeds ∘ σ) := by
  constructor
  · intro n short rows policy c
    let demand (i : Fin n) : Binary32 := (rows i).demand (prescale policy c)
    have permuted (σ : Equiv.Perm (Fin n)) : allocate (List.ofFn (rows ∘ σ)) policy c =
        List.ofFn ((policy.level (List.ofFn demand) ∘ demand) ∘ σ) := by
      rw [allocate, mix_ofFn short]
      exact normalize_ofFn_comp policy demand σ
    exact ⟨_, permuted (.refl _), permuted⟩
  · intro n demands
    have permuted := normalize_ofFn_comp .clampAndShift demands
    exact ⟨_, permuted (.refl _), permuted⟩

/-- The first row's share is unlimited and the second one's is no number; exchanging the first row
with the last exchanges a NaN with a negative zero. -/
theorem allocate_rearranged_unlimited :
    let rows : Fin 4 → Factors :=
      ![⟨.infinity false, 0, 0, 1⟩, ⟨0, .nan, 0, 1⟩, ⟨-0.0, 0, 0, 0⟩, ⟨0.5, 0, -1, -0.0⟩]
    let c : Command := ⟨0.5, 1, 0, 0.75⟩
    let σ : Equiv.Perm (Fin 4) := Equiv.swap 0 3
    4 ≤ 6 ∧ allocate (List.ofFn rows) .clampAndShift c = [.nan, .nan, 0, -0.0] ∧
      ∃ speeds : Fin 4 → Binary32,
        allocate (List.ofFn rows) .clampAndShift c = List.ofFn speeds ∧
          allocate (List.ofFn (rows ∘ σ)) .clampAndShift c = List.ofFn (speeds ∘ σ) := by
  intro rows c σ
  have short : 4 ≤ 6 := by decide
  obtain ⟨speeds, same, permuted⟩ := allocate_rearranged.1 short rows .clampAndShift c
  exact ⟨short, by decide +kernel, speeds, same, permuted σ⟩

end Multirotor
