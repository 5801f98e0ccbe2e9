import Multirotor.Allocation
import Multirotor.Proofs.Binary32.Alike

/-!
# Normalization one demand at a time

Normalizing reads no more of the other demands than the highest of them and, after scaling, the
lowest.  So it maps each demand by one function, `Normalization.level`, and what that function makes
of a demand depends neither on the order of the demands nor on the signs of their zeros.
-/

namespace Multirotor

open Binary32

/-- What becomes of a demand when the highest of all is scaled down to 1. -/
def scaleFor (highest v : Binary32) : Binary32 := if 1 < highest then v * (1 / highest) else v

/-- What becomes of a demand when the lowest of all is shifted up to 0. -/
def shiftFor (lowest v : Binary32) : Binary32 := if lowest < 0 then v - lowest else v

theorem scaleDown_eq_map (values : List Binary32) :
    scaleDown values = values.map (scaleFor (values.foldl greatest (.infinity true))) := by
  simp only [scaleDown]
  split
  · rename_i above
    exact List.map_congr_left fun v _ => (if_pos above).symm
  · rename_i fits
    exact (List.map_id'' (fun v => if_neg fits) values).symm

theorem shiftUp_eq_map (values : List Binary32) :
    shiftUp values = values.map (shiftFor (values.foldl least (.infinity false))) := by
  simp only [shiftUp]
  split
  · rename_i below
    exact List.map_congr_left fun v _ => (if_pos below).symm
  · rename_i fits
    exact (List.map_id'' (fun v => if_neg fits) values).symm

/-- What a policy makes of one demand among others. -/
def Normalization.level (policy : Normalization) (values : List Binary32) (v : Binary32) :
    Binary32 :=
  match policy with
  | .clampAndShift =>
    let scaled := scaleFor (values.foldl greatest (.infinity true)) v
    clampUnit (shiftFor ((scaleDown values).foldl least (.infinity false)) scaled)
  | .headroom | .staticWeight _ => clampUnit v

theorem normalize_eq_map (policy : Normalization) (values : List Binary32) :
    normalize policy values = values.map (policy.level values) := by
  cases policy with
  | clampAndShift =>
    rw [normalize, clampAndShift, shiftUp_eq_map, clampOutputs]
    conv_lhs => enter [2, 2]; rw [scaleDown_eq_map]
    rw [List.map_map, List.map_map]
    rfl
  | headroom => rfl
  | staticWeight => rfl

/-! ## Alike demands -/

private theorem ne_zero_of_one_lt {x : Binary32} (above : 1 < x) : x.place? ≠ some 0 := by
  intro zero
  have zero_alike : x.Alike 0 := zero.trans (by decide)
  rw [(Alike.refl 1).lt_iff zero_alike] at above
  exact absurd above (by decide)

private theorem ne_zero_of_lt_zero {x : Binary32} (below : x < 0) : x.place? ≠ some 0 := by
  intro zero
  have zero_alike : x.Alike 0 := zero.trans (by decide)
  rw [zero_alike.lt_iff (.refl 0)] at below
  exact absurd below (by decide)

/-- The highest demand counts only above 1, where no sign of a zero is left open. -/
theorem scaleFor_eq_of_alike {highest highest' : Binary32} (alike : highest.Alike highest') :
    scaleFor highest = scaleFor highest' := by
  funext v
  simp only [scaleFor, ← (Alike.refl 1).lt_iff alike]
  split
  · rename_i above
    rw [alike.eq_of_ne_zero (ne_zero_of_one_lt above)]
  · rfl

/-- The lowest demand counts only below 0. -/
theorem shiftFor_eq_of_alike {lowest lowest' : Binary32} (alike : lowest.Alike lowest') :
    shiftFor lowest = shiftFor lowest' := by
  funext v
  simp only [shiftFor, ← alike.lt_iff (.refl 0)]
  split
  · rename_i below
    rw [alike.eq_of_ne_zero (ne_zero_of_lt_zero below)]
  · rfl

theorem scaleFor_alike {highest highest' v v' : Binary32} (alike : highest.Alike highest')
    (values : v.Alike v') : (scaleFor highest v).Alike (scaleFor highest' v') := by
  rw [scaleFor_eq_of_alike alike, scaleFor, scaleFor]
  split
  · exact values.mul (.refl _)
  · exact values

theorem shiftFor_alike {lowest lowest' v v' : Binary32} (alike : lowest.Alike lowest')
    (values : v.Alike v') : (shiftFor lowest v).Alike (shiftFor lowest' v') := by
  rw [shiftFor_eq_of_alike alike, shiftFor, shiftFor]
  split
  · exact values.sub (.refl _)
  · exact values

/-- Functions that make nothing of the sign of a zero keep demands alike up to their order. -/
private theorem perm_map_alike {f g : Binary32 → Binary32}
    (alike : ∀ {v w : Binary32}, v.Alike w → (f v).Alike (g w)) {xs ys : List Binary32}
    (perm : (xs.map place?).Perm (ys.map place?)) :
    ((xs.map f).map place?).Perm ((ys.map g).map place?) := by
  have factors : (fun v => (f v).place?).FactorsThrough place? :=
    fun v w same => (alike same).trans (alike (.refl w)).symm
  obtain ⟨onPlaces, through⟩ := (Function.factorsThrough_iff _).mp factors
  have place_f : place? ∘ f = onPlaces ∘ place? := through
  have place_g : place? ∘ g = onPlaces ∘ place? := by
    rw [← place_f]
    exact funext fun w => (alike (.refl w)).symm
  rw [List.map_map, List.map_map, place_f, place_g, ← List.map_map, ← List.map_map]
  exact perm.map onPlaces

/-- What becomes of a demand depends on the places of the others, not on their order. -/
theorem Normalization.level_alike (policy : Normalization) {xs ys : List Binary32}
    (perm : (xs.map place?).Perm (ys.map place?)) {v w : Binary32} (alike : v.Alike w) :
    (policy.level xs v).Alike (policy.level ys w) := by
  cases policy with
  | clampAndShift =>
    have highest := foldl_greatest_alike perm (.infinity true)
    have scaled : ((scaleDown xs).map place?).Perm ((scaleDown ys).map place?) := by
      rw [scaleDown_eq_map, scaleDown_eq_map]
      exact perm_map_alike (scaleFor_alike highest) perm
    have lowest := foldl_least_alike scaled (.infinity false)
    exact (shiftFor_alike lowest (scaleFor_alike highest alike)).clampUnit
  | headroom => exact alike.clampUnit
  | staticWeight => exact alike.clampUnit

end Multirotor
