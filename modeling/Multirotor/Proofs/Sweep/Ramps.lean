import Multirotor.Proofs.Binary32.Order
import Multirotor.Proofs.Sweep.Publications

/-!
# The ramps of a sweep

A sweep is a counter of steps inside a counter of axes.  Command number `k` of a sweep with `count`
commands per axis belongs to ramp number `k / count` and is number `k % count` on it, so its axis
and its demand are known without running the sweep.  The demand climbs from 0 to 1 on each ramp.
-/

namespace Multirotor

open Binary32

/-- The axes by number in the order of a sweep, which starts over. -/
def Axis.ofNumber (n : Nat) : Axis :=
  match n % 4 with
  | 0 => .roll
  | 1 => .pitch
  | 2 => .yaw
  | _ => .thrust

theorem Axis.next_ofNumber (n : Nat) : (ofNumber n).next = ofNumber (n + 1) := by
  obtain zero | one | two | three : n % 4 = 0 ∨ n % 4 = 1 ∨ n % 4 = 2 ∨ n % 4 = 3 := by omega
  · simp [ofNumber, zero, (by omega : (n + 1) % 4 = 1), next]
  · simp [ofNumber, one, (by omega : (n + 1) % 4 = 2), next]
  · simp [ofNumber, two, (by omega : (n + 1) % 4 = 3), next]
  · simp [ofNumber, three, (by omega : (n + 1) % 4 = 0), next]

namespace Sweep

/-- The demand of command number `k` with `count` commands per axis: the number nearest to
`(k % count) / (count - 1)`. -/
def rampDemand (count k : Nat) : Binary32 := ofRatio false ((k % count) <<< 149) (count - 1)

/-- Command number `k` with `count` commands per axis. -/
def rampCommand (count k : Nat) : Command := .single (.ofNumber (k / count)) (rampDemand count k)

/-! ## Demands -/

section

variable {count : Nat} (two_le : 2 ≤ count)
include two_le

theorem rampDemand_first {k : Nat} (first : k % count = 0) : rampDemand count k = 0 := by
  have zero_eq : (0 : Binary32) = ofRatio false (0 <<< 149) 1 := rfl
  rw [rampDemand, first, zero_eq]
  exact ofRatio_congr (by omega) Nat.one_pos (by simp) false

theorem rampDemand_last {k : Nat} (last : k % count = count - 1) : rampDemand count k = 1 := by
  have one_eq : (1 : Binary32) = ofRatio false (1 <<< 149) 1 := rfl
  rw [rampDemand, last, one_eq]
  apply ofRatio_congr (by omega) Nat.one_pos
  rw [Nat.shiftLeft_eq, Nat.shiftLeft_eq]
  ring

end

/-! ## Places -/

variable {s : Sweep} {count made : Nat}

/-- The sweep has made so many of its commands, with `count` of them on each axis. -/
structure At (count made : Nat) (s : Sweep) : Prop where
  /-- The commands on each axis. -/
  steps : s.steps.toNat = count
  /-- The commands made on the axis in motion. -/
  step : s.step.toNat = made % count
  /-- The axis in motion. -/
  axis : s.axis = .ofNumber (made / count)

/-- The commands on each axis: as many as are asked for, but at least two. -/
def perAxis (steps : UInt16) : Nat := max steps.toNat 2

theorem two_le_perAxis (steps : UInt16) : 2 ≤ perAxis steps := le_max_right _ _

theorem at_ofSteps (steps : UInt16) (limit? : Option Nat) :
    (ofSteps steps limit?).At (perAxis steps) 0 := by
  refine ⟨?_, (Nat.zero_mod _).symm, by rw [Nat.zero_div]; rfl⟩
  change (if steps ≤ 2 then 2 else steps).toNat = _
  split
  · rename_i few
    exact (max_eq_right (UInt16.le_iff_toNat_le.mp few)).symm
  · rename_i more
    exact (max_eq_left (UInt16.lt_iff_toNat_lt.mp (UInt16.not_le.mp more)).le).symm

namespace At

theorem running (place : s.At count made) (two_le : 2 ≤ count) : s.Running := by
  refine ⟨place.steps.symm ▸ two_le, ?_⟩
  rw [place.steps, place.step]
  exact Nat.mod_lt made (by omega)

/-- The next command is the one with the number of those already made. -/
theorem command (place : s.At count made) (two_le : 2 ≤ count) :
    s.command = rampCommand count made := by
  have inside : made % count < count := Nat.mod_lt made (by omega)
  have bound := s.steps.toNat_lt
  rw [place.steps] at bound
  have last : (s.steps - 1).toNat = count - 1 := by
    rw [UInt16.toNat_sub_of_le _ _ (UInt16.le_iff_toNat_le.mpr _), place.steps]
    · rfl
    · rw [place.steps]
      exact le_trans (by decide) two_le
  rw [Sweep.command, value, place.axis, place.step, last,
    ofNat_div_ofNat (by omega) (by omega) (by omega)]
  rfl

theorem advance (place : s.At count made) (two_le : 2 ≤ count) :
    s.advance.At count (made + 1) := by
  obtain ⟨steps, step, axis⟩ := place
  have inside : made % count < count := Nat.mod_lt made (by omega)
  have bound := s.steps.toNat_lt
  have split_made := Nat.div_add_mod made count
  have next : (s.step + 1).toNat = made % count + 1 := by
    rw [UInt16.toNat_add, step]
    exact Nat.mod_eq_of_lt (by simp; omega)
  rw [Sweep.advance]
  split
  · -- the ramp is complete
    rename_i last
    have last : made % count + 1 = count := by rw [← next, last, steps]
    obtain ⟨ramp, position⟩ : (made + 1) / count = made / count + 1 ∧ (made + 1) % count = 0 := by
      rw [Nat.div_mod_unique (by omega), Nat.mul_succ]
      omega
    refine ⟨steps, position.symm, ?_⟩
    rw [axis, Axis.next_ofNumber, ramp]
  · rename_i more
    have more : made % count + 1 ≠ count := by
      rw [← next, ← steps]
      exact mt UInt16.toNat_inj.mp more
    obtain ⟨ramp, position⟩ :
        (made + 1) / count = made / count ∧ (made + 1) % count = made % count + 1 := by
      rw [Nat.div_mod_unique (by omega)]
      omega
    refine ⟨steps, next.trans position.symm, ?_⟩
    rw [axis, ramp]

/-- So the commands to come are known by their numbers. -/
theorem commands (place : s.At count made) (two_le : 2 ≤ count) (n : Nat) :
    s.commands n = (List.range n).map fun k => rampCommand count (made + k) := by
  induction n generalizing s made with
  | zero => rfl
  | succ n induction =>
    rw [Sweep.commands, place.command two_le, induction (place.advance two_le),
      List.range_succ_eq_map, List.map_cons, List.map_map, Nat.add_zero]
    congr 1
    apply List.map_congr_left
    intro k _
    rw [Function.comp_apply, Nat.add_assoc, Nat.add_comm 1]

end At

/-! ## Calls for a command -/

/-- The sweep after `k` calls for a command.  A call at the limit changes nothing. -/
def after (s : Sweep) : Nat → Sweep
  | 0 => s
  | k + 1 =>
    match (s.after k).next? with
    | some (_, next) => next
    | none => s.after k

theorem next?_eq_some (left : s.remaining? ≠ some 0) :
    s.next? =
      some (s.command, { s.advance with remaining? := s.remaining?.map (· - 1) }) := by
  have kept : s.advance.remaining? = s.remaining? := by
    rw [advance]
    split <;> rfl
  rw [next?]
  split
  · rename_i none_left
    exact absurd none_left left
  · rename_i some_left
    rw [some_left]
    rfl
  · rename_i endless
    rw [endless, Option.map_none, ← endless, ← kept]

/-- With commands left a call makes one of them. -/
theorem after_succ {k : Nat} (left : (s.after k).remaining? ≠ some 0) :
    s.after (k + 1) =
      { (s.after k).advance with remaining? := (s.after k).remaining?.map (· - 1) } := by
  rw [after, next?_eq_some left]

theorem after_succ_of_none_left {k : Nat} (none_left : (s.after k).remaining? = some 0) :
    s.after (k + 1) = s.after k := by
  rw [after, (next?_eq_none_iff _).mpr none_left]

theorem remaining?_after (s : Sweep) (k : Nat) :
    (s.after k).remaining? = s.remaining?.map (· - k) := by
  induction k with
  | zero => simp [after]
  | succ k induction =>
    by_cases left : (s.after k).remaining? = some 0
    · rw [after_succ_of_none_left left, induction]
      rw [induction] at left
      cases limit : s.remaining? with
      | none => rfl
      | some n =>
        simp only [limit, Option.map_some, Option.some.injEq] at left ⊢
        omega
    · rw [after_succ left, induction, Option.map_map]
      congr 1

/-- Commands are left before call number `k` if the limit is beyond it. -/
theorem left_iff (s : Sweep) (k : Nat) :
    (s.after k).remaining? ≠ some 0 ↔ ∀ n ∈ s.remaining?, k < n := by
  rw [remaining?_after]
  cases s.remaining? <;> simp [Nat.sub_eq_zero_iff_le]

/-- Up to the limit each call makes one command. -/
theorem At.after (place : s.At count 0) (two_le : 2 ≤ count) {k : Nat}
    (reached : ∀ n ∈ s.remaining?, k ≤ n) : (s.after k).At count k := by
  induction k with
  | zero => exact place
  | succ k induction =>
    have before := induction fun n mem => Nat.le_of_succ_le (reached n mem)
    rw [after_succ ((left_iff s k).mpr reached)]
    obtain ⟨steps, step, axis⟩ := before.advance two_le
    exact ⟨steps, step, axis⟩

/-- A call within the limit makes the command with its number. -/
theorem At.next?_after (place : s.At count 0) (two_le : 2 ≤ count) {k : Nat}
    (inside : ∀ n ∈ s.remaining?, k < n) :
    (s.after k).next? = some (rampCommand count k, s.after (k + 1)) := by
  have left : (s.after k).remaining? ≠ some 0 := (left_iff s k).mpr inside
  have before : (s.after k).At count k := place.after two_le fun n limit => (inside n limit).le
  rw [next?_eq_some left, before.command two_le, after_succ left]

/-- A call at the limit makes none. -/
theorem next?_after_of_limit {n : Nat} (limit : n ∈ s.remaining?) : (s.after n).next? = none := by
  rw [next?_eq_none_iff, remaining?_after, limit, Option.map_some, Nat.sub_self]

theorem Running.after (running : s.Running) (k : Nat) : (s.after k).Running := by
  induction k with
  | zero => exact running
  | succ k induction =>
    by_cases left : (s.after k).remaining? = some 0
    · rw [after_succ_of_none_left left]
      exact induction
    · rw [after_succ left]
      exact ⟨induction.advance.two_le, induction.advance.step_lt⟩

/-! ## Publications -/

/-- What a source publishes that sends commands and then asks for a kill. -/
def broadcast (commands : List Command) : List (Command × Flags) :=
  commands.map (fun command => (command, .start)) ++ [(.idle, .kill)]

theorem length_broadcast (commands : List Command) :
    (broadcast commands).length = commands.length + 1 := by
  rw [broadcast, List.length_append, List.length_map, List.length_singleton]

/-- What a sweep with a limit publishes, one publication in each round. -/
theorem At.publications (place : s.At count 0) (two_le : 2 ≤ count) {n : Nat}
    (limit : n ∈ s.remaining?) (rounds : Nat) :
    publicationsOf (s.transmission rounds).flatten =
      (broadcast ((List.range n).map (rampCommand count))).take rounds := by
  have commands := place.commands two_le n
  simp only [Nat.zero_add] at commands
  rw [← commands]
  exact publicationsOf_batches limit rounds

end Sweep

end Multirotor
