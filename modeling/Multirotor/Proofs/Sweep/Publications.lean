import Multirotor.Mission
import Multirotor.Proofs.Binary32.Between
import Multirotor.Proofs.Mailbox.Publications

/-!
# What a sweep publishes

A sweep never leaves its axis: before every command it has made fewer steps than the axis has, so
the demand is a fraction of the axis and the command within bounds.  With a limit it publishes so
many commands and the order to kill.
-/

namespace Multirotor

open Binary32

/-- A demand in the unit interval is within bounds on every axis. -/
theorem Command.single_inBounds {value : Binary32} (fraction : value.Between 0 1) (axis : Axis) :
    (Command.single axis value).InBounds := by
  have zero : ((0 : Binary32) ≤ 0 ∧ (0 : Binary32) ≤ 1) ∧ (-1 : Binary32) ≤ 0 := by decide
  have nonneg : 0 ≤ value := le_of_between zero_between fraction le_rfl
  have lower : -1 ≤ value := le_of_between one_between.neg fraction (by norm_num)
  have upper : value ≤ 1 := le_of_between fraction one_between le_rfl
  cases axis <;> simp only [single, idle, InBounds, zero, nonneg, lower, upper, and_self]

namespace Sweep

variable {s : Sweep}

/-- The sweep has a step of its axis before it. -/
structure Running (s : Sweep) : Prop where
  two_le : 2 ≤ s.steps.toNat
  step_lt : s.step.toNat < s.steps.toNat

theorem running_ofSteps (steps : UInt16) (limit? : Option Nat) :
    (ofSteps steps limit?).Running := by
  have two_le : 2 ≤ (max steps 2).toNat := by
    change 2 ≤ (if steps ≤ 2 then 2 else steps).toNat
    split
    · decide
    · rename_i more
      exact (UInt16.lt_iff_toNat_lt.mp (UInt16.not_le.mp more)).le
  exact ⟨two_le, lt_of_lt_of_le Nat.two_pos two_le⟩

/-- The demand is a fraction of the axis. -/
theorem Running.value_between (running : s.Running) : s.value.Between 0 1 := by
  obtain ⟨two_le, step_lt⟩ := running
  have bound := s.steps.toNat_lt
  have last : (s.steps - 1).toNat = s.steps.toNat - 1 :=
    UInt16.toNat_sub_of_le _ _ (UInt16.le_iff_toNat_le.mpr (le_trans (by decide) two_le))
  have made := value_ofNat (n := s.step.toNat) (by omega)
  have all := value_ofNat (n := s.steps.toNat - 1) (by omega)
  rw [value, last]
  apply Between.div_of_le (ofNat_between (by omega)).finite (ofNat_between (by omega)).finite
  · rw [made]
    exact Nat.cast_nonneg _
  · rw [all]
    exact_mod_cast (by omega : 0 < s.steps.toNat - 1)
  · rw [made, all]
    exact_mod_cast (by omega : s.step.toNat ≤ s.steps.toNat - 1)

theorem Running.command_inBounds (running : s.Running) : s.command.InBounds :=
  Command.single_inBounds running.value_between s.axis

theorem Running.advance (running : s.Running) : s.advance.Running := by
  obtain ⟨two_le, step_lt⟩ := running
  rw [Sweep.advance]
  split
  · exact ⟨two_le, lt_of_lt_of_le Nat.two_pos two_le⟩
  · rename_i more
    have bound := s.steps.toNat_lt
    have next : (s.step + 1).toNat = s.step.toNat + 1 := by
      rw [UInt16.toNat_add]
      exact Nat.mod_eq_of_lt (by simp; omega)
    have ne : (s.step + 1).toNat ≠ s.steps.toNat := mt UInt16.toNat_inj.mp more
    exact ⟨two_le, by dsimp only; omega⟩

/-! ## Commands -/

/-- The next `count` commands without regard to the limit. -/
def commands (s : Sweep) : Nat → List Command
  | 0 => []
  | count + 1 => s.command :: s.advance.commands count

theorem Running.commands_inBounds (running : s.Running) (count : Nat) :
    ∀ c ∈ s.commands count, c.InBounds := by
  induction count generalizing s with
  | zero => exact fun c mem => absurd mem List.not_mem_nil
  | succ count induction =>
    exact List.forall_mem_cons.mpr ⟨running.command_inBounds, induction running.advance⟩

theorem commands_withRemaining (s : Sweep) (remaining? : Option Nat) (count : Nat) :
    { s with remaining? := remaining? }.commands count = s.commands count := by
  induction count generalizing s with
  | zero => rfl
  | succ count induction =>
    have step : { s with remaining? := remaining? }.advance =
        { s.advance with remaining? := remaining? } := by
      rw [Sweep.advance, Sweep.advance]
      split <;> rfl
    rw [commands, commands, step, induction]
    rfl

/-- What a sweep that ends after `count` commands publishes: its commands with the switch that says
that the source is sending, and then the order to kill. -/
def publications (s : Sweep) (count : Nat) : List (Command × Flags) :=
  (s.commands count).map (fun command => (command, .start)) ++ [(.idle, .kill)]

theorem length_publications (s : Sweep) (count : Nat) :
    (s.publications count).length = count + 1 := by
  have length : ∀ s : Sweep, (s.commands count).length = count := by
    induction count with
    | zero => exact fun _ => rfl
    | succ count induction => exact fun s => congrArg (· + 1) (induction s.advance)
  rw [publications, List.length_append, List.length_map, length, List.length_singleton]

/-- The rounds of a sweep publish this one by one. -/
theorem publicationsOf_batches {left : Nat} (limit : s.remaining? = some left) (rounds : Nat) :
    publicationsOf (s.batches rounds).flatten = (s.publications left).take rounds := by
  induction rounds generalizing s left with
  | zero => rfl
  | succ rounds induction =>
    rw [batches, next?, limit]
    rcases left with _ | left
    · rw [publications, commands, List.map_nil, List.nil_append, List.take_succ_cons,
        List.take_nil]
      rfl
    · have rest := induction (s := { s.advance with remaining? := some left }) rfl
      rw [publications, commands_withRemaining] at rest
      rw [publications, commands, List.map_cons, List.cons_append, List.take_succ_cons]
      dsimp only [publications]
      rw [← rest]
      -- whether the sweep turns to another axis makes no difference
      split <;> rfl

/-- Beside its publications a sweep only makes reports of its own. -/
theorem exists_report_of_mem_batches (rounds : Nat) {input : Input}
    (mem : input ∈ (s.batches rounds).flatten) (silent : input.publication? = none) :
    ∃ event, input = .note event ∧ event.reporter = .sweep := by
  induction rounds generalizing s with
  | zero => cases mem
  | succ rounds induction =>
    rw [batches] at mem
    split at mem
    · simp only [List.flatten_cons, List.flatten_nil, List.append_nil, List.mem_cons,
        List.not_mem_nil, or_false] at mem
      rcases mem with rfl | rfl
      · exact ⟨_, rfl, rfl⟩
      · cases silent
    · rw [List.flatten_cons, List.cons_append, List.mem_cons, List.mem_append] at mem
      rcases mem with rfl | turn | later
      · cases silent
      · split at turn
        · cases turn
        · exact ⟨_, List.mem_singleton.mp turn, rfl⟩
      · exact induction later

end Sweep

/-! ## Missions -/

namespace Mission

/-- Everything that the sweep of a mission publishes. -/
def publications (m : Mission) : List (Command × Flags) := m.sweep.publications m.sweepLength

theorem inBounds_of_mem_publications (m : Mission) :
    ∀ publication ∈ m.publications, publication.1.InBounds := by
  intro publication mem
  rcases List.mem_append.mp mem with sent | last
  · obtain ⟨command, command_mem, rfl⟩ := List.mem_map.mp sent
    exact (Sweep.running_ofSteps _ _).commands_inBounds m.sweepLength command command_mem
  · rw [List.mem_singleton.mp last]
    exact Command.idle_inBounds

/-- The publications of the sweep arrive in their order, as many as do, however they are spread over
the batches.  Nothing else happens but that other tasks make reports. -/
structure Delivers (m : Mission) (schedule : List (List Input)) : Prop where
  /-- Publications. -/
  published : publicationsOf schedule.flatten <+: m.publications
  /-- Other inputs. -/
  reports : ∀ input ∈ schedule.flatten, input.publication? = none →
    ∃ event, input = .note event ∧ event.reporter ≠ .controlLoop

theorem publicationsOf_transmission (m : Mission) (rounds : Nat) :
    publicationsOf (m.sweep.transmission rounds).flatten = m.publications.take rounds :=
  Sweep.publicationsOf_batches (s := m.sweep) rfl rounds

/-- A sweep that keeps pace with the loop is one of the ways. -/
theorem delivers_schedule (m : Mission) : m.Delivers m.schedule := by
  refine ⟨?_, fun input mem silent => ?_⟩
  · rw [schedule, publicationsOf_transmission]
    exact List.take_prefix _ _
  · rcases List.mem_append.mp mem with first | later
    · exact ⟨_, List.mem_singleton.mp first, by simp [Event.reporter]⟩
    · obtain ⟨event, rfl, reporter⟩ := Sweep.exists_report_of_mem_batches _ later silent
      exact ⟨event, rfl, by simp [reporter]⟩

/-- Without a limit of cycles it has come to its end with the last batch. -/
theorem publicationsOf_schedule {m : Mission} (unlimited : m.maxCycles? = none) :
    publicationsOf m.schedule.flatten = m.publications := by
  rw [schedule, publicationsOf_transmission, unlimited]
  apply List.take_of_length_le
  rw [publications, Sweep.length_publications]
  rfl

end Mission

end Multirotor
