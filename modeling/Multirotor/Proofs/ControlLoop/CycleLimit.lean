import Multirotor.Proofs.ControlLoop.LatestCommand

/-!
# The cycle limit

A loop that nobody tells to kill the motors and that no motor fails counts its cycles, and after
each of them it asks whether the limit is reached.  So it runs as many cycles as a positive limit
says.  A limit of zero is asked about too late: one cycle has been run by then and has driven the
motors.
-/

namespace Multirotor

/-! ## Nobody asks for a kill -/

/-- The publications ask for no kill. -/
def Spares (publications : List (Command × Flags)) : Prop :=
  ∀ publication ∈ publications, ¬ publication.2.Contains .kill

instance (publications : List (Command × Flags)) : Decidable (Spares publications) :=
  inferInstanceAs (Decidable (∀ _ ∈ _, _))

theorem Mailbox.publishAll_spares {m : Mailbox} (spared : ¬ m.flags.Contains .kill)
    {publications : List (Command × Flags)} (spares : Spares publications) :
    ¬ (m.publishAll publications).flags.Contains .kill := by
  induction publications generalizing m with
  | nil => exact spared
  | cons publication publications induction =>
    obtain ⟨first, rest⟩ := List.forall_mem_cons.mp spares
    exact induction (m := m.publish publication.1 publication.2) first rest

namespace Flight

variable {f g : Flight} {options : LoopOptions}

theorem alive_of_spared (spared : ¬ f.vehicle.mailbox.flags.Contains .kill) : ¬ f.Killed := by
  rintro ⟨sample, latest, kill⟩
  rw [Mailbox.latest?] at latest
  split at latest
  · cases latest
  · cases latest
    exact spared ((Flags.truncate_contains_kill _).mp kill)

/-! ## One cycle -/

/-- The limit decides how a cycle ends that has dealt with its command. -/
theorem finish_counted (options : LoopOptions) (elapsed : Nat) (f : Flight) :
    (f.finish options elapsed).1 =
        (if options.maxCycles?.any (· ≤ f.cycles + 1) then some (.ok .cyclesCompleted) else none) ∧
      (f.finish options elapsed).2.cycles = f.cycles + 1 := by
  obtain ⟨pauses, same⟩ := f.finish_eq options elapsed
  refine ⟨?_, by rw [same]⟩
  rw [finish, apply_ite Prod.fst]
  rfl

/-- The cycle deals with its command, executing or skipping it, and then ends the loop if the limit
is reached. -/
structure Punctual (options : LoopOptions) (elapsed : Nat) (f : Flight) : Prop where
  /-- The command is executed unless it is skipped. -/
  command : f.Succeeds ↔ ¬ f.Skips
  /-- The limit decides whether the loop goes on. -/
  outcome : (f.cycle options elapsed).1 =
    if options.maxCycles?.any (· ≤ f.cycles + 1) then some (.ok .cyclesCompleted) else none
  /-- The cycle is counted. -/
  cycles : (f.cycle options elapsed).2.cycles = f.cycles + 1

/-- A cycle is punctual if nobody asks for a kill and no write is refused. -/
theorem punctual_of_accepted {elapsed : Nat} (complete : f.vehicle.mixer.checkComplete = .ok ())
    (serviceable : f.vehicle.mixer.Serviceable) (alive : ¬ f.Killed)
    (accepted : ∀ w ∈ f.cycleWrites options elapsed, f.vehicle.bench.timer.refusal? w = none) :
    f.Punctual options elapsed := by
  obtain ⟨sequence, same⟩ := f.lookup_eq
  by_cases inBounds : f.applied.InBounds
  · have outcome := (Mixer.execute_spec complete serviceable inBounds f.vehicle.bench).1
    -- a failing execution would have met a refusal
    have executed : f.execution.1 = .ok () := by
      cases failed : f.execution.1 with
      | ok => rfl
      | error e =>
        rw [cycleWrites_of_failed complete serviceable alive inBounds failed] at accepted
        have taken := Timer.accepted_of_throughRefusal fun w mem =>
          accepted w (List.mem_append_left _ mem)
        rw [execution, outcome, Timer.firstFailure_eq_ok_iff.mpr taken] at failed
        cases failed
    have counted := f.driven.publishPower.finish_counted options elapsed
    have same_cycles : f.driven.publishPower.cycles = f.cycles := by
      rw [driven, same]
      rfl
    rw [same_cycles, ← cycle_of_executed alive executed] at counted
    have succeeds : f.Succeeds := by
      rw [Succeeds, executed]
      rfl
    exact ⟨iff_of_true succeeds (not_not_intro inBounds), counted.1, counted.2⟩
  · have counted := (f.lookup.skip .outOfRangeCommand).finish_counted options elapsed
    have same_cycles : (f.lookup.skip .outOfRangeCommand).cycles = f.cycles := by
      rw [same]
      rfl
    rw [same_cycles, ← cycle_of_outOfBounds complete alive inBounds] at counted
    have failed := Skips.not_succeeds inBounds complete
    exact ⟨iff_of_false failed (not_not_intro inBounds), counted.1, counted.2⟩

/-! ## Whole runs -/

/-- A run of punctual cycles ends with the cycle that reaches the limit if the batches suffice. -/
theorem run_punctual {elapsedUs : Nat → Nat} {arrivals : List (List Input)} {n : Nat}
    (limit : options.maxCycles? = some n)
    (punctual : ∀ s ∈ starts options elapsedUs arrivals f,
      s.Punctual options (elapsedUs s.cycles)) :
    (run options elapsedUs arrivals f).1 =
        (if n ≤ f.cycles + arrivals.length + 1 then some (.ok .cyclesCompleted) else none) ∧
      (run options elapsedUs arrivals f).2.cycles =
        f.cycles + (starts options elapsedUs arrivals f).length ∧
      (starts options elapsedUs arrivals f).length =
        min (max (n - f.cycles) 1) (arrivals.length + 1) := by
  have reached (s : Flight) : options.maxCycles?.any (· ≤ s.cycles + 1) = true ↔
      n ≤ s.cycles + 1 := by
    rw [limit, Option.any_some, decide_eq_true_eq]
  induction arrivals generalizing f with
  | nil =>
    obtain ⟨-, outcome, cycles⟩ := punctual f List.mem_cons_self
    simp only [reached] at outcome
    have same : run options elapsedUs [] f = f.cycle options (elapsedUs f.cycles) := by
      rw [run]
      split <;> rename_i ended <;> exact ended.symm
    rw [same, outcome, cycles, starts]
    exact ⟨rfl, rfl, by simp⟩
  | cons batch rest induction =>
    rw [starts] at punctual ⊢
    rw [run]
    rcases first : f.cycle options (elapsedUs f.cycles) with ⟨_ | result, g⟩ <;>
      simp only [first] at punctual ⊢
    · obtain ⟨⟨-, outcome, cycles⟩, later⟩ := List.forall_mem_cons.mp punctual
      simp only [first, reached] at outcome cycles
      have going : ¬ n ≤ f.cycles + 1 := fun late => by
        rw [if_pos late] at outcome
        cases outcome
      have received : (g.receive batch).cycles = f.cycles + 1 := cycles
      obtain ⟨run_outcome, run_cycles, run_length⟩ := induction later
      rw [received] at run_outcome run_cycles run_length
      rw [run_outcome, run_cycles, List.length_cons, List.length_cons, run_length]
      refine ⟨?_, by omega, by omega⟩
      rw [Nat.add_right_comm f.cycles 1, ← Nat.add_assoc]
    · obtain ⟨-, outcome, cycles⟩ := punctual f List.mem_cons_self
      simp only [first, reached] at outcome cycles
      have late : n ≤ f.cycles + 1 := by
        by_contra going
        rw [if_neg going] at outcome
        cases outcome
      rw [if_pos late] at outcome
      rw [if_pos (by omega), cycles, List.length_singleton]
      exact ⟨outcome, rfl, by omega⟩

/-- If no publication asks for a kill, none of the cycles finds one that does. -/
theorem starts_spared {m : Mixer} (flying : f.Flying m) (complete : m.checkComplete = .ok ())
    (serviceable : m.Serviceable) (spared : ¬ f.vehicle.mailbox.flags.Contains .kill)
    (options : LoopOptions) (elapsedUs : Nat → Nat) {arrivals : List (List Input)}
    (spares : ∀ batch ∈ arrivals, Spares (publicationsOf batch)) :
    ∀ s ∈ starts options elapsedUs arrivals f,
      s.Flying m ∧ ¬ s.vehicle.mailbox.flags.Contains .kill := by
  apply forall_mem_starts
    (P := fun s => s.Flying m ∧ ¬ s.vehicle.mailbox.flags.Contains .kill) ⟨flying, spared⟩
  rintro s g elapsed ⟨flying, spared⟩ goes_on batch mem
  obtain ⟨course, flying⟩ := flying.cycle_fine complete serviceable goes_on (.inl rfl)
  obtain ⟨-, -, mailbox, -⟩ := course.kept (.inl rfl)
  refine ⟨flying.receive batch, ?_⟩
  rw [Flight.receive, Vehicle.receiveAll_mailbox, mailbox]
  exact Mailbox.publishAll_spares spared (spares batch mem)

end Flight

open Flight

/-- With a cycle limit, while nobody asks for a kill and no write of the loop is refused, the loop
completes as many cycles as a positive limit says, and one if the limit is zero, unless the batches
end before.  Each of these cycles either executes its command or skips it. -/
theorem Vehicle.fly_counts_cycles {v : Vehicle} (reachable : v.mixer.Reachable)
    (complete : v.mixer.checkComplete = .ok ()) (spared : ¬ v.mailbox.flags.Contains .kill)
    {options : LoopOptions} {n : Nat} (limit : options.maxCycles? = some n)
    {elapsedUs : Nat → Nat} {arrivals : List (List Input)}
    (spares : ∀ batch ∈ arrivals, Spares (publicationsOf batch))
    (accepted : ∀ s ∈ starts options elapsedUs arrivals v.takeoff,
      ∀ w ∈ s.cycleWrites options (elapsedUs s.cycles),
        s.vehicle.bench.timer.refusal? w = none) :
    ∃ g, v.fly options elapsedUs arrivals =
        (if n ≤ arrivals.length + 1 then some (.ok .cyclesCompleted) else none, g) ∧
      g.cycles = min (max n 1) (arrivals.length + 1) ∧
        (starts options elapsedUs arrivals v.takeoff).length = g.cycles ∧
          ∀ s ∈ starts options elapsedUs arrivals v.takeoff, s.Succeeds ↔ ¬ s.Skips := by
  have serviceable := reachable.serviceable
  have quiet := starts_spared v.takeoff_flying complete serviceable spared options elapsedUs
    spares
  have punctual : ∀ s ∈ starts options elapsedUs arrivals v.takeoff,
      s.Punctual options (elapsedUs s.cycles) := by
    intro s mem
    obtain ⟨flying, spared⟩ := quiet s mem
    exact punctual_of_accepted (flying.complete complete) (flying.serviceable serviceable)
      (alive_of_spared spared) (accepted s mem)
  obtain ⟨outcome, cycles, length⟩ := run_punctual limit punctual
  have start_cycles : v.takeoff.cycles = 0 := rfl
  rw [start_cycles, Nat.zero_add] at outcome cycles
  rw [start_cycles, Nat.sub_zero] at length
  refine ⟨(run options elapsedUs arrivals v.takeoff).2, ?_, cycles.trans length, cycles.symm,
    fun s mem => (punctual s mem).command⟩
  rw [fly_of_complete complete, ← outcome]

/-- Two cycles of a quadcopter, the second of which finds a command out of bounds. -/
theorem Vehicle.fly_counts_cycles_skipping :
    let options : LoopOptions := ⟨50, some 2⟩
    let arrivals : List (List Input) := [[.publish ⟨2, 0, 0, 0⟩ .start], []]
    let ran := starts options (fun _ => 0) arrivals Vehicle.quad.takeoff
    Vehicle.quad.mixer.Reachable ∧ Vehicle.quad.mixer.checkComplete = .ok () ∧
      ¬ Vehicle.quad.mailbox.flags.Contains .kill ∧ options.maxCycles? = some 2 ∧
        (∀ batch ∈ arrivals, Spares (publicationsOf batch)) ∧
          (∀ s ∈ ran, ∀ w ∈ s.cycleWrites options 0,
            s.vehicle.bench.timer.refusal? w = none) ∧
            ∃ g, Vehicle.quad.fly options (fun _ => 0) arrivals =
                (some (.ok .cyclesCompleted), g) ∧ g.cycles = 2 ∧ ran.length = 2 := by
  intro options arrivals ran
  have complete : Vehicle.quad.mixer.checkComplete = .ok () := rfl
  have spared : ¬ Vehicle.quad.mailbox.flags.Contains .kill := by decide
  have spares : ∀ batch ∈ arrivals, Spares (publicationsOf batch) := by decide
  have accepted : ∀ s ∈ ran, ∀ w ∈ s.cycleWrites options 0,
      s.vehicle.bench.timer.refusal? w = none := by
    decide +kernel
  obtain ⟨g, flown, cycles, length, -⟩ :=
    fly_counts_cycles Mixer.quad_reachable complete spared rfl spares accepted
  exact ⟨Mixer.quad_reachable, complete, spared, rfl, spares, accepted, g, flown, cycles,
    length.trans cycles⟩

/-- A limit of zero lets one cycle run, and that cycle drives the motors. -/
theorem Vehicle.fly_overruns_zero :
    ¬ ∀ (v : Vehicle) (options : LoopOptions) (n : Nat) (elapsedUs : Nat → Nat)
      (arrivals : List (List Input)), v.mixer.Reachable → v.mixer.checkComplete = .ok () →
      ¬ v.mailbox.flags.Contains .kill → options.maxCycles? = some n →
      (∀ batch ∈ arrivals, Spares (publicationsOf batch)) →
      (∀ s ∈ starts options elapsedUs arrivals v.takeoff,
        ∀ w ∈ s.cycleWrites options (elapsedUs s.cycles),
          s.vehicle.bench.timer.refusal? w = none) →
      n ≤ arrivals.length + 1 →
      ∃ g, v.fly options elapsedUs arrivals = (some (.ok .cyclesCompleted), g) ∧ g.cycles = n ∧
        (n = 0 → v.takeoff.loopWrites options elapsedUs arrivals = []) := by
  intro claim
  have accepted : ∀ s ∈ starts ⟨50, some 0⟩ (fun _ => 0) [] Vehicle.quad.takeoff,
      ∀ w ∈ s.cycleWrites ⟨50, some 0⟩ 0, s.vehicle.bench.timer.refusal? w = none := by
    decide +kernel
  obtain ⟨-, -, -, silent⟩ := claim .quad ⟨50, some 0⟩ 0 (fun _ => 0) [] Mixer.quad_reachable rfl
    (by decide) rfl (fun batch mem => absurd mem List.not_mem_nil) accepted (Nat.zero_le _)
  have writes : (Vehicle.quad.takeoff.loopWrites ⟨50, some 0⟩ (fun _ => 0) []).length = 4 := by
    decide +kernel
  rw [silent rfl] at writes
  cases writes

end Multirotor
