import Multirotor.Proofs.ControlLoop.Cycle

/-!
# Runs of the control loop

A run is taken apart into the flights at the start of its cycles.  What a cycle that goes on and the
inputs behind it keep therefore holds at every start, and the run ends as its last cycle does.
-/

namespace Multirotor

/-! ## Inputs -/

namespace Vehicle

theorem receive_mixer (v : Vehicle) (input : Input) : (v.receive input).mixer = v.mixer := by
  cases input <;> rfl

theorem receive_telemetry (v : Vehicle) (input : Input) :
    (v.receive input).telemetry = v.telemetry := by
  cases input <;> rfl

/-- Nothing that happens outside reaches into the mixer. -/
theorem receiveAll_mixer (v : Vehicle) (inputs : List Input) :
    (v.receiveAll inputs).mixer = v.mixer := by
  induction inputs generalizing v with
  | nil => rfl
  | cons input inputs induction => exact (induction _).trans (v.receive_mixer input)

theorem receiveAll_telemetry (v : Vehicle) (inputs : List Input) :
    (v.receiveAll inputs).telemetry = v.telemetry := by
  induction inputs generalizing v with
  | nil => rfl
  | cons input inputs induction => exact (induction _).trans (v.receive_telemetry input)

end Vehicle

/-! ## The cycles of a run -/

namespace Flight

/-- The flights at the start of the cycles of a run, in order. -/
def starts (options : LoopOptions) (elapsedUs : Nat → Nat) :
    List (List Input) → Flight → List Flight
  | [], f => [f]
  | batch :: rest, f =>
    match f.cycle options (elapsedUs f.cycles) with
    | (some _, _) => [f]
    | (none, g) => f :: starts options elapsedUs rest (g.receive batch)

/-- The writes that the loop itself attempts in a run. -/
def loopWrites (options : LoopOptions) (elapsedUs : Nat → Nat) (arrivals : List (List Input))
    (f : Flight) : List Write :=
  (starts options elapsedUs arrivals f).flatMap fun s => s.cycleWrites options (elapsedUs s.cycles)

variable {options : LoopOptions} {elapsedUs : Nat → Nat}

/-- Every cycle of a run but the last goes on, and the last one decides how the run ends. -/
theorem exists_starts_eq (options : LoopOptions) (elapsedUs : Nat → Nat)
    (arrivals : List (List Input)) (f : Flight) :
    ∃ earlier last, starts options elapsedUs arrivals f = earlier ++ [last] ∧
      (∀ s ∈ earlier, (s.cycle options (elapsedUs s.cycles)).1 = none) ∧
      run options elapsedUs arrivals f = last.cycle options (elapsedUs last.cycles) := by
  induction arrivals generalizing f with
  | nil =>
    refine ⟨[], f, rfl, fun s mem => absurd mem List.not_mem_nil, ?_⟩
    rw [run]
    rcases f.cycle options (elapsedUs f.cycles) with ⟨_ | result, g⟩ <;> rfl
  | cons batch rest induction =>
    rw [starts, run]
    rcases first : f.cycle options (elapsedUs f.cycles) with ⟨_ | result, g⟩
    · obtain ⟨earlier, last, starts_eq, goes_on, run_eq⟩ := induction (g.receive batch)
      refine ⟨f :: earlier, last, congrArg (f :: ·) starts_eq, ?_, run_eq⟩
      exact List.forall_mem_cons.mpr ⟨congrArg Prod.fst first, goes_on⟩
    · exact ⟨[], f, rfl, fun s mem => absurd mem List.not_mem_nil, first.symm⟩

theorem getElem?_starts_zero (arrivals : List (List Input)) (f : Flight) :
    (starts options elapsedUs arrivals f)[0]? = some f := by
  cases arrivals with
  | nil => rfl
  | cons batch rest =>
    rw [starts]
    rcases f.cycle options (elapsedUs f.cycles) with ⟨_ | result, g⟩ <;> rfl

/-- Every start but the first is what arrives after a cycle that went on. -/
theorem exists_of_getElem?_starts_succ {arrivals : List (List Input)} {f s : Flight} {k : Nat}
    (found : (starts options elapsedUs arrivals f)[k + 1]? = some s) :
    ∃ before g batch, (starts options elapsedUs arrivals f)[k]? = some before ∧
      before.cycle options (elapsedUs before.cycles) = (none, g) ∧ arrivals[k]? = some batch ∧
      s = g.receive batch := by
  induction arrivals generalizing f k with
  | nil => cases found
  | cons batch rest induction =>
    rw [starts] at found ⊢
    rcases first : f.cycle options (elapsedUs f.cycles) with ⟨_ | result, g⟩ <;>
      simp only [first] at found ⊢
    · cases k with
      | zero =>
        rw [List.getElem?_cons_succ, getElem?_starts_zero] at found
        exact ⟨f, g, batch, rfl, first, rfl, (Option.some.inj found).symm⟩
      | succ k =>
        rw [List.getElem?_cons_succ] at found ⊢
        exact induction found
    · cases found

/-- What relates a start to the cycles before it, if cycles that go on and the inputs behind them
keep it. -/
theorem starts_induction {P : List Flight → Flight → Prop} {arrivals : List (List Input)}
    {f : Flight} (start : P [] f)
    (keeps : ∀ ran, ∀ s ∈ starts options elapsedUs arrivals f, ∀ g, P ran s →
      s.cycle options (elapsedUs s.cycles) = (none, g) →
        ∀ batch ∈ arrivals, P (ran ++ [s]) (g.receive batch))
    {k : Nat} {s : Flight} (found : (starts options elapsedUs arrivals f)[k]? = some s) :
    P ((starts options elapsedUs arrivals f).take k) s := by
  induction k generalizing s with
  | zero =>
    rw [getElem?_starts_zero] at found
    rwa [← Option.some.inj found]
  | succ k induction =>
    obtain ⟨before, g, batch, before_found, goes_on, batch_found, rfl⟩ :=
      exists_of_getElem?_starts_succ found
    rw [List.take_add_one, before_found]
    exact keeps _ before (List.mem_of_getElem? before_found) g (induction before_found) goes_on
      batch (List.mem_of_getElem? batch_found)

/-- What cycles that go on and the inputs behind them keep holds at the start of every cycle. -/
theorem forall_mem_starts {P : Flight → Prop} {arrivals : List (List Input)} {f : Flight}
    (start : P f)
    (keeps : ∀ f g elapsedUs, P f → f.cycle options elapsedUs = (none, g) →
      ∀ batch ∈ arrivals, P (g.receive batch)) :
    ∀ s ∈ starts options elapsedUs arrivals f, P s := by
  intro s mem
  obtain ⟨k, found⟩ := List.mem_iff_getElem?.mp mem
  exact starts_induction (P := fun _ => P) start (fun _ s _ g => keeps s g _) found

/-- A cycle that ends the loop is the last one. -/
theorem run_eq_of_ended {arrivals : List (List Input)} {f s : Flight} {k : Nat}
    (found : (starts options elapsedUs arrivals f)[k]? = some s)
    (ended : (s.cycle options (elapsedUs s.cycles)).1 ≠ none) :
    (starts options elapsedUs arrivals f).length = k + 1 ∧
      run options elapsedUs arrivals f = s.cycle options (elapsedUs s.cycles) := by
  obtain ⟨earlier, last, starts_eq, goes_on, run_eq⟩ :=
    exists_starts_eq options elapsedUs arrivals f
  rw [starts_eq] at found
  have bound := (List.getElem?_eq_some_iff.mp found).1
  rw [List.length_append, List.length_singleton] at bound
  have not_earlier : ¬ k < earlier.length := fun early => by
    rw [List.getElem?_append_left early] at found
    exact ended (goes_on s (List.mem_of_getElem? found))
  have k_eq : k = earlier.length := by omega
  rw [k_eq, List.getElem?_concat_length] at found
  rw [starts_eq, run_eq, Option.some.inj found, k_eq, List.length_append]
  exact ⟨rfl, rfl⟩

/-! ## Pauses -/

/-- The waits that a cycle asks for, with what could be seen then. -/
def cyclePauses (options : LoopOptions) (elapsed : Nat) (f : Flight) : List Pause :=
  (f.cycle options elapsed).2.pauses.toList.drop f.pauses.size

/-- A cycle forgets no pause, and if it adds one it goes on and shows the telemetry that it
leaves. -/
private theorem exists_pauses_eq (options : LoopOptions) (elapsed : Nat) (f : Flight) :
    ∃ added, (f.cycle options elapsed).2.pauses.toList = f.pauses.toList ++ added ∧
      ∀ pause ∈ added, (f.cycle options elapsed).1 = none ∧
        pause.telemetry = (f.cycle options elapsed).2.vehicle.telemetry := by
  rcases cycle_eq : f.cycle options elapsed with ⟨_ | result, g⟩
  · obtain ⟨h, keeps, rfl⟩ := cycle_of_goes_on cycle_eq
    have before : (h.countCycle elapsed).pauses = f.pauses := keeps.pauses.trans f.lookup_pauses
    dsimp only
    rw [wait]
    split
    · rw [before]
      exact ⟨[_], Array.toList_push .., List.forall_mem_singleton.mpr ⟨rfl, rfl⟩⟩
    · rw [before]
      exact ⟨[], (List.append_nil _).symm, fun _ mem => absurd mem List.not_mem_nil⟩
  · have same := pauses_of_ended cycle_eq
    exact ⟨[], by rw [same, List.append_nil], fun _ mem => absurd mem List.not_mem_nil⟩

theorem pauses_cycle (options : LoopOptions) (elapsed : Nat) (f : Flight) :
    (f.cycle options elapsed).2.pauses.toList =
      f.pauses.toList ++ f.cyclePauses options elapsed := by
  obtain ⟨added, pauses, -⟩ := f.exists_pauses_eq options elapsed
  rw [cyclePauses, pauses, ← Array.length_toList, List.drop_left]

theorem of_mem_cyclePauses {elapsed : Nat} {f : Flight} {pause : Pause}
    (mem : pause ∈ f.cyclePauses options elapsed) :
    (f.cycle options elapsed).1 = none ∧
      pause.telemetry = (f.cycle options elapsed).2.vehicle.telemetry := by
  obtain ⟨added, pauses, shown⟩ := f.exists_pauses_eq options elapsed
  rw [cyclePauses, pauses, ← Array.length_toList, List.drop_left] at mem
  exact shown pause mem

/-- A run asks for the waits of its cycles. -/
theorem pauses_run (options : LoopOptions) (elapsedUs : Nat → Nat) (arrivals : List (List Input))
    (f : Flight) :
    (run options elapsedUs arrivals f).2.pauses.toList =
      f.pauses.toList ++ (starts options elapsedUs arrivals f).flatMap fun s =>
        s.cyclePauses options (elapsedUs s.cycles) := by
  induction arrivals generalizing f with
  | nil =>
    have added := f.pauses_cycle options (elapsedUs f.cycles)
    rw [starts, List.flatMap_singleton, ← added, run]
    split <;> rename_i cycle_eq <;> rw [cycle_eq]
  | cons batch rest induction =>
    have added := f.pauses_cycle options (elapsedUs f.cycles)
    rw [starts, run]
    rcases first : f.cycle options (elapsedUs f.cycles) with ⟨_ | result, g⟩ <;>
      simp only [first] at added ⊢
    · have received : (g.receive batch).pauses = g.pauses := rfl
      rw [induction, received, added, List.flatMap_cons, List.append_assoc]
    · rw [added, List.flatMap_singleton]

/-! ## Flying -/

/-- The loop has a mixer under its control. -/
structure Flying (m : Mixer) (f : Flight) : Prop where
  /-- Nothing of the mixer has changed but its outputs. -/
  mixer : ∃ outputs, f.vehicle.mixer = { m with outputs := outputs }
  /-- The telemetry shows the motors as armed. -/
  armed : f.vehicle.telemetry.armed = true

namespace Flying

variable {m : Mixer} {f g : Flight}

theorem complete (flying : f.Flying m) (complete : m.checkComplete = .ok ()) :
    f.vehicle.mixer.checkComplete = .ok () := by
  obtain ⟨outputs, same⟩ := flying.mixer
  rw [same]
  exact complete

theorem serviceable (flying : f.Flying m) (serviceable : m.Serviceable) :
    f.vehicle.mixer.Serviceable := by
  obtain ⟨outputs, same⟩ := flying.mixer
  rw [same]
  exact serviceable

theorem stopWrites_eq (flying : f.Flying m) : f.vehicle.mixer.stopWrites = m.stopWrites := by
  obtain ⟨outputs, same⟩ := flying.mixer
  rw [same]
  rfl

theorem speedWrites_eq (flying : f.Flying m) (c : Command) :
    f.vehicle.mixer.speedWrites c = m.speedWrites c := by
  obtain ⟨outputs, same⟩ := flying.mixer
  rw [same]
  rfl

theorem finish (flying : f.Flying m) (elapsed : Nat) : (f.finish options elapsed).2.Flying m := by
  obtain ⟨pauses, same⟩ := f.finish_eq options elapsed
  rw [same]
  exact ⟨flying.mixer, flying.armed⟩

theorem lookup (flying : f.Flying m) : f.lookup.Flying m := by
  obtain ⟨sequence, same⟩ := f.lookup_eq
  rw [same]
  exact ⟨flying.mixer, flying.armed⟩

theorem driven (flying : f.Flying m) : f.driven.Flying m := by
  obtain ⟨outputs, same⟩ := flying.mixer
  obtain ⟨outputs', same'⟩ := f.driven_mixer
  refine ⟨⟨outputs', ?_⟩, flying.lookup.armed⟩
  rw [same', same]

theorem receive (flying : f.Flying m) (inputs : List Input) : (f.receive inputs).Flying m where
  mixer := by
    rw [Flight.receive, Vehicle.receiveAll_mixer]
    exact flying.mixer
  armed := by
    rw [Flight.receive, Vehicle.receiveAll_telemetry]
    exact flying.armed

/-- A cycle keeps the mixer under control unless it grounds the vehicle. -/
theorem course {elapsed : Nat} {result : Option (Except MixerError Exit)} (flying : f.Flying m)
    (course : f.Course options elapsed result g) :
    (result = none ∨ result = some (.ok .cyclesCompleted)) ∧ g.Flying m ∨
      ∃ outcome, result = some outcome ∧ outcome ≠ .ok .cyclesCompleted := by
  cases course with
  | kill => exact .inr ⟨_, rfl, f.kill_ne_completed⟩
  | skip =>
    have skipped : (f.lookup.skip .outOfRangeCommand).Flying m :=
      ⟨flying.lookup.mixer, flying.lookup.armed⟩
    exact .inl ⟨finish_fst _ _ _, skipped.finish elapsed⟩
  | execute =>
    have published : f.driven.publishPower.Flying m := ⟨flying.driven.mixer, flying.driven.armed⟩
    exact .inl ⟨finish_fst _ _ _, published.finish elapsed⟩
  | fail => exact .inr ⟨_, rfl, by simp⟩

/-- A cycle that does not end the loop early goes one of the four ways and keeps the mixer under
control. -/
theorem cycle_fine {elapsed : Nat} {result : Option (Except MixerError Exit)}
    (flying : f.Flying m) (complete : m.checkComplete = .ok ()) (serviceable : m.Serviceable)
    (cycle_eq : f.cycle options elapsed = (result, g))
    (fine : result = none ∨ result = some (.ok .cyclesCompleted)) :
    f.Course options elapsed result g ∧ g.Flying m := by
  have course := cycle_course (flying.complete complete) (flying.serviceable serviceable) options
    elapsed
  rw [cycle_eq] at course
  rcases flying.course course with ⟨-, kept⟩ | ⟨outcome, rfl, early⟩
  · exact ⟨course, kept⟩
  · rcases fine with going | completed
    · cases going
    · exact absurd (Option.some.inj completed) early

end Flying

theorem starts_flying {m : Mixer} {f : Flight} (flying : f.Flying m)
    (complete : m.checkComplete = .ok ()) (serviceable : m.Serviceable) (options : LoopOptions)
    (elapsedUs : Nat → Nat) (arrivals : List (List Input)) :
    ∀ s ∈ starts options elapsedUs arrivals f, s.Flying m := by
  apply forall_mem_starts flying
  intro s g elapsed flying goes_on batch _
  exact (flying.cycle_fine complete serviceable goes_on (.inl rfl)).2.receive batch

end Flight

/-! ## Starting the loop -/

namespace Vehicle

/-- The loop at the start of its first cycle. -/
def takeoff (v : Vehicle) : Flight := { vehicle := { v with telemetry.armed := true } }

theorem takeoff_flying (v : Vehicle) : v.takeoff.Flying v.mixer := ⟨⟨_, rfl⟩, rfl⟩

theorem fly_of_complete {v : Vehicle} (complete : v.mixer.checkComplete = .ok ())
    (options : LoopOptions) (elapsedUs : Nat → Nat) (arrivals : List (List Input)) :
    v.fly options elapsedUs arrivals = v.takeoff.run options elapsedUs arrivals := by
  rw [fly, complete]
  rfl

/-- The quadcopter on a timer with four channels. -/
def quad : Vehicle := { mixer := .quad, bench := { timer := .bench 4 } }

end Vehicle

end Multirotor
