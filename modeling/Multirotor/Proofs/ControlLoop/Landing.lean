import Multirotor.Proofs.ControlLoop.Run
import Multirotor.Proofs.Esc.PulseWidth

/-!
# How the control loop ends

A loop that starts ends in one of three ways: it completes its cycles, it is told to kill the
motors, or a motor fails.  It leaves the motors running in the first case only, and then has never
stopped one; in the other cases it has tried to stop every motor last of all.
-/

namespace Multirotor

open Flight

/-- No speed of a properly tuned motor is written as a stop. -/
theorem Mixer.not_isStop_of_mem_speedWrites {m : Mixer} (serviceable : m.Serviceable)
    {c : Command} : ∀ w ∈ m.speedWrites c, ¬ w.IsStop := by
  intro w mem stop
  obtain ⟨i, found⟩ := List.mem_iff_getElem?.mp mem
  obtain ⟨e, speed, e_found, _, rfl⟩ := List.getElem?_zipWith_eq_some.mp found
  exact (serviceable e (List.mem_of_getElem? e_found)).tuned.periodNs_ne_zero stop.1

variable {f g : Flight} {options : LoopOptions} {elapsed : Nat}

namespace Flight

/-- A cycle that neither grounds the vehicle nor fails stops no motor. -/
theorem not_isStop_of_mem_cycleWrites (complete : f.vehicle.mixer.checkComplete = .ok ())
    (serviceable : f.vehicle.mixer.Serviceable)
    (fine : (f.cycle options elapsed).1 = none ∨
      (f.cycle options elapsed).1 = some (.ok .cyclesCompleted)) :
    ∀ w ∈ f.cycleWrites options elapsed, ¬ w.IsStop := by
  intro w mem
  obtain ⟨alive, executed⟩ := (cycle_course complete serviceable options elapsed).executed fine
  by_cases inBounds : f.applied.InBounds
  · rw [cycleWrites_of_executed complete serviceable alive inBounds (executed inBounds)] at mem
    exact Mixer.not_isStop_of_mem_speedWrites serviceable w (Timer.mem_of_mem_throughRefusal mem)
  · rw [cycleWrites_of_outOfBounds complete alive inBounds] at mem
    exact absurd mem List.not_mem_nil

/-- A cycle that ends the loop early grounds the vehicle, and a kill does so without a refusal. -/
theorem Course.grounded {outcome : Except MixerError Exit}
    (complete : f.vehicle.mixer.checkComplete = .ok ())
    (serviceable : f.vehicle.mixer.Serviceable) (course : f.Course options elapsed (some outcome) g)
    (early : outcome ≠ .ok .cyclesCompleted) :
    ∃ h : Flight, h.GroundedFrom g ∧ h.vehicle.mixer.stopWrites = f.vehicle.mixer.stopWrites ∧
      ((outcome = .ok .killed ∧
          ∀ w ∈ f.vehicle.mixer.stopWrites, h.vehicle.bench.timer.refusal? w = none) ∨
        ∃ motor source, outcome = .error (.actuatorFailure motor source)) := by
  have initialized := (Mixer.checkComplete_eq_ok complete).1
  generalize result_eq : some outcome = result at course
  cases course with
  | kill =>
    refine ⟨f, kill_grounded initialized serviceable, rfl, ?_⟩
    rw [Option.some.inj result_eq, kill_fst initialized serviceable]
    rcases stopped : f.vehicle.bench.timer.firstFailure .stopFailed 0
      f.vehicle.mixer.stopWrites with e | _
    · obtain ⟨motor, source, rfl⟩ := Timer.firstFailure_eq_error stopped
      exact .inr ⟨motor, source, rfl⟩
    · exact .inl ⟨rfl, Timer.firstFailure_eq_ok_iff.mp stopped⟩
  | skip => exact absurd result_eq (finish_ne_early _ _ _ early)
  | execute => exact absurd result_eq (finish_ne_early _ _ _ early)
  | @fail motor source =>
    obtain ⟨outputs, same⟩ := f.driven_mixer
    refine ⟨f.driven, failed_grounded complete serviceable _, ?_, .inr ⟨motor, source, ?_⟩⟩
    · rw [same]
      rfl
    · exact Option.some.inj result_eq

end Flight

/-- The vehicle after the stops of all motors of a mixer were attempted on the timer `before` and
nothing was done since. -/
structure Vehicle.Landed (v : Vehicle) (m : Mixer) (before : Timer) : Prop where
  /-- The telemetry shows no motor under control. -/
  disarmed : v.telemetry.armed = false
  /-- The mixer shows no outputs. -/
  outputs : v.mixer.outputs = []
  /-- The stops were attempted in slot order, whatever was refused. -/
  timer : v.bench.timer = (before.attemptAll m.stopWrites).2
  /-- They are the last attempts that the timer has recorded. -/
  attempts : v.bench.timer.attempts.toList = before.attempts.toList ++ m.stopWrites
  /-- The channel of every motor that took its stop keeps it. -/
  stopped : ∀ (i : Nat) (e : Esc), m.motors[i]? = some e →
    (before.attemptAll m.stopWrites).1[i]? = some (.ok ()) →
    v.bench.timer.output? e.channel = some (.stop e.channel)

theorem Flight.GroundedFrom.landed {m : Mixer} {f g : Flight} (grounded : f.GroundedFrom g)
    (stops : f.vehicle.mixer.stopWrites = m.stopWrites) :
    g.vehicle.Landed m f.vehicle.bench.timer where
  disarmed := grounded.disarmed
  outputs := grounded.outputs
  timer := by rw [grounded.timer, stops]
  attempts := by rw [grounded.timer, Timer.attempts_attemptAll, stops]
  stopped i e found accepted := by
    have write_found : m.stopWrites[i]? = some (.stop e.channel) := by
      rw [Mixer.stopWrites, List.getElem?_map, found]
      rfl
    rw [Timer.attemptAll_answers, List.getElem?_map, write_found] at accepted
    rw [grounded.timer, stops]
    exact Mixer.output?_stopWrites (List.mem_of_getElem? found)
      (Timer.answer_eq_ok_iff.mp (Option.some.inj accepted))

section

variable {v : Vehicle} (complete : v.mixer.checkComplete = .ok ())
  (serviceable : v.mixer.Serviceable) {elapsedUs : Nat → Nat} {arrivals : List (List Input)}
include complete serviceable

/-- A loop that completes its cycles leaves the motors running and has stopped none. -/
theorem Vehicle.fly_completed
    (flown : v.fly options elapsedUs arrivals = (some (.ok .cyclesCompleted), g)) :
    g.vehicle.telemetry.armed = true ∧
      ∀ w ∈ v.takeoff.loopWrites options elapsedUs arrivals, ¬ w.IsStop := by
  have flying := starts_flying v.takeoff_flying complete serviceable options elapsedUs arrivals
  obtain ⟨earlier, last, starts_eq, goes_on, run_eq⟩ :=
    exists_starts_eq options elapsedUs arrivals v.takeoff
  rw [fly_of_complete complete, run_eq] at flown
  constructor
  · have last_flying : last.Flying v.mixer := flying last (by simp [starts_eq])
    have course := cycle_course (last_flying.complete complete)
      (last_flying.serviceable serviceable) options (elapsedUs last.cycles)
    rw [flown] at course
    rcases last_flying.course course with ⟨_, flying⟩ | ⟨_, ended, early⟩
    · exact flying.armed
    · exact absurd (Option.some.inj ended).symm early
  · intro w mem
    obtain ⟨s, s_mem, w_mem⟩ := List.mem_flatMap.mp mem
    have s_flying := flying s s_mem
    refine not_isStop_of_mem_cycleWrites (s_flying.complete complete)
      (s_flying.serviceable serviceable) ?_ w w_mem
    rw [starts_eq] at s_mem
    rcases List.mem_append.mp s_mem with early | late
    · exact .inl (goes_on s early)
    · rw [List.mem_singleton.mp late, flown]
      exact .inr rfl

/-- A loop that ends early was told to kill the motors or lost one, and has landed. -/
theorem Vehicle.fly_ended_early {outcome : Except MixerError Exit}
    (early : outcome ≠ .ok .cyclesCompleted)
    (flown : v.fly options elapsedUs arrivals = (some outcome, g)) :
    ∃ before, g.vehicle.Landed v.mixer before ∧
      ((outcome = .ok .killed ∧
          ∀ answer ∈ (before.attemptAll v.mixer.stopWrites).1, answer = .ok ()) ∨
        ∃ motor source, outcome = .error (.actuatorFailure motor source)) := by
  have flying := starts_flying v.takeoff_flying complete serviceable options elapsedUs arrivals
  obtain ⟨earlier, last, starts_eq, goes_on, run_eq⟩ :=
    exists_starts_eq options elapsedUs arrivals v.takeoff
  have last_flying : last.Flying v.mixer := flying last (by simp [starts_eq])
  rw [fly_of_complete complete, run_eq] at flown
  have course := cycle_course (last_flying.complete complete)
    (last_flying.serviceable serviceable) options (elapsedUs last.cycles)
  rw [flown] at course
  obtain ⟨h, grounded, stops, ending⟩ := Course.grounded (last_flying.complete complete)
    (last_flying.serviceable serviceable) course early
  rw [last_flying.stopWrites_eq] at stops ending
  refine ⟨h.vehicle.bench.timer, grounded.landed stops, ?_⟩
  rcases ending with ⟨killed, accepted⟩ | failed
  · refine .inl ⟨killed, fun answer mem => ?_⟩
    rw [Timer.attemptAll_answers] at mem
    obtain ⟨w, w_mem, rfl⟩ := List.mem_map.mp mem
    exact Timer.answer_eq_ok_iff.mpr (accepted w w_mem)
  · exact .inr failed

end

/-- How the control loop ends, whatever happens while it waits.  A mixer that is not complete is
refused before anything is done.  Otherwise the loop completes its cycles and has stopped no motor,
or it was told to kill the motors or a motor failed, and then stopping all motors is the last thing
that was tried. -/
theorem Vehicle.fly_lands {v : Vehicle} (reachable : v.mixer.Reachable) (options : LoopOptions)
    (elapsedUs : Nat → Nat) (arrivals : List (List Input)) :
    (∀ e, v.mixer.checkComplete = .error e →
      ∃ g, v.fly options elapsedUs arrivals = (some (.error e), g) ∧
        g.vehicle.bench.timer = v.bench.timer ∧ g.vehicle.mixer = v.mixer ∧
        g.vehicle.telemetry = v.telemetry) ∧
    (v.mixer.checkComplete = .ok () →
      ∀ outcome g, v.fly options elapsedUs arrivals = (some outcome, g) →
        (outcome = .ok .cyclesCompleted ∧ g.vehicle.telemetry.armed = true ∧
          ∀ w ∈ v.takeoff.loopWrites options elapsedUs arrivals, ¬ w.IsStop) ∨
        ∃ before, g.vehicle.Landed v.mixer before ∧
          ((outcome = .ok .killed ∧
              ∀ answer ∈ (before.attemptAll v.mixer.stopWrites).1, answer = .ok ()) ∨
            ∃ motor source, outcome = .error (.actuatorFailure motor source))) := by
  refine ⟨fun e refused => ?_, fun complete outcome g flown => ?_⟩
  · refine ⟨{ vehicle := { v with bench := v.bench.log (.loopRefused e) } }, ?_, rfl, rfl, rfl⟩
    rw [fly, refused]
  · by_cases completed : outcome = .ok .cyclesCompleted
    · subst completed
      exact .inl ⟨rfl, fly_completed complete reachable.serviceable flown⟩
    · exact .inr (fly_ended_early complete reachable.serviceable completed flown)

/-- The third motor of a quadcopter breaks between the first and the second cycle. -/
theorem Vehicle.fly_lands_broken_motor :
    Vehicle.quad.mixer.Reachable ∧ Vehicle.quad.mixer.checkComplete = .ok () ∧
      ∃ g before, Vehicle.quad.fly ⟨50, none⟩ (fun _ => 0) [[.injectFault 3 .writeFailed]] =
          (some (.error (.actuatorFailure 2 (.hardware .writeFailed))), g) ∧
        g.vehicle.Landed .quad before := by
  have complete : Vehicle.quad.mixer.checkComplete = .ok () := rfl
  have failed : (Vehicle.quad.fly ⟨50, none⟩ (fun _ => 0) [[.injectFault 3 .writeFailed]]).1 =
      some (.error (.actuatorFailure 2 (.hardware .writeFailed))) := by rfl
  rcases flown : Vehicle.quad.fly ⟨50, none⟩ (fun _ => 0) [[.injectFault 3 .writeFailed]] with
    ⟨result, g⟩
  rw [flown] at failed
  subst failed
  have lands := (fly_lands Mixer.quad_reachable ⟨50, none⟩ (fun _ => 0)
    [[.injectFault 3 .writeFailed]]).2 complete _ g flown
  rcases lands with ⟨completed, _⟩ | ⟨before, landed, _⟩
  · cases completed
  · exact ⟨Mixer.quad_reachable, complete, g, before, rfl, landed⟩

end Multirotor
