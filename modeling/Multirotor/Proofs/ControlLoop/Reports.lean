import Mathlib.Data.List.GetD
import Multirotor.Proofs.Binary32.Percent
import Multirotor.Proofs.ControlLoop.LatestCommand
import Multirotor.Proofs.Mixer.Representation

/-!
# What the loop reports

Powers and throttle are published by the cycles that execute their command, and until the next of
these neither they nor the outputs of the mixer change.  So from the first such cycle on the
telemetry agrees with the mixer, at every wait and when all cycles were run.
-/

namespace Multirotor

open Binary32

/-! ## Telemetry -/

namespace Telemetry

/-- The slots show the first six of the speeds and nothing else. -/
structure ShowsPower (t : Telemetry) (speeds : List Binary32) : Prop where
  count : t.count.toNat = min speeds.length 6
  slots : t.slots.toList = (speeds.take 6).map percent ++ List.replicate (6 - speeds.length) 0

theorem storePower_showsPower (t : Telemetry) (speeds : List Binary32) :
    (t.storePower speeds).ShowsPower speeds where
  count := by
    rw [storePower, UInt8.toNat_ofNat', maxMotors]
    omega
  slots := by
    have free : (0 : Binary32).percent = 0 := by decide
    rw [storePower, Vector.toList_ofFn]
    apply List.ext_getElem
    · simp only [List.length_ofFn, List.length_append, List.length_map, List.length_take,
        List.length_replicate]
      omega
    · intro i inside _
      rw [List.length_ofFn] at inside
      have length : ((speeds.take 6).map percent).length = min 6 speeds.length := by
        rw [List.length_map, List.length_take]
      rw [List.getElem_ofFn]
      by_cases shown : i < speeds.length
      · rw [List.getElem_append_left (by omega), List.getElem_map, List.getElem_take,
          List.getD_eq_getElem _ _ shown]
      · rw [List.getElem_append_right (by omega), List.getElem_replicate,
          List.getD_eq_default _ _ (not_lt.mp shown), free]

/-- The telemetry agrees with a mixer that shows the outputs and has executed a command with the
thrust. -/
structure Agrees (t : Telemetry) (outputs : List Binary32) (thrust : Binary32) : Prop where
  count : t.count.toNat = outputs.length
  power : t.power = outputs.map percent
  free : ∀ slot ∈ t.slots.toList.drop outputs.length, slot = 0
  throttle : t.throttle = thrust.percent
  /-- Every percentage is one, and about a half away from the exact one. -/
  close : ∀ x ∈ thrust :: outputs,
    x.percent.toNat ≤ 100 ∧ |(x.percent.toNat : ℚ) - 100 * x.value| ≤ 51 / 100

theorem ShowsPower.agrees {t : Telemetry} {outputs : List Binary32} {thrust : Binary32}
    (shows : t.ShowsPower outputs) (throttle : t.throttle = thrust.percent)
    (room : outputs.length ≤ 6) (unit : ∀ x ∈ thrust :: outputs, 0 ≤ x ∧ x ≤ 1) :
    t.Agrees outputs thrust := by
  obtain ⟨count, slots⟩ := shows
  rw [Nat.min_eq_left room] at count
  rw [List.take_of_length_le room] at slots
  have length : (outputs.map percent).length = outputs.length := List.length_map _
  refine ⟨count, ?_, ?_, throttle, fun x mem => percent_close (unit x mem)⟩
  · rw [Telemetry.power, count, slots, List.take_left' length]
  · rw [slots, List.drop_left' length]
    exact fun slot mem => List.eq_of_mem_replicate mem

/-- Time and skipped cycles have no part in it. -/
theorem Agrees.recounted {t : Telemetry} {outputs : List Binary32} {thrust : Binary32}
    (agrees : t.Agrees outputs thrust) (skipped : UInt32) (execTimeUs : Int32) :
    { t with skipped := skipped, execTimeUs := execTimeUs }.Agrees outputs thrust :=
  ⟨agrees.count, agrees.power, agrees.free, agrees.throttle, agrees.close⟩

end Telemetry

namespace Flight

variable {f g s : Flight} {options : LoopOptions} {elapsed : Nat} {ran : List Flight}
  {result : Option (Except MixerError Exit)}

/-! ## One cycle -/

/-- A cycle that deals with its command skips it and counts that, or executes and publishes it. -/
theorem Course.skipped_or_published (course : f.Course options elapsed result g)
    (fine : result = none ∨ result = some (.ok .cyclesCompleted)) :
    (f.Skips ∧ g.vehicle.mixer = f.vehicle.mixer ∧ ∃ execTimeUs, g.vehicle.telemetry =
        { f.vehicle.telemetry with
          skipped := f.vehicle.telemetry.skipped + 1, execTimeUs := execTimeUs }) ∨
      f.applied.InBounds ∧ f.Succeeds ∧ g.vehicle.mixer = f.driven.vehicle.mixer ∧
        ∃ execTimeUs, g.vehicle.telemetry =
          { f.driven.publishPower.vehicle.telemetry with execTimeUs := execTimeUs } := by
  obtain ⟨alive, executed⟩ := course.executed fine
  cases course with
  | kill killed => exact absurd killed alive
  | skip _ outOfBounds =>
    obtain ⟨sequence, same⟩ := f.lookup_eq
    obtain ⟨pauses, finished⟩ := (f.lookup.skip .outOfRangeCommand).finish_eq options elapsed
    rw [finished, same]
    exact .inl ⟨outOfBounds, rfl, _, rfl⟩
  | execute _ inBounds success =>
    obtain ⟨pauses, finished⟩ := f.driven.publishPower.finish_eq options elapsed
    have succeeds : f.Succeeds := by
      rw [Succeeds, success]
      rfl
    rw [finished]
    exact .inr ⟨inBounds, succeeds, rfl, _, rfl⟩
  | fail _ inBounds failed =>
    rw [executed inBounds] at failed
    cases failed

theorem Course.wellFormed (course : f.Course options elapsed result g)
    (fine : result = none ∨ result = some (.ok .cyclesCompleted))
    (wellFormed : f.vehicle.mixer.WellFormed) : g.vehicle.mixer.WellFormed := by
  rcases course.skipped_or_published fine with ⟨-, mixer, -⟩ | ⟨-, -, mixer, -⟩ <;> rw [mixer]
  · exact wellFormed
  · exact wellFormed.execute f.applied

/-- The commands that the cycles executed, oldest first. -/
def executed (ran : List Flight) : List Command :=
  (ran.filter fun s => s.Succeeds).map applied

/-- The telemetry agrees with the mixer once a command was executed. -/
def Reports (g : Flight) (ran : List Flight) : Prop :=
  ∀ c, (executed ran).getLast? = some c →
    g.vehicle.telemetry.Agrees g.vehicle.mixer.outputs c.thrust

theorem reports_nil (g : Flight) : g.Reports [] := nofun

/-- A cycle that executes its command publishes what the mixer shows. -/
theorem publishPower_agrees (wellFormed : s.vehicle.mixer.WellFormed)
    (inBounds : s.applied.InBounds) :
    s.driven.publishPower.vehicle.telemetry.Agrees s.driven.vehicle.mixer.outputs
      s.applied.thrust := by
  have driven : s.driven.vehicle.mixer.WellFormed := wellFormed.execute s.applied
  obtain ⟨room, unit⟩ := driven.outputs_fit
  have shows := s.driven.vehicle.telemetry.storePower_showsPower s.driven.vehicle.mixer.outputs
  have published : s.driven.publishPower.vehicle.telemetry.ShowsPower
    s.driven.vehicle.mixer.outputs := ⟨shows.count, shows.slots⟩
  exact published.agrees rfl room (List.forall_mem_cons.mpr ⟨inBounds.1, unit⟩)

/-- A cycle that deals with its command reports what it did, or what was reported before. -/
theorem Reports.concat (reports : s.Reports ran) (wellFormed : s.vehicle.mixer.WellFormed)
    (complete : s.vehicle.mixer.checkComplete = .ok ())
    (course : s.Course options elapsed result g)
    (fine : result = none ∨ result = some (.ok .cyclesCompleted)) : g.Reports (ran ++ [s]) := by
  intro c last
  rw [executed, List.filter_append, List.filter_singleton] at last
  rcases course.skipped_or_published fine with
    ⟨skips, mixer, _, telemetry⟩ | ⟨inBounds, succeeds, mixer, _, telemetry⟩
  -- the last executed command is still the one before, and the outputs are still its outputs
  · rw [decide_eq_false (skips.not_succeeds complete), cond_false, List.append_nil] at last
    rw [mixer, telemetry]
    exact (reports c last).recounted _ _
  · rw [decide_eq_true succeeds, cond_true, List.map_append, List.map_singleton,
      List.getLast?_concat] at last
    cases last
    rw [mixer, telemetry]
    exact (publishPower_agrees wellFormed inBounds).recounted _ _

/-! ## Whole runs -/

/-- What `g` reports when the cycles that started at `ran` are over. -/
structure Reported (f : Flight) (ran : List Flight) (g : Flight) : Prop where
  agrees : g.Reports ran
  armed : g.vehicle.telemetry.armed = true
  skipped : g.vehicle.telemetry.skipped =
    f.vehicle.telemetry.skipped + UInt32.ofNat (ran.countP fun s => s.Skips)

section

variable {m : Mixer} (flying : f.Flying m) (complete : m.checkComplete = .ok ())
  (serviceable : m.Serviceable) (wellFormed : f.vehicle.mixer.WellFormed)
  {elapsedUs : Nat → Nat} {arrivals : List (List Input)} {k : Nat}
include flying complete serviceable wellFormed

/-- At the start of every cycle the telemetry reports what the cycles before it did. -/
theorem reports_take (found : (starts options elapsedUs arrivals f)[k]? = some s) :
    s.vehicle.mixer.WellFormed ∧ s.Reports ((starts options elapsedUs arrivals f).take k) := by
  have all_flying := starts_flying flying complete serviceable options elapsedUs arrivals
  refine starts_induction (P := fun ran s => s.vehicle.mixer.WellFormed ∧ s.Reports ran)
    ⟨wellFormed, f.reports_nil⟩ ?_ found
  rintro ran before mem g ⟨wellFormed, reports⟩ goes_on batch -
  have flying := all_flying before mem
  obtain ⟨course, -⟩ := flying.cycle_fine complete serviceable goes_on (.inl rfl)
  rw [Reports, Flight.receive, Vehicle.receiveAll_mixer, Vehicle.receiveAll_telemetry]
  exact ⟨course.wellFormed (.inl rfl) wellFormed,
    reports.concat wellFormed (flying.complete complete) course (.inl rfl)⟩

/-- Every cycle that deals with its command reports what the cycles up to it did. -/
theorem reported_take (found : (starts options elapsedUs arrivals f)[k]? = some s)
    (fine : (s.cycle options (elapsedUs s.cycles)).1 = none ∨
      (s.cycle options (elapsedUs s.cycles)).1 = some (.ok .cyclesCompleted)) :
    f.Reported ((starts options elapsedUs arrivals f).take (k + 1))
      (s.cycle options (elapsedUs s.cycles)).2 := by
  obtain ⟨wellFormed, reports⟩ := reports_take flying complete serviceable wellFormed found
  have counted := counted_take flying complete serviceable found
  have flying := starts_flying flying complete serviceable options elapsedUs arrivals s
    (List.mem_of_getElem? found)
  obtain ⟨course, kept⟩ := flying.cycle_fine complete serviceable rfl fine
  have complete := flying.complete complete
  rw [List.take_add_one, found]
  exact ⟨reports.concat wellFormed complete course fine, kept.armed,
    (counted.concat_of_fine complete course fine).skipped⟩

end

end Flight

open Flight

/-- The waits of the loop are those of its cycles, and at each wait and when all cycles were run the
telemetry shows the outputs of the mixer and the thrust of the command executed last, once there is
one.  The motors are armed and every skipped cycle is counted. -/
theorem Vehicle.fly_reports {v : Vehicle} (reachable : v.mixer.Reachable)
    (complete : v.mixer.checkComplete = .ok ()) (options : LoopOptions) (elapsedUs : Nat → Nat)
    (arrivals : List (List Input)) :
    let ran := starts options elapsedUs arrivals v.takeoff
    ((v.fly options elapsedUs arrivals).2.pauses.toList =
        ran.flatMap fun s => s.cyclePauses options (elapsedUs s.cycles)) ∧
      (∀ k s, ran[k]? = some s → ∀ pause ∈ s.cyclePauses options (elapsedUs s.cycles),
        let after := (s.cycle options (elapsedUs s.cycles)).2
        pause.telemetry = after.vehicle.telemetry ∧
          v.takeoff.Reported (ran.take (k + 1)) after) ∧
      (∀ g, v.fly options elapsedUs arrivals = (some (.ok .cyclesCompleted), g) →
        v.takeoff.Reported ran g) ∧
      ∀ (t : Telemetry) (speeds : List Binary32), (t.storePower speeds).ShowsPower speeds := by
  intro ran
  have reported {k : Nat} {s : Flight} (found : ran[k]? = some s) :=
    reported_take v.takeoff_flying complete reachable.serviceable reachable.wellFormed found
  refine ⟨?_, fun k s found pause mem => ?_, fun g flown => ?_,
    Telemetry.storePower_showsPower⟩
  · rw [fly_of_complete complete, pauses_run]
    rfl
  · obtain ⟨goes_on, shown⟩ := of_mem_cyclePauses mem
    exact ⟨shown, reported found (.inl goes_on)⟩
  · obtain ⟨earlier, last, starts_eq, -, run_eq⟩ :=
      exists_starts_eq options elapsedUs arrivals v.takeoff
    rw [fly_of_complete complete, run_eq] at flown
    have found : ran[earlier.length]? = some last := by
      rw [show ran = earlier ++ [last] from starts_eq, List.getElem?_concat_length]
    have whole : ran.take (earlier.length + 1) = ran := by
      rw [List.take_of_length_le]
      rw [show ran = earlier ++ [last] from starts_eq, List.length_append, List.length_singleton]
    have completed := reported found (.inr (by rw [flown]))
    rwa [whole, flown] at completed

/-- The second and last cycle of a quadcopter finds a command out of bounds, and the telemetry shows
what the first one did. -/
theorem Vehicle.fly_reports_skipping :
    let v := quadHolding [(⟨0.5, 0, 0, 0⟩, .none)]
    let options : LoopOptions := ⟨50, some 2⟩
    let arrivals : List (List Input) := [[.publish ⟨2, 0, 0, 0⟩ .start]]
    v.mixer.Reachable ∧ v.mixer.checkComplete = .ok () ∧
      ∃ g, v.fly options (fun _ => 0) arrivals = (some (.ok .cyclesCompleted), g) ∧
        v.takeoff.Reported (starts options (fun _ => 0) arrivals v.takeoff) g ∧
        g.vehicle.mixer.outputs = [0.5, 0.5, 0.5, 0.5] ∧
        g.vehicle.telemetry.Agrees g.vehicle.mixer.outputs 0.5 ∧
        g.vehicle.telemetry.skipped = 1 := by
  intro v options arrivals
  have complete : v.mixer.checkComplete = .ok () := rfl
  have completed : (v.fly options (fun _ => 0) arrivals).1 = some (.ok .cyclesCompleted) := by
    decide +kernel
  obtain ⟨-, -, ends, -⟩ := fly_reports Mixer.quad_reachable complete options (fun _ => 0) arrivals
  have reported := ends _ (Prod.ext completed rfl)
  refine ⟨Mixer.quad_reachable, complete, _, Prod.ext completed rfl, reported, by decide +kernel,
    ?_, by decide +kernel⟩
  exact reported.agrees ⟨0.5, 0, 0, 0⟩ (by decide +kernel)

end Multirotor
