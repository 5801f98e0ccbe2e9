import Multirotor.Proofs.CommandLine.Accepted
import Multirotor.Proofs.ControlLoop.Steady
import Multirotor.Proofs.Mission.BringUp
import Multirotor.Proofs.Sweep.Publications

/-!
# Missions shut down clean

Settings that fit the timer bring the motors up, the sweep asks only for commands within bounds, and
a calm flight leaves the mixer cleared, so that every motor can be released.  Whatever the command
line accepts leads to settings that fit the timer of the bench.
-/

namespace Multirotor

open Mailbox

namespace Mission

variable {m : Mission} {timing : Timing} {schedule : List (List Input)} {start : Bench}

/-- A sweep does nothing to the vehicle that could disturb a flight. -/
theorem Delivers.calm (delivers : m.Delivers schedule) :
    ∀ input ∈ schedule.flatten, input.Calm := by
  intro input mem
  rcases published : input.publication? with _ | publication
  · obtain ⟨event, rfl, fine⟩ := delivers.reports input mem published
    exact fine
  · have sent : publication ∈ publicationsOf schedule.flatten :=
      List.mem_filterMap.mpr ⟨input, mem, published⟩
    have inBounds := m.inBounds_of_mem_publications publication (delivers.published.subset sent)
    cases input <;> cases published
    exact inBounds

/-- The end of a mission once the control loop has come as far as it does. -/
def conclude :
    Option (Except MixerError Exit) × Flight → Option (Except FlightError Exit) × Bench
  | (none, flight) => (none, flight.vehicle.bench)
  | (some (.error e), flight) => (some (.error (.mixer e)), flight.vehicle.bench)
  | (some (.ok exit), flight) =>
    match shutDown exit flight.vehicle.mixer flight.vehicle.bench with
    | (result, bench) => (some result, bench)

/-- The vehicle with which the control loop starts. -/
structure Ready (m : Mission) (start : Bench) (schedule : List (List Input)) (v : Vehicle) :
    Prop where
  /-- The mixer is cleared for flight. -/
  steady : v.Steady
  /-- Nothing went wrong on the way. -/
  smooth : start.Smooth v.bench
  /-- There is a motor on every channel that the geometry uses. -/
  channels : v.mixer.motors.map Esc.channel = m.settings.activeChannels
  /-- The mailbox holds what was published before the first cycle. -/
  mailbox : v.mailbox = holding (publicationsOf (schedule.headD []))

/-- A mission comes to a flight of the control loop. -/
theorem fly_eq_conclude (fits : m.settings.Fits timing start.timer)
    (delivers : m.Delivers schedule) (clock : Nat → Nat) :
    ∃ v, m.Ready start schedule v ∧ ∀ elapsedUs,
      m.fly clock elapsedUs schedule start =
        conclude (v.fly m.loopOptions elapsedUs schedule.tail) := by
  obtain ⟨mixer, armed, brought_up, cleared, channels, smooth⟩ := bringUp_smooth fits clock
  let v : Vehicle := { mixer := mixer, bench := armed }
  have steady : v.Steady := ⟨cleared, Command.idle_inBounds⟩
  have first_calm : ∀ input ∈ schedule.headD [], input.Calm := by
    intro input mem
    apply delivers.calm input
    cases schedule with
    | nil => cases mem
    | cons batch rest => exact List.mem_append_left _ mem
  obtain ⟨received, smooth_first⟩ := steady.receiveAll first_calm
  refine ⟨v.receiveAll (schedule.headD []), ⟨received, smooth.trans smooth_first.bench,
    smooth_first.channels.trans channels, Vehicle.receiveAll_mailbox _ _⟩, fun elapsedUs => ?_⟩
  rw [fly, brought_up]
  rfl

theorem Delivers.calm_tail (delivers : m.Delivers schedule) :
    ∀ batch ∈ schedule.tail, ∀ input ∈ batch, input.Calm := fun _ mem input input_mem =>
  delivers.calm input (List.mem_flatten_of_mem (List.mem_of_mem_tail mem) input_mem)

/-- A mission whose sweep comes to its end comes to an end. -/
theorem fly_returns (fits : m.settings.Fits timing start.timer) (delivers : m.Delivers schedule)
    (whole : publicationsOf schedule.flatten = m.publications) (clock elapsedUs : Nat → Nat) :
    (m.fly clock elapsedUs schedule start).1 ≠ none := by
  obtain ⟨v, ready, same⟩ := fly_eq_conclude fits delivers clock
  rw [same]
  rcases flown : v.fly m.loopOptions elapsedUs schedule.tail with ⟨_ | e | exit, flight⟩
  · have steady : v.takeoff.Steady :=
      ⟨⟨ready.steady.cleared, ready.steady.mailbox⟩, Command.idle_inBounds⟩
    rw [Vehicle.fly_of_complete ready.steady.cleared.complete] at flown
    obtain ⟨mailbox, alive⟩ := steady.run_none delivers.calm_tail flown
    have received : flight.vehicle.mailbox = holding m.publications := by
      have start_mailbox : v.takeoff.vehicle.mailbox = _ := ready.mailbox
      rw [mailbox, start_mailbox, publishAll_holding, ← publicationsOf_append, ← whole]
      cases schedule <;> rfl
    have latest : flight.vehicle.mailbox.latest? =
        some ⟨.idle, Flags.kill.truncate, (holding m.publications).sequence⟩ := by
      rw [received, latest?_holding, publications, Sweep.publications, List.getLast?_concat]
      rfl
    have kill : Flags.kill.truncate.Contains .kill := by decide
    exact absurd ⟨_, latest, kill⟩ alive
  · simp [conclude]
  · simp [conclude]

/-- A mission has ended as it should and has left its motors without a signal. -/
structure ShutsDownClean (m : Mission) (start : Bench) (result : Except FlightError Exit)
    (bench : Bench) : Prop where
  /-- The sweep was over, or all cycles were run. -/
  ended : result = .ok .killed ∨ result = .ok .cyclesCompleted
  /-- The timer has accepted everything that was attempted. -/
  accepted : ∃ ws, bench.timer = (start.timer.attemptAll ws).2 ∧
    ∀ answer ∈ (start.timer.attemptAll ws).1, answer = .ok ()
  /-- No cycle was skipped. -/
  executed : ∃ events, bench.journal.toList = start.journal.toList ++ events ∧
    ∀ reason command, .cycleSkipped reason command ∉ events
  /-- The last write on the channel of every motor is a stop. -/
  stopped : ∀ channel ∈ m.settings.activeChannels,
    bench.timer.output? channel = some (.stop channel)

theorem shutsDownClean_of_smooth {bench : Bench} (smooth : start.Smooth bench)
    (stopped : ∀ channel ∈ m.settings.activeChannels,
      bench.timer.output? channel = some (.stop channel)) (exit : Exit) :
    m.ShutsDownClean start (.ok exit) bench where
  ended := by
    cases exit
    · exact .inl rfl
    · exact .inr rfl
  accepted := by
    obtain ⟨ws, accepted, written⟩ := smooth.timer
    refine ⟨ws, written, fun answer mem => ?_⟩
    rw [Timer.attemptAll_answers] at mem
    obtain ⟨w, w_mem, rfl⟩ := List.mem_map.mp mem
    exact Timer.answer_eq_ok_iff.mpr (accepted w w_mem)
  executed := by
    obtain ⟨events, grown, fine⟩ := smooth.journal
    exact ⟨events, grown, fun reason command mem => fine _ mem rfl⟩
  stopped := stopped

theorem shutDown_of_cleared {mixer : Mixer} {bench : Bench} (cleared : mixer.Cleared bench.timer)
    (exit : Exit) :
    ∃ after, shutDown exit mixer bench = (.ok exit, after) ∧ bench.Smooth after ∧
      ∀ channel ∈ mixer.motors.map Esc.channel,
        after.timer.output? channel = some (.stop channel) := by
  obtain ⟨released, smooth, stopped⟩ := cleared.release_smooth
  rcases given_up : mixer.release bench with ⟨outcome, mixer', after⟩
  rw [given_up] at released smooth stopped
  obtain rfl : outcome = .ok () := released
  refine ⟨after, by rw [shutDown, given_up], smooth, fun channel mem => ?_⟩
  obtain ⟨e, e_mem, rfl⟩ := List.mem_map.mp mem
  exact stopped e e_mem

theorem fly_shutsDownClean (fits : m.settings.Fits timing start.timer)
    (delivers : m.Delivers schedule) {clock elapsedUs : Nat → Nat}
    {result : Except FlightError Exit} {bench : Bench}
    (flown : m.fly clock elapsedUs schedule start = (some result, bench)) :
    m.ShutsDownClean start result bench := by
  obtain ⟨v, ready, same⟩ := fly_eq_conclude fits delivers clock
  rw [same] at flown
  obtain ⟨smooth, cleared, fine⟩ := ready.steady.fly m.loopOptions elapsedUs delivers.calm_tail
  rcases looped : v.fly m.loopOptions elapsedUs schedule.tail with ⟨_ | e | exit, flight⟩ <;>
    rw [looped] at flown smooth cleared fine
  · cases flown
  · exact absurd rfl (fine e)
  · obtain ⟨after, landed, smooth_landing, stopped⟩ := shutDown_of_cleared cleared exit
    simp only [conclude, landed] at flown
    cases flown
    rw [smooth.channels, ready.channels] at stopped
    exact shutsDownClean_of_smooth ((ready.smooth.trans smooth.bench).trans smooth_landing) stopped
      exit

end Mission

/-! ## From the command line -/

/-- The timer of the bench takes the arming pulse of every protocol on each of its channels. -/
theorem Timer.bench_arms (p : Protocol) {channel : UInt32}
    (available : ¬ (channel = 0 ∨ 6 < channel)) :
    (Timer.bench 6).refusal? ⟨channel, p.timing.periodNs, nanoseconds p.armPulse⟩ = none := by
  have pulse : ¬ p.timing.periodNs < nanoseconds p.armPulse := by cases p <;> decide
  have period : ¬ (Timer.bench 6).counterMax < (Timer.bench 6).ticks p.timing.periodNs := by
    cases p <;> decide
  have no_faults : ∀ fault ∈ (Timer.bench 6).faults, fault.1 ≠ channel :=
    fun _ mem => absurd mem List.not_mem_nil
  exact refusal?_eq_none_iff.mpr ⟨rfl, available, no_faults, pulse, period⟩

/-- What sensible arguments make of the default settings fits the timer of the bench. -/
theorem Arguments.Sensible.fits {a : Arguments} (sensible : a.Sensible) :
    (a.apply {}).Fits (a.apply {}).protocol.timing (.bench 6) where
  valid := sensible.validate_apply rfl
  narrowed := Esc.withOffsets_zero _
  ready := rfl
  arms channel mem := by
    have listed : channel ∈ [1, 2, 3, 4, 5, 6] := List.mem_of_mem_take mem
    simp only [List.mem_cons, List.not_mem_nil, or_false] at listed
    have available : ¬ (channel = 0 ∨ 6 < channel) := by
      rcases listed with rfl | rfl | rfl | rfl | rfl | rfl <;> decide
    exact Timer.bench_arms _ available

/-- A store takes the settings asked for and the program shuts down clean with them, however the
sweep falls between the cycles of the control loop and however long these take.  It has come to an
end once the sweep has. -/
def Arguments.FliesClean (a : Arguments) (before : SettingsStore) : Prop :=
  ∃ store, before.save (a.apply before.load) = (.ok (), store) ∧
    store.load = a.apply before.load ∧
    let m : Mission := ⟨store.load, a.sweepSteps, a.cycles?⟩
    ∀ schedule start, m.Delivers schedule → start.timer = .bench 6 → ∀ clock elapsedUs,
      (publicationsOf schedule.flatten = m.publications →
        (m.fly clock elapsedUs schedule start).1 ≠ none) ∧
      ∀ result bench, m.fly clock elapsedUs schedule start = (some result, bench) →
        m.ShutsDownClean start result bench

theorem Arguments.Sensible.fliesClean {a : Arguments} (sensible : a.Sensible) :
    a.FliesClean {} := by
  refine ⟨⟨a.apply {}⟩, sensible.save_apply rfl {}, rfl, ?_⟩
  intro m schedule start delivers timer clock elapsedUs
  have fits : m.settings.Fits (a.apply {}).protocol.timing start.timer := timer ▸ sensible.fits
  exact ⟨fun whole => Mission.fly_returns fits delivers whole clock elapsedUs,
    fun result bench flown => Mission.fly_shutsDownClean fits delivers flown⟩

/-- Whatever the command line accepts, the program shuts down clean. -/
theorem Request.flight_shuts_down_clean {arguments : List String} {a : Arguments}
    (accepted : Request.ofArguments arguments = .ok (.flight a)) : a.FliesClean {} :=
  (sensible_of_ofArguments accepted).fliesClean

/-- A hexacopter with a sweep of three steps for each axis that keeps pace with the loop. -/
theorem Request.flight_shuts_down_clean_hexX :
    let arguments := ["--geometry", "hex-x", "--normalization=static", "--thrust-weight", "100",
      "--sweep-steps=3"]
    let a : Arguments :=
      { geometry? := some .hexX, normalization? := some (.staticWeight 60),
        thrustWeight? := some 100, sweepSteps := 3 }
    let m : Mission := ⟨a.apply {}, a.sweepSteps, a.cycles?⟩
    Request.ofArguments arguments = .ok (.flight a) ∧ m.Delivers m.schedule ∧
      Mission.freshBench.timer = .bench 6 ∧
      ∃ result bench, m.fly id id m.schedule Mission.freshBench = (some result, bench) ∧
        m.ShutsDownClean Mission.freshBench result bench := by
  intro arguments a m
  have accepted : Request.ofArguments arguments = .ok (.flight a) := by decide +kernel
  have delivers := m.delivers_schedule
  have whole := Mission.publicationsOf_schedule (m := m) rfl
  obtain ⟨store, _, loaded, clean⟩ := flight_shuts_down_clean accepted
  rw [loaded] at clean
  obtain ⟨returns, ends⟩ := clean m.schedule Mission.freshBench delivers rfl id id
  rcases flown : m.fly id id m.schedule Mission.freshBench with ⟨_ | result, bench⟩
  · exact absurd (congrArg Prod.fst flown) (returns whole)
  · exact ⟨accepted, delivers, rfl, result, bench, rfl, ends result bench flown⟩

end Multirotor
