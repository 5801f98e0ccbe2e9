import Multirotor.Mission
import Multirotor.Proofs.Mixer.Representation
import Multirotor.Proofs.Mixer.Smooth
import Multirotor.Proofs.Settings.Store

/-!
# Bringing up the motors

The slots of the settings are filled in the order in which the mixer expects them, so with usable
settings and a timer that takes the arming pulses nothing can go wrong: the mixer is complete,
armed, and cleared for flight.
-/

namespace Multirotor

namespace Settings

/-- The ESC of a channel, set up with a timing for its pulses. -/
def motor (s : Settings) (timing : Timing) (channel : UInt32) : Esc :=
  ⟨channel, s.protocol, timing, s.esc.armMs, .initialized, .disarmed⟩

/-- The settings can be used with a timing for the pulses and a timer. -/
structure Fits (s : Settings) (timing : Timing) (t : Timer) : Prop where
  /-- The store takes the settings. -/
  valid : s.validate = .ok ()
  /-- The timing is what the offsets leave of the protocol's. -/
  narrowed : s.protocol.timing.withOffsets s.esc.minOffset s.esc.maxOffset = .ok timing
  /-- The device takes writes. -/
  ready : t.ready = true
  /-- No motor is refused its arming pulse. -/
  arms : ∀ channel ∈ s.activeChannels, t.refusal? (s.motor timing channel).armingWrite = none

variable {s : Settings} {timing : Timing}

theorem configure_motor
    (narrowed : s.protocol.timing.withOffsets s.esc.minOffset s.esc.maxOffset = .ok timing)
    {bench : Bench} (ready : bench.timer.ready = true) (channel : UInt32) :
    Esc.configure channel s.protocol s.esc bench =
      (.ok (s.motor timing channel), bench.log (.escConfigured channel s.protocol timing)) := by
  simp only [Esc.configure, ready, narrowed]
  rfl

end Settings

/-- A motor in use that is declared for the next slot is taken. -/
theorem Mixer.attachAt_of_next {m : Mixer} (initialized : m.lifecycle = .initialized)
    {position : Position} (next : m.nextPosition? = some position) {motor : Esc}
    (in_use : motor.lifecycle = .initialized) (bench : Bench) :
    m.attachAt position motor bench =
      (.ok (), { m with motors := m.motors ++ [motor] },
        bench.log (.motorAttached (m.motors.length + 1) m.nextPosition? motor.channel)) := by
  have inside := (List.getElem?_eq_some_iff.mp next).1
  rw [m.geometry.length_positions] at inside
  have room : ¬ m.expectedCount ≤ m.motors.length := Nat.not_le.mpr inside
  have bounded : ¬ maxMotors ≤ m.motors.length :=
    Nat.not_le.mpr (inside.trans_le m.geometry.motorCount_le)
  rw [attachAt_eq_attach initialized next]
  simp only [attach, initialized, in_use, if_neg room, if_neg bounded]

namespace Mission

variable {s : Settings} {timing : Timing}

/-- Motors for the free slots in their order are all attached. -/
theorem attachMotors_spec
    (narrowed : s.protocol.timing.withOffsets s.esc.minOffset s.esc.maxOffset = .ok timing)
    {slots : List (UInt32 × Position)} {m : Mixer} {bench : Bench}
    (initialized : m.lifecycle = .initialized) (ready : bench.timer.ready = true)
    (free : m.geometry.positions.drop m.motors.length = slots.map Prod.snd) :
    ∃ after, attachMotors s slots m bench =
        (.ok (), { m with motors := m.motors ++ slots.map fun slot => s.motor timing slot.1 },
          after) ∧
      after.timer = bench.timer ∧ bench.Quiet after := by
  induction slots generalizing m bench with
  | nil => exact ⟨bench, by simp [attachMotors], rfl, .of_eq rfl⟩
  | cons slot slots induction =>
    obtain ⟨channel, position⟩ := slot
    have next : m.nextPosition? = some position := by
      have first := congrArg (·[0]?) free
      simpa [Mixer.nextPosition?, List.getElem?_drop] using first
    have rest : m.geometry.positions.drop (m.motors ++ [s.motor timing channel]).length =
        slots.map Prod.snd := by
      simpa using congrArg List.tail free
    let motor := s.motor timing channel
    let configured := bench.log (.escConfigured channel s.protocol timing)
    let taken := configured.log (.motorAttached (m.motors.length + 1) m.nextPosition? channel)
    have taken_quiet : bench.Quiet taken :=
      (Bench.Quiet.log bench (by simp [Event.reporter])).trans
        (.log configured (by simp [Event.reporter]))
    have taken_ready : taken.timer.ready = true := ready
    obtain ⟨after, attached, timer, quiet⟩ :=
      induction (m := { m with motors := m.motors ++ [motor] }) initialized taken_ready rest
    refine ⟨after, ?_, timer, taken_quiet.trans quiet⟩
    have first : m.attachAt position motor configured = (.ok (), _, taken) :=
      Mixer.attachAt_of_next initialized next rfl configured
    simp only [attachMotors, Settings.configure_motor narrowed ready channel]
    rw [first]
    simpa using attached

/-- The mixer that settings lead to, with all its motors and before it is armed. -/
def equipped (s : Settings) (timing : Timing) : Mixer :=
  ⟨s.geometry, s.policy, s.activeChannels.map (s.motor timing), [], .initialized⟩

theorem equipped_complete (s : Settings) (timing : Timing) :
    (equipped s timing).checkComplete = .ok () := by
  have length : (equipped s timing).motors.length = (equipped s timing).expectedCount :=
    (List.length_map _).trans s.length_activeChannels
  rw [Mixer.checkComplete, if_pos length]
  rfl

theorem equipped_serviceable
    (narrowed : s.protocol.timing.withOffsets s.esc.minOffset s.esc.maxOffset = .ok timing) :
    (equipped s timing).Serviceable := by
  intro e mem
  obtain ⟨channel, _, rfl⟩ := List.mem_map.mp mem
  exact ⟨rfl, s.esc.minOffset, s.esc.maxOffset, narrowed⟩

/-- All motors are set up and attached. -/
theorem attachMotors_equipped
    (narrowed : s.protocol.timing.withOffsets s.esc.minOffset s.esc.maxOffset = .ok timing)
    {bench : Bench} (ready : bench.timer.ready = true) :
    ∃ after, attachMotors s (s.activeChannels.zip s.geometry.positions)
        ⟨s.geometry, s.policy, [], [], .initialized⟩ bench =
          (.ok (), equipped s timing, after) ∧
      after.timer = bench.timer ∧ bench.Quiet after := by
  have lengths := s.length_activeChannels_eq
  have channels : (s.activeChannels.zip s.geometry.positions).map Prod.fst = s.activeChannels :=
    List.map_fst_zip lengths.le
  have positions :
      (s.activeChannels.zip s.geometry.positions).map Prod.snd = s.geometry.positions :=
    List.map_snd_zip lengths.ge
  obtain ⟨after, attached, timer, quiet⟩ := attachMotors_spec narrowed
    (m := ⟨s.geometry, s.policy, [], [], .initialized⟩) rfl ready positions.symm
  have motors : ((s.activeChannels.zip s.geometry.positions).map
      fun slot => s.motor timing slot.1) = s.activeChannels.map (s.motor timing) :=
    List.map_map.symm.trans (congrArg (List.map (s.motor timing)) channels)
  exact ⟨after, by rw [attached, motors]; rfl, timer, quiet⟩

/-- Nothing goes wrong when the motors are brought up with settings that fit the timer. -/
theorem bringUp_smooth {bench : Bench} (fits : s.Fits timing bench.timer) (clock : Nat → Nat) :
    ∃ m after, bringUp s clock bench = (.ok m, after) ∧ m.Cleared after.timer ∧
      m.motors.map Esc.channel = s.activeChannels ∧ bench.Smooth after := by
  let configured := bench.log (.mixerConfigured s.geometry s.policy)
  have ready : configured.timer.ready = true := fits.ready
  have set_up : Mixer.configure s.geometry s.policy bench = (.ok _, configured) :=
    Settings.configure_mixer fits.valid bench
  obtain ⟨attached, attach, timer, attach_quiet⟩ := attachMotors_equipped fits.narrowed ready
  have serviceable := equipped_serviceable fits.narrowed
  have accepted : ∀ e ∈ (equipped s timing).motors,
      attached.timer.refusal? e.armingWrite = none := by
    intro e mem
    obtain ⟨channel, channel_mem, rfl⟩ := List.mem_map.mp mem
    rw [timer]
    exact fits.arms channel channel_mem
  obtain ⟨m, after, armed, arm_smooth⟩ :=
    Mixer.armAll_of_accepted (equipped_complete s timing) serviceable accepted clock
  refine ⟨m, after, ?_, Mixer.armAll_cleared serviceable armed, ?_, ?_⟩
  · simp only [bringUp, set_up, attach, armed]
  · have same := Esc.map_channel_eq ((equipped s timing).map_disarmed_armAll attached clock)
    rw [armed] at same
    exact same.trans (List.map_map.trans (List.map_id _))
  · have announced : bench.Quiet configured := .log bench (by simp [Event.reporter])
    exact ⟨timer ▸ arm_smooth.timer, (announced.trans attach_quiet).trans arm_smooth.journal⟩

end Mission

end Multirotor
