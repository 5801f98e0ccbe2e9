import Multirotor.Proofs.Mixer.Release

/-!
# The representation of a mixer

How many motors a mixer has, whether they are in use, how many outputs it shows and whether it is in
use itself depend on each other.  Every operation keeps these facts, whatever motors, commands and
refusals it meets, so they hold after any sequence of operations.
-/

namespace Multirotor.Mixer

/-- The fields of the mixer fit together. -/
structure WellFormed (m : Mixer) : Prop where
  /-- There are no more motors than slots. -/
  count_le : m.motors.length ≤ m.expectedCount
  /-- Every attached motor is in use. -/
  in_use : ∀ e ∈ m.motors, e.lifecycle = .initialized
  /-- Only a mixer with all its motors shows outputs: one for each, in the unit interval. -/
  outputs : m.outputs = [] ∨
    m.outputs.length = m.expectedCount ∧ m.motors.length = m.expectedCount ∧
      ∀ v ∈ m.outputs, 0 ≤ v ∧ v ≤ 1
  /-- A mixer that was given up has neither motors nor outputs. -/
  given_up : m.lifecycle = .uninitialized → m.motors = [] ∧ m.outputs = []

variable {m : Mixer} {bench : Bench}

theorem wellFormed_of_configure {geometry : Geometry} {policy : Normalization}
    {before after : Bench} (configured : configure geometry policy before = (.ok m, after)) :
    m.geometry = geometry ∧ m.motors = [] ∧ m.WellFormed := by
  rw [configure] at configured
  split at configured <;> cases configured
  refine ⟨rfl, rfl, Nat.zero_le _, by simp, .inl rfl, ?_⟩
  rintro ⟨⟩

/-- The outputs of a cycle are new speeds and old outputs. -/
theorem driveFrom_outputs (motors : List Esc) (speeds outputs : List Binary32) (index : Nat)
    (bench : Bench) :
    (driveFrom index motors speeds outputs bench).2.1.length = outputs.length ∧
      ∀ v ∈ (driveFrom index motors speeds outputs bench).2.1, v ∈ speeds ∨ v ∈ outputs := by
  induction motors generalizing speeds outputs index bench with
  | nil => exact ⟨rfl, fun v mem => .inr mem⟩
  | cons motor motors induction =>
    rcases speeds with _ | ⟨speed, speeds⟩
    · simp [driveFrom]
    rcases outputs with _ | ⟨output, outputs⟩
    · simp [driveFrom]
    rw [driveFrom]
    rcases motor.drive speed bench with ⟨source | _, after⟩
    · exact ⟨rfl, fun v mem => .inr mem⟩
    · obtain ⟨length, from_either⟩ := induction speeds outputs (index + 1) after
      refine ⟨congrArg (· + 1) length, List.forall_mem_cons.mpr ⟨by simp, fun v mem => ?_⟩⟩
      exact (from_either v mem).imp (List.mem_cons_of_mem _) (List.mem_cons_of_mem _)

theorem preparedOutputs_mem {count : Nat} {outputs : List Binary32}
    (prepared : m.preparedOutputs? count = some outputs) :
    outputs.length = count ∧ ∀ v ∈ outputs, v ∈ m.outputs ∨ v = 0 := by
  rw [preparedOutputs?] at prepared
  split at prepared
  · cases prepared
    exact ⟨‹_›, fun v mem => .inl mem⟩
  split at prepared
  · cases prepared
    exact ⟨List.length_replicate, fun v mem => .inr (List.eq_of_mem_replicate mem)⟩
  · cases prepared

namespace WellFormed

/-- There are few outputs, and each is a fraction. -/
theorem outputs_fit (wellFormed : m.WellFormed) :
    m.outputs.length ≤ 6 ∧ ∀ v ∈ m.outputs, 0 ≤ v ∧ v ≤ 1 := by
  rcases wellFormed.outputs with empty | ⟨length, -, unit⟩
  · rw [empty]
    exact ⟨Nat.zero_le _, fun v mem => absurd mem List.not_mem_nil⟩
  · exact ⟨length.trans_le m.geometry.motorCount_le, unit⟩

/-- Motors that differ in arming only can take each other's place. -/
theorem withMotors (wellFormed : m.WellFormed) {motors : List Esc}
    (same : motors.map Esc.disarmed = m.motors.map Esc.disarmed) :
    { m with motors := motors }.WellFormed := by
  have length : motors.length = m.motors.length := by simpa using congrArg List.length same
  constructor
  · exact length.trans_le wellFormed.count_le
  · intro e mem
    have mem' : e.disarmed ∈ m.motors.map Esc.disarmed := same ▸ List.mem_map_of_mem mem
    obtain ⟨e', mem', agree⟩ := List.mem_map.mp mem'
    exact (congrArg Esc.lifecycle agree).symm.trans (wellFormed.in_use e' mem')
  · exact wellFormed.outputs.imp_right fun shown => ⟨shown.1, length.trans shown.2.1, shown.2.2⟩
  · intro uninitialized
    obtain ⟨no_motors, no_outputs⟩ := wellFormed.given_up uninitialized
    rw [no_motors] at length
    exact ⟨List.length_eq_zero_iff.mp length, no_outputs⟩

/-- Outputs can be cleared at any time. -/
theorem cleared (wellFormed : m.WellFormed) : { m with outputs := [] }.WellFormed :=
  ⟨wellFormed.count_le, wellFormed.in_use, .inl rfl, fun uninitialized =>
    ⟨(wellFormed.given_up uninitialized).1, rfl⟩⟩

theorem attach (wellFormed : m.WellFormed) (motor : Esc) :
    (m.attach motor bench).2.1.WellFormed := by
  rcases m.attach_cases motor bench with
    ⟨initialized, motor_initialized, room, _, taken⟩ | ⟨_, refused⟩
  · -- there is a free slot, so no outputs are shown
    have no_outputs : m.outputs = [] :=
      wellFormed.outputs.resolve_right fun shown => room.ne shown.2.1
    rw [taken]
    refine ⟨List.length_append.trans_le room, ?_, .inl no_outputs, ?_⟩
    · simpa [or_imp, forall_and] using ⟨wellFormed.in_use, motor_initialized⟩
    · intro uninitialized
      simp [initialized] at uninitialized
  · rw [refused]
    exact wellFormed

theorem attachAt (wellFormed : m.WellFormed) (position : Position) (motor : Esc) :
    (m.attachAt position motor bench).2.1.WellFormed := by
  rcases m.attachAt_cases position motor bench with ⟨_, same⟩ | ⟨_, refused⟩
  · rw [same]
    exact wellFormed.attach motor
  · rw [refused]
    exact wellFormed

theorem execute (wellFormed : m.WellFormed) (c : Command) :
    (m.execute c bench).2.1.WellFormed := by
  rw [Mixer.execute]
  split
  · exact wellFormed
  rename_i complete
  split
  · rename_i inBounds
    dsimp only
    split
    · exact wellFormed.cleared
    · rename_i outputs prepared
      obtain ⟨initialized, full⟩ := checkComplete_eq_ok complete
      obtain ⟨length, from_before⟩ := preparedOutputs_mem prepared
      obtain ⟨length', from_either⟩ := driveFrom_outputs m.motors
        (allocate m.geometry.table m.policy c) outputs 0 bench
      refine ⟨full.le, wellFormed.in_use, .inr ⟨?_, full, fun v mem => ?_⟩, ?_⟩
      · exact length'.trans (length.trans (m.geometry.length_allocate _ _))
      · rcases from_either v mem with speed | output
        · exact allocate_mem m.geometry.inUnits_of_mem_table inBounds m.policy v speed
        · rcases from_before v output with old | rfl
          · have shown := wellFormed.outputs.resolve_left (List.ne_nil_of_mem old)
            exact shown.2.2 v old
          · decide
      · intro uninitialized
        simp [initialized] at uninitialized
  · exact wellFormed

theorem stopAll (wellFormed : m.WellFormed) : (m.stopAll bench).2.1.WellFormed := by
  rcases lifecycle : m.lifecycle
  · have same := m.map_disarmed_stopAll bench
    rw [stopAll_eq lifecycle] at same ⊢
    exact (wellFormed.withMotors same).cleared
  · rw [Mixer.stopAll, lifecycle]
    exact wellFormed

theorem armAll (wellFormed : m.WellFormed) (clock : Nat → Nat) :
    (m.armAll clock bench).2.1.WellFormed := by
  have begun := map_beginArmFrom
    (fun e nowUs bench => Esc.disarmed_of_eq (e.beginArm_eq nowUs bench)) clock m.motors 0 bench
  rw [Mixer.armAll]
  split
  · exact wellFormed
  split <;> rename_i outcome <;> rw [outcome] at begun
  · rename_i motors after
    have stopped : ({ m with motors := motors }.stopAll after).2.1.WellFormed :=
      (wellFormed.withMotors begun).stopAll
    split <;> rename_i stop <;> rw [stop] at stopped <;> exact stopped
  · exact wellFormed.withMotors ((map_disarmed_finishArm _).trans begun)

theorem release (wellFormed : m.WellFormed) : (m.release bench).2.1.WellFormed := by
  rcases lifecycle : m.lifecycle
  · rw [(release_spec lifecycle wellFormed.in_use bench).2.2]
    constructor
    · exact (List.length_filter_le _ _).trans wellFormed.count_le
    · exact fun e mem => wellFormed.in_use e (List.mem_of_mem_filter mem)
    · exact .inl rfl
    · intro uninitialized
      dsimp only at uninitialized
      split at uninitialized
      · exact ⟨‹_›, rfl⟩
      · cases uninitialized
  · rw [Mixer.release, lifecycle]
    exact wellFormed

theorem perform (wellFormed : m.WellFormed) (operation : Operation) :
    (m.perform bench operation).2.1.WellFormed := by
  cases operation with
  | attach motor => exact wellFormed.attach motor
  | attachAt position motor => exact wellFormed.attachAt position motor
  | execute c => exact wellFormed.execute c
  | armAll clock => exact wellFormed.armAll clock
  | stopAll => exact wellFormed.stopAll
  | release => exact wellFormed.release

theorem nextPosition?_eq_none_iff (wellFormed : m.WellFormed) :
    m.nextPosition? = none ↔ m.motors.length = m.expectedCount := by
  rw [nextPosition?, List.getElem?_eq_none_iff, m.geometry.length_positions]
  exact ⟨fun full => le_antisymm wellFormed.count_le full, fun full => full.ge⟩

/-- A motor in use is attached whenever there is a next slot. -/
theorem attach_eq_ok (wellFormed : m.WellFormed) (initialized : m.lifecycle = .initialized)
    {motor : Esc} (motor_initialized : motor.lifecycle = .initialized)
    (free : m.nextPosition? ≠ none) (bench : Bench) : (m.attach motor bench).1 = .ok () := by
  have room : m.motors.length < m.expectedCount :=
    lt_of_le_of_ne wellFormed.count_le (mt wellFormed.nextPosition?_eq_none_iff.mpr free)
  have bounded : m.motors.length < maxMotors := room.trans_le m.geometry.motorCount_le
  simp only [Mixer.attach, initialized, motor_initialized, if_neg (Nat.not_le.mpr room),
    if_neg (Nat.not_le.mpr bounded)]

end WellFormed

theorem Reachable.wellFormed (reachable : m.Reachable) : m.WellFormed := by
  induction reachable with
  | configure configured => exact (wellFormed_of_configure configured).2.2
  | perform operation bench _ _ induction => exact induction.perform operation

/-! ## Refusals -/

variable {motor back : Esc} {position : Position} {e : MixerError} {m' : Mixer} {bench' : Bench}

theorem attach_eq_error (failed : m.attach motor bench = (.error (e, back), m', bench')) :
    back = motor ∧ m' = m ∧ bench' = bench := by
  rcases m.attach_cases motor bench with ⟨_, _, _, _, taken⟩ | ⟨_, refused⟩
  · rw [taken] at failed
    cases failed
  · rw [refused] at failed
    cases failed
    exact ⟨rfl, rfl, rfl⟩

theorem attachAt_eq_error
    (failed : m.attachAt position motor bench = (.error (e, back), m', bench')) :
    back = motor ∧ m' = m ∧ bench' = bench := by
  rcases m.attachAt_cases position motor bench with ⟨_, same⟩ | ⟨_, refused⟩
  · rw [same] at failed
    exact attach_eq_error failed
  · rw [refused] at failed
    cases failed
    exact ⟨rfl, rfl, rfl⟩

/-- At the next position the checked attachment is the plain one. -/
theorem attachAt_eq_attach (initialized : m.lifecycle = .initialized)
    (next : m.nextPosition? = some position) (motor : Esc) (bench : Bench) :
    m.attachAt position motor bench = m.attach motor bench := by
  simp only [attachAt, initialized, next, if_true]

theorem perform_of_uninitialized (uninitialized : m.lifecycle = .uninitialized)
    (operation : Operation) (bench : Bench) :
    m.perform bench operation = (.error .notInitialized, m, bench) := by
  cases operation <;>
    simp [perform, attach, attachAt, execute, armAll, stopAll, release, checkComplete,
      uninitialized, Except.mapError]

/-! ## Sequences of operations -/

/-- The mixer after operations, each on the bench that it finds. -/
def performAll (m : Mixer) (run : List (Operation × Bench)) : Mixer :=
  run.foldl (fun m step => (m.perform step.2 step.1).2.1) m

theorem performAll_geometry (m : Mixer) (run : List (Operation × Bench)) :
    (m.performAll run).geometry = m.geometry := by
  induction run generalizing m with
  | nil => rfl
  | cons step run induction => exact (induction _).trans (m.perform_geometry step.2 step.1)

theorem WellFormed.performAll (wellFormed : m.WellFormed) (run : List (Operation × Bench)) :
    (m.performAll run).WellFormed := by
  induction run generalizing m with
  | nil => exact wellFormed
  | cons step run induction => exact induction (wellFormed.perform step.1)

theorem performAll_of_uninitialized (uninitialized : m.lifecycle = .uninitialized)
    (run : List (Operation × Bench)) : m.performAll run = m := by
  induction run with
  | nil => rfl
  | cons step run induction =>
    rw [performAll, List.foldl_cons, perform_of_uninitialized uninitialized]
    exact induction

/-- What attaching a motor comes to. -/
structure AttachesInOrder (m : Mixer) : Prop where
  /-- A checked attachment at the next position is a plain one. -/
  checked : m.lifecycle = .initialized → ∀ position, m.nextPosition? = some position →
    ∀ motor bench, m.attachAt position motor bench = m.attach motor bench
  /-- A motor in use is taken whenever there is a next position. -/
  taken : m.lifecycle = .initialized → m.nextPosition? ≠ none →
    ∀ motor bench, motor.lifecycle = .initialized → (m.attach motor bench).1 = .ok ()
  /-- A refused motor is handed back, and nothing else happens. -/
  returned : ∀ motor bench e back m' bench',
    (m.attach motor bench = (.error (e, back), m', bench') ∨
      ∃ position, m.attachAt position motor bench = (.error (e, back), m', bench')) →
    back = motor ∧ m' = m ∧ bench' = bench

theorem WellFormed.attachesInOrder (wellFormed : m.WellFormed) : m.AttachesInOrder where
  checked initialized _ next := attachAt_eq_attach initialized next
  taken initialized free _ bench motor_initialized :=
    wellFormed.attach_eq_ok initialized motor_initialized free bench
  returned _ _ _ _ _ _ refused := by
    rcases refused with refused | ⟨position, refused⟩
    · exact attach_eq_error refused
    · exact attachAt_eq_error refused

/-- Nothing can be done with the mixer any more. -/
structure Retired (m : Mixer) : Prop where
  motors : m.motors = []
  outputs : m.outputs = []
  /-- Every operation is refused and does nothing. -/
  refuses : ∀ operation bench, m.perform bench operation = (.error .notInitialized, m, bench)
  stays : ∀ run, m.performAll run = m

theorem WellFormed.retired (wellFormed : m.WellFormed)
    (uninitialized : m.lifecycle = .uninitialized) : m.Retired where
  motors := (wellFormed.given_up uninitialized).1
  outputs := (wellFormed.given_up uninitialized).2
  refuses := perform_of_uninitialized uninitialized
  stays := performAll_of_uninitialized uninitialized

/-- Whatever a mixer went through, its fields fit together, it attaches motors in slot order, has
room for the outputs of every command, and does nothing more once it was given up. -/
theorem performAll_sound {geometry : Geometry} {policy : Normalization}
    {before after : Bench} {m : Mixer}
    (configured : configure geometry policy before = (.ok m, after))
    (run : List (Operation × Bench)) :
    let m' := m.performAll run
    m'.WellFormed ∧ (m'.expectedCount = geometry.motorCount ∧ m'.expectedCount ≤ 6) ∧
      (m'.nextPosition? = geometry.positions[m'.motors.length]? ∧
        (m'.nextPosition? = none ↔ m'.motors.length = m'.expectedCount)) ∧
      m'.AttachesInOrder ∧
      (∀ c : Command, m'.preparedOutputs? (allocate m'.geometry.table m'.policy c).length ≠ none) ∧
      (m'.lifecycle = .uninitialized → m'.Retired) := by
  intro m'
  obtain ⟨same_geometry, _, start⟩ := wellFormed_of_configure configured
  have wellFormed : m'.WellFormed := start.performAll run
  have geometry_eq : m'.geometry = geometry := (m.performAll_geometry run).trans same_geometry
  refine ⟨wellFormed, ⟨?_, m'.geometry.motorCount_le⟩, ⟨?_, wellFormed.nextPosition?_eq_none_iff⟩,
    wellFormed.attachesInOrder, fun c => ?_, wellFormed.retired⟩
  · rw [expectedCount, geometry_eq]
  · rw [nextPosition?, geometry_eq]
  · obtain ⟨outputs, prepared, _⟩ := m'.exists_preparedOutputs c
    simp [prepared]

/-- A quadcopter with motors on the channels 1 to 4, after one command. -/
theorem performAll_sound_quad :
    let m : Mixer := ⟨.quadX, .clampAndShift, [], [], .initialized⟩
    let bench : Bench := { timer := .bench 4 }
    let operations : List Operation :=
      [1, 2, 3, 4].map (fun channel => .attach (.fresh channel .oneShot125)) ++ [.execute .idle]
    let m' := m.performAll (operations.map fun operation => (operation, bench))
    m'.outputs.length = 4 ∧ m'.nextPosition? = none ∧ m'.WellFormed := by
  intro m bench operations m'
  have configured : configure .quadX .clampAndShift bench =
      (.ok m, bench.log (.mixerConfigured .quadX .clampAndShift)) := rfl
  have sound := performAll_sound configured (operations.map fun operation => (operation, bench))
  have complete : m'.outputs.length = 4 ∧ m'.motors.length = m'.expectedCount := by decide
  exact ⟨complete.1, sound.2.2.1.2.mpr complete.2, sound.1⟩

end Multirotor.Mixer
