import Multirotor.Mixer

/-!
# Reachable ESCs and mixers

An ESC is reachable if it was set up once and then operated in any way, a mixer if it was set up,
given reachable ESCs and operated in any way.  Each operation may find the bench in any state, so
whatever else happens to the device between two operations is covered.  Every ESC attached to a
reachable mixer is in use and has the timing of its protocol with accepted offsets.
-/

namespace Multirotor

/-! ## ESCs -/

namespace Esc

inductive Operation where
  | drive (speed : Binary32)
  | stop
  | beginArm (nowUs : Nat)
  | pollArm (nowUs : Nat)
  | arm (nowUs : Nat)
  | release

/-- The ESC and the bench after an operation. -/
def perform (e : Esc) (bench : Bench) : Operation → Esc × Bench
  | .drive speed => (e, (e.drive speed bench).2)
  | .stop => (e.stop bench).2
  | .beginArm nowUs => (e.beginArm nowUs bench).2
  | .pollArm nowUs => ((e.pollArm nowUs).2, bench)
  | .arm nowUs => (e.arm nowUs bench).2
  | .release => (e.release bench).2

/-- The ESCs that a program can have. -/
inductive Reachable : Esc → Prop
  | configure {channel : UInt32} {protocol : Protocol} {settings : EscSettings} {e : Esc}
      {before after : Bench} :
      configure channel protocol settings before = (.ok e, after) → Reachable e
  | perform {e : Esc} (operation : Operation) (bench : Bench) :
      Reachable e → Reachable (e.perform bench operation).1

/-- The timing is that of the protocol, narrowed by offsets that were accepted. -/
def Tuned (e : Esc) : Prop :=
  ∃ min max, e.protocol.timing.withOffsets min max = .ok e.timing

/-- The ESC is in use and properly tuned. -/
structure Serviceable (e : Esc) : Prop where
  /-- The ESC was not released. -/
  initialized : e.lifecycle = .initialized
  /-- The timing belongs to the protocol. -/
  tuned : e.Tuned

theorem Serviceable.withArming {e : Esc} (serviceable : e.Serviceable) (arming : Arming) :
    Serviceable { e with arming := arming } :=
  ⟨serviceable.initialized, serviceable.tuned⟩

/-- An operation that at most moves an ESC along in arming keeps it serviceable. -/
theorem Serviceable.of_eq {e e' : Esc} (serviceable : e.Serviceable)
    (same : ∃ arming, e' = { e with arming := arming }) : e'.Serviceable := by
  obtain ⟨arming, rfl⟩ := same
  exact serviceable.withArming arming

theorem stop_eq (e : Esc) (bench : Bench) :
    ∃ arming, (e.stop bench).2.1 = { e with arming := arming } := by
  rw [stop]
  split
  · exact ⟨e.arming, rfl⟩
  · split
    · exact ⟨.disarmed, rfl⟩
    · exact ⟨e.arming, rfl⟩

theorem beginArm_eq (e : Esc) (nowUs : Nat) (bench : Bench) :
    ∃ arming, (e.beginArm nowUs bench).2.1 = { e with arming := arming } := by
  rw [beginArm]
  split
  · exact ⟨e.arming, rfl⟩
  · split
    · exact ⟨.arming nowUs, rfl⟩
    · rename_i reason refused _
      obtain ⟨arming, stopped⟩ := e.stop_eq (refused.log (.escArmingRefused e.channel reason))
      refine ⟨arming, ?_⟩
      split <;> simp_all

theorem pollArm_eq (e : Esc) (nowUs : Nat) :
    ∃ arming, (e.pollArm nowUs).2 = { e with arming := arming } := by
  rw [pollArm]
  split
  · exact ⟨e.arming, rfl⟩
  · split
    · exact ⟨e.arming, rfl⟩
    · exact ⟨e.arming, rfl⟩
    · split
      · exact ⟨.armed, rfl⟩
      · exact ⟨e.arming, rfl⟩

theorem finishArm_eq (e : Esc) : ∃ arming, e.finishArm = { e with arming := arming } := by
  rw [finishArm]
  split
  · exact e.pollArm_eq _
  · exact ⟨e.arming, rfl⟩

theorem arm_eq (e : Esc) (nowUs : Nat) (bench : Bench) :
    ∃ arming, (e.arm nowUs bench).2.1 = { e with arming := arming } := by
  obtain ⟨arming, begun⟩ := e.beginArm_eq nowUs bench
  rw [arm]
  split
  · exact ⟨arming, by simp_all⟩
  · exact ⟨.armed, by simp_all⟩

theorem release_eq (e : Esc) (bench : Bench) :
    ∃ lifecycle arming,
      (e.release bench).2.1 = { e with lifecycle := lifecycle, arming := arming } := by
  obtain ⟨arming, stopped⟩ := e.stop_eq bench
  rw [release]
  split
  · exact ⟨e.lifecycle, arming, by simp_all⟩
  · exact ⟨.uninitialized, arming, by simp_all⟩

/-- An operation changes nothing of an ESC but its lifecycle and how far it has come in arming. -/
theorem perform_eq (e : Esc) (bench : Bench) (operation : Operation) :
    ∃ lifecycle arming,
      (e.perform bench operation).1 = { e with lifecycle := lifecycle, arming := arming } := by
  cases operation with
  | drive speed => exact ⟨e.lifecycle, e.arming, rfl⟩
  | stop => exact ⟨e.lifecycle, e.stop_eq bench⟩
  | beginArm nowUs => exact ⟨e.lifecycle, e.beginArm_eq nowUs bench⟩
  | pollArm nowUs => exact ⟨e.lifecycle, e.pollArm_eq nowUs⟩
  | arm nowUs => exact ⟨e.lifecycle, e.arm_eq nowUs bench⟩
  | release => exact e.release_eq bench

theorem Tuned.perform {e : Esc} (tuned : e.Tuned) (operation : Operation) (bench : Bench) :
    (e.perform bench operation).1.Tuned := by
  obtain ⟨lifecycle, arming, same⟩ := e.perform_eq bench operation
  rw [same]
  exact tuned

theorem tuned_of_configure {channel : UInt32} {protocol : Protocol} {settings : EscSettings}
    {e : Esc} {before after : Bench}
    (configured : configure channel protocol settings before = (.ok e, after)) : e.Tuned := by
  rw [configure] at configured
  split at configured
  · cases configured
  · split at configured
    · cases configured
    · rename_i timing narrowed
      cases configured
      exact ⟨settings.minOffset, settings.maxOffset, narrowed⟩

/-- Without offsets the pulse range is the full one. -/
theorem withOffsets_zero (p : Protocol) : p.timing.withOffsets 0 0 = .ok p.timing := by
  have ends :
      p.timing.minPulse + (p.timing.maxPulse - p.timing.minPulse) * (.ofNat 0 / 100) =
          p.timing.minPulse ∧
        p.timing.maxPulse - (p.timing.maxPulse - p.timing.minPulse) * (.ofNat 0 / 100) =
          p.timing.maxPulse := by
    cases p <;> decide
  rw [Timing.withOffsets, if_neg (by decide)]
  change Except.ok (Timing.mk p.timing.periodUs (_ + _ * (.ofNat 0 / 100))
    (_ - _ * (.ofNat 0 / 100))) = _
  rw [ends.1, ends.2]

/-- An ESC of the given protocol, just set up without offsets. -/
def fresh (channel : UInt32) (p : Protocol) : Esc :=
  ⟨channel, p, p.timing, 3000, .initialized, .disarmed⟩

theorem configure_fresh (channel : UInt32) (p : Protocol) (bench : Bench)
    (ready : bench.timer.ready = true) :
    configure channel p {} bench =
      (.ok (fresh channel p), bench.log (.escConfigured channel p p.timing)) := by
  simp only [configure, ready, withOffsets_zero]
  rfl

theorem fresh_reachable (channel : UInt32) (p : Protocol) : (fresh channel p).Reachable :=
  .configure (configure_fresh channel p { timer := .bench 0 } rfl)

theorem Reachable.tuned {e : Esc} (reachable : e.Reachable) : e.Tuned := by
  induction reachable with
  | configure configured => exact tuned_of_configure configured
  | perform operation bench _ induction => exact induction.perform operation bench

end Esc

/-! ## Mixers -/

namespace Mixer

inductive Operation where
  | attach (motor : Esc)
  | attachAt (position : Position) (motor : Esc)
  | execute (command : Command)
  | armAll (clock : Nat → Nat)
  | stopAll
  | release

/-- The ESCs that an operation brings along are reachable. -/
def Operation.Admissible : Operation → Prop
  | .attach motor | .attachAt _ motor => motor.Reachable
  | _ => True

/-- The outcome of an operation, with the mixer and the bench after it. -/
def perform (m : Mixer) (bench : Bench) : Operation → Except MixerError Unit × Mixer × Bench
  | .attach motor => (m.attach motor bench).map (.mapError Prod.fst) id
  | .attachAt position motor => (m.attachAt position motor bench).map (.mapError Prod.fst) id
  | .execute command => m.execute command bench
  | .armAll clock => m.armAll clock bench
  | .stopAll => m.stopAll bench
  | .release => m.release bench

/-- The mixers that a program can have. -/
inductive Reachable : Mixer → Prop
  | configure {geometry : Geometry} {policy : Normalization} {m : Mixer} {before after : Bench} :
      configure geometry policy before = (.ok m, after) → Reachable m
  | perform {m : Mixer} (operation : Operation) (bench : Bench) :
      Reachable m → operation.Admissible → Reachable (m.perform bench operation).2.1

/-- A motor is either taken into the next slot or handed back with nothing changed. -/
theorem attach_cases (m : Mixer) (motor : Esc) (bench : Bench) :
    (m.lifecycle = .initialized ∧ motor.lifecycle = .initialized ∧
        m.motors.length < m.expectedCount ∧
        ∃ event, m.attach motor bench =
          (.ok (), { m with motors := m.motors ++ [motor] }, bench.log event)) ∨
      ∃ e, m.attach motor bench = (.error (e, motor), m, bench) := by
  rw [attach]
  split
  · exact .inr ⟨_, rfl⟩
  · exact .inr ⟨_, rfl⟩
  · split
    · exact .inr ⟨_, rfl⟩
    split
    · exact .inr ⟨_, rfl⟩
    · rename_i initialized motor_initialized room _
      exact .inl ⟨initialized, motor_initialized, Nat.lt_of_not_ge room, _, rfl⟩

/-- A checked attachment is a plain one at the next position and refused at every other. -/
theorem attachAt_cases (m : Mixer) (position : Position) (motor : Esc) (bench : Bench) :
    (m.nextPosition? = some position ∧
        m.attachAt position motor bench = m.attach motor bench) ∨
      ∃ e, m.attachAt position motor bench = (.error (e, motor), m, bench) := by
  rw [attachAt]
  split
  · exact .inr ⟨_, rfl⟩
  · exact .inr ⟨_, rfl⟩
  · rename_i expected _ next
    split
    · rename_i same
      exact .inl ⟨same ▸ next, rfl⟩
    · exact .inr ⟨_, rfl⟩

/-- Every attached motor is in use and properly tuned. -/
def Serviceable (m : Mixer) : Prop := ∀ e ∈ m.motors, e.Serviceable

/-- What an operation keeps of every ESC holds of all motors after the operation was applied to
each. -/
theorem forEachFrom_forall {P : Esc → Prop}
    {operation : Esc → Bench → Except EscError Unit × Esc × Bench}
    (keeps : ∀ e bench, P e → P (operation e bench).2.1) (report : Nat → EscError → Event)
    {motors : List Esc} (all : ∀ e ∈ motors, P e) (index : Nat) (bench : Bench) :
    ∀ e ∈ (forEachFrom index operation report motors bench).2.1, P e := by
  induction motors generalizing index bench with
  | nil => exact all
  | cons motor motors induction =>
    have first := keeps motor bench (all motor List.mem_cons_self)
    have rest := induction fun e mem => all e (List.mem_cons_of_mem _ mem)
    rw [forEachFrom]
    rcases outcome : operation motor bench with ⟨source | _, motor', bench'⟩ <;>
      rw [outcome] at first
    · exact List.forall_mem_cons.mpr ⟨first, rest _ _⟩
    · exact List.forall_mem_cons.mpr ⟨first, rest _ _⟩

theorem beginArmFrom_forall {P : Esc → Prop}
    (keeps : ∀ e nowUs bench, P e → P (Esc.beginArm e nowUs bench).2.1) (clock : Nat → Nat)
    {motors : List Esc} (all : ∀ e ∈ motors, P e) (index : Nat) (bench : Bench) :
    ∀ e ∈ (beginArmFrom index clock motors bench).2.1, P e := by
  induction motors generalizing index bench with
  | nil => exact all
  | cons motor motors induction =>
    have first := keeps motor (clock index) bench (all motor List.mem_cons_self)
    have later : ∀ e ∈ motors, P e := fun e mem => all e (List.mem_cons_of_mem _ mem)
    rw [beginArmFrom]
    rcases outcome : motor.beginArm (clock index) bench with ⟨source | _, motor', bench'⟩ <;>
      rw [outcome] at first
    · exact List.forall_mem_cons.mpr ⟨first, later⟩
    · exact List.forall_mem_cons.mpr ⟨first, induction later _ _⟩

/-- Executing a command changes nothing of a mixer but its outputs. -/
theorem execute_eq (m : Mixer) (command : Command) (bench : Bench) :
    ∃ outputs, (m.execute command bench).2.1 = { m with outputs := outputs } := by
  rw [execute]
  split
  · exact ⟨m.outputs, rfl⟩
  · split
    · dsimp only
      split <;> exact ⟨_, rfl⟩
    · exact ⟨m.outputs, rfl⟩

namespace Serviceable

variable {m : Mixer}

theorem attach (serviceable : m.Serviceable) {motor : Esc} (reachable : motor.Reachable)
    (bench : Bench) : (m.attach motor bench).2.1.Serviceable := by
  rcases m.attach_cases motor bench with ⟨_, initialized, _, _, taken⟩ | ⟨_, refused⟩
  · rw [taken]
    intro e mem
    rcases List.mem_append.mp mem with old | new
    · exact serviceable e old
    · rw [List.mem_singleton.mp new]
      exact ⟨initialized, reachable.tuned⟩
  · rw [refused]
    exact serviceable

theorem attachAt (serviceable : m.Serviceable) (position : Position) {motor : Esc}
    (reachable : motor.Reachable) (bench : Bench) :
    (m.attachAt position motor bench).2.1.Serviceable := by
  rcases m.attachAt_cases position motor bench with ⟨_, same⟩ | ⟨_, refused⟩
  · rw [same]
    exact serviceable.attach reachable bench
  · rw [refused]
    exact serviceable

theorem execute (serviceable : m.Serviceable) (command : Command) (bench : Bench) :
    (m.execute command bench).2.1.Serviceable := by
  obtain ⟨outputs, same⟩ := m.execute_eq command bench
  rw [same]
  exact serviceable

theorem stopAll (serviceable : m.Serviceable) (bench : Bench) :
    (m.stopAll bench).2.1.Serviceable := by
  have stopped := forEachFrom_forall (P := Esc.Serviceable)
    (fun e bench serviceable => serviceable.of_eq (e.stop_eq bench)) .motorStopFailed
    serviceable 0 bench
  rw [Mixer.stopAll]
  split
  · exact serviceable
  · split <;> rename_i outcome <;> rw [outcome] at stopped <;> exact stopped

theorem armAll (serviceable : m.Serviceable) (clock : Nat → Nat) (bench : Bench) :
    (m.armAll clock bench).2.1.Serviceable := by
  have begun := beginArmFrom_forall (P := Esc.Serviceable)
    (fun e nowUs bench serviceable => serviceable.of_eq (e.beginArm_eq nowUs bench))
    clock serviceable 0 bench
  rw [Mixer.armAll]
  split
  · exact serviceable
  · split <;> rename_i outcome <;> rw [outcome] at begun
    · -- a motor refused, so every motor is stopped
      rename_i motors bench'
      have stopped : ({ m with motors := motors } : Mixer).Serviceable := begun
      have stopped := stopped.stopAll bench'
      split <;> rename_i stop <;> rw [stop] at stopped <;> exact stopped
    · intro e mem
      obtain ⟨motor, motor_mem, rfl⟩ := List.mem_map.mp mem
      exact (begun motor motor_mem).of_eq motor.finishArm_eq

theorem release (serviceable : m.Serviceable) (bench : Bench) :
    (m.release bench).2.1.Serviceable := by
  have released := forEachFrom_forall (P := Esc.Tuned)
    (fun e bench tuned => tuned.perform .release bench) .motorReleaseFailed
    (fun e mem => (serviceable e mem).tuned) 0 bench
  rw [Mixer.release]
  split
  · exact serviceable
  · intro e mem
    obtain ⟨kept, initialized⟩ := List.mem_filter.mp mem
    exact ⟨by simpa using initialized, released e kept⟩

theorem perform (serviceable : m.Serviceable) {operation : Operation}
    (admissible : operation.Admissible) (bench : Bench) :
    (m.perform bench operation).2.1.Serviceable := by
  cases operation with
  | attach motor => exact serviceable.attach admissible bench
  | attachAt position motor => exact serviceable.attachAt position admissible bench
  | execute command => exact serviceable.execute command bench
  | armAll clock => exact serviceable.armAll clock bench
  | stopAll => exact serviceable.stopAll bench
  | release => exact serviceable.release bench

end Serviceable

theorem Reachable.serviceable {m : Mixer} (reachable : m.Reachable) : m.Serviceable := by
  induction reachable with
  | configure configured =>
    rw [Mixer.configure] at configured
    split at configured <;> cases configured
    exact fun e mem => absurd mem List.not_mem_nil
  | perform operation bench _ admissible induction => exact induction.perform admissible bench

/-- A quadcopter with an ESC on each of the channels 1 to 4. -/
def quad : Mixer where
  geometry := .quadX
  policy := .clampAndShift
  motors := [1, 2, 3, 4].map fun channel => Esc.fresh channel .oneShot125
  outputs := []
  lifecycle := .initialized

theorem quad_reachable : quad.Reachable := by
  let bench : Bench := { timer := .bench 4 }
  have configured : configure .quadX .clampAndShift bench =
      (.ok ⟨.quadX, .clampAndShift, [], [], .initialized⟩,
        bench.log (.mixerConfigured .quadX .clampAndShift)) := rfl
  have empty := Reachable.configure configured
  have one := empty.perform (.attach _) bench (Esc.fresh_reachable 1 .oneShot125)
  have two := one.perform (.attach _) bench (Esc.fresh_reachable 2 .oneShot125)
  have three := two.perform (.attach _) bench (Esc.fresh_reachable 3 .oneShot125)
  exact three.perform (.attach _) bench (Esc.fresh_reachable 4 .oneShot125)

end Mixer

end Multirotor
