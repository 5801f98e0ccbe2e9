import Multirotor.Proofs.Mixer.Cleared

/-!
# Arming every motor

A complete mixer arms its motors with one shared wait: the arming pulses go out in slot order, the
program waits as long as the slowest motor needs, and every motor is armed.  If a motor refuses its
arming pulse there is no wait at all; that motor is stopped, and then every motor is, those that
hold the arming pulse and those not reached yet alike.
-/

namespace Multirotor

/-- The write that holds the arming pulse of a protocol.  The period and the shortest pulse of the
full range are whole microseconds, of a thousand nanoseconds each. -/
def Protocol.armingWrite (p : Protocol) (channel : UInt32) : Write :=
  match p with
  | pwm => ⟨channel, 1000 * 4000, 1000 * 1000⟩
  | oneShot125 => ⟨channel, 1000 * 500, 1000 * 125⟩
  | oneShot42 => ⟨channel, 1000 * 168, 1000 * 42⟩
  | multishot => ⟨channel, 1000 * 50, 1000 * 5⟩

theorem Protocol.armingWrite_eq (p : Protocol) (channel : UInt32) :
    p.armingWrite channel = ⟨channel, p.timing.periodNs, nanoseconds p.armPulse⟩ := by
  cases p <;> simp only [armingWrite, Write.mk.injEq, true_and] <;> decide

namespace Esc

variable {e : Esc} {t : Timer} {bench : Bench}

/-- Offsets change nothing about the arming pulse. -/
theorem Tuned.armingWrite_eq (tuned : e.Tuned) :
    e.armingWrite = e.protocol.armingWrite e.channel := by
  rw [armingWrite, tuned.periodNs_eq, e.protocol.armingWrite_eq]

/-- The ESC after a stop was tried: disarmed, unless the timer refuses the stop. -/
def afterStop (t : Timer) (e : Esc) : Esc :=
  if t.refusal? (.stop e.channel) = none then e.disarmed else e

theorem afterStop_afterStop (t : Timer) (e : Esc) :
    (e.afterStop t).afterStop t = e.afterStop t := by
  by_cases accepted : t.refusal? (.stop e.channel) = none <;>
    simp [afterStop, accepted, disarmed]

theorem stop_afterStop (initialized : e.lifecycle = .initialized) (agrees : bench.timer.Agrees t) :
    (e.stop bench).2.1 = e.afterStop t := by
  rw [afterStop, ← agrees.refusal?_eq]
  rcases refused : bench.timer.refusal? (.stop e.channel) with _ | reason
  · rw [stop_of_accepted initialized refused, if_pos rfl]
    rfl
  · rw [stop_of_refused initialized refused, if_neg (by simp)]

theorem holds_stop (e : Esc) (bench : Bench) : (e.stop bench).2.2.holds = bench.holds := by
  rw [stop]
  split
  · rfl
  · split <;> rename_i written <;> obtain rfl := congrArg Prod.snd written <;> rfl

theorem holds_beginArm (e : Esc) (nowUs : Nat) (bench : Bench) :
    (e.beginArm nowUs bench).2.2.holds = bench.holds := by
  rw [beginArm]
  split
  · rfl
  · split
    · rename_i written
      obtain rfl := congrArg Prod.snd written
      rfl
    · rename_i reason refused written
      obtain rfl := congrArg Prod.snd written
      have stopped := e.holds_stop
        ((bench.write e.armingWrite).2.log (.escArmingRefused e.channel reason))
      split <;> rename_i outcome <;> rw [outcome] at stopped <;> exact stopped

end Esc

namespace Mixer

/-- The writes that hold the arming pulses, in slot order. -/
def armingWrites (m : Mixer) : List Write :=
  m.motors.map fun e => e.protocol.armingWrite e.channel

theorem Serviceable.armingWrites_eq {m : Mixer} (serviceable : m.Serviceable) :
    m.armingWrites = m.motors.map Esc.armingWrite :=
  List.map_congr_left fun e mem => (serviceable e mem).tuned.armingWrite_eq.symm

/-! ## The arming pulses -/

/-- What is written while motors begin to arm: their arming pulses up to the first refusal, and a
stop of the motor that refused. -/
def beginWrites (t : Timer) : List Esc → List Write
  | [] => []
  | motor :: motors =>
    if t.refusal? motor.armingWrite = none then motor.armingWrite :: beginWrites t motors
    else [motor.armingWrite, .stop motor.channel]

variable {motors : List Esc} {t : Timer} {bench : Bench}

theorem beginWrites_of_accepted
    (accepted : ∀ e ∈ motors, t.refusal? e.armingWrite = none) :
    beginWrites t motors = motors.map Esc.armingWrite := by
  induction motors with
  | nil => rfl
  | cons motor motors induction =>
    obtain ⟨taken, accepted⟩ := List.forall_mem_cons.mp accepted
    rw [beginWrites, if_pos taken, induction accepted, List.map_cons]

theorem beginWrites_of_firstRefusal {index : Nat} {reason : WriteError}
    (first : t.FirstRefusal (motors.map Esc.armingWrite) index reason) {e : Esc}
    (found : motors[index]? = some e) :
    beginWrites t motors =
      (motors.map Esc.armingWrite).take (index + 1) ++ [.stop e.channel] := by
  induction motors generalizing index with
  | nil => cases found
  | cons motor motors induction =>
    rw [beginWrites]
    rcases index with _ | index
    · obtain ⟨w, w_found, refused⟩ := first.refused
      obtain rfl : motor.armingWrite = w := Option.some.inj w_found
      obtain rfl : motor = e := Option.some.inj found
      rw [if_neg (by simp [refused])]
      rfl
    · obtain ⟨taken, first⟩ := first.tail
      rw [if_pos taken, induction first found]
      rfl

theorem holds_beginArmFrom (clock : Nat → Nat) (motors : List Esc) (index : Nat) (bench : Bench) :
    (beginArmFrom index clock motors bench).2.2.holds = bench.holds := by
  induction motors generalizing index bench with
  | nil => rfl
  | cons motor motors induction =>
    have first := motor.holds_beginArm (clock index) bench
    rw [beginArmFrom]
    rcases outcome : motor.beginArm (clock index) bench with ⟨source | _, motor', after⟩ <;>
      rw [outcome] at first
    · exact first
    · exact (induction _ after).trans first

/-- Motors in use begin to arm in order up to the first refusal.  What each of them would be after
a stop does not change. -/
theorem beginArmFrom_spec (initialized : ∀ e ∈ motors, e.lifecycle = .initialized)
    (clock : Nat → Nat) (index : Nat) (agrees : bench.timer.Agrees t) :
    (beginArmFrom index clock motors bench).1 =
        t.firstFailure .armingFailed index (motors.map Esc.armingWrite) ∧
      (beginArmFrom index clock motors bench).2.1.map (Esc.afterStop t) =
        motors.map (Esc.afterStop t) ∧
      (beginArmFrom index clock motors bench).2.2.timer =
        (bench.timer.attemptAll (beginWrites t motors)).2 := by
  induction motors generalizing index bench with
  | nil => exact ⟨rfl, rfl, rfl⟩
  | cons motor motors induction =>
    obtain ⟨in_use, initialized⟩ := List.forall_mem_cons.mp initialized
    have same := agrees.refusal?_eq motor.armingWrite
    simp only [beginArmFrom, List.map_cons, Timer.firstFailure, Timer.answer, beginWrites]
    rcases refused : t.refusal? motor.armingWrite with _ | reason
    · have later : (bench.write motor.armingWrite).2.timer.Agrees t :=
        (bench.timer.set_agrees _).trans agrees
      obtain ⟨outcome, settled, written⟩ := induction initialized (index + 1) later
      simp only [Esc.beginArm_of_accepted in_use (same.trans refused)]
      refine ⟨outcome, ?_, written⟩
      rw [List.map_cons, settled]
      simp [Esc.afterStop, Esc.stop_accepted refused, Esc.disarmed]
    · obtain ⟨after, written, outcome, stopped, stop_written⟩ :=
        Esc.beginArm_of_refused in_use (same.trans refused) (clock index)
      have later : after.timer.Agrees t := by
        rw [written]
        exact (bench.timer.set_agrees _).trans agrees
      rcases begun : motor.beginArm (clock index) bench with ⟨result, motor', bench'⟩
      rw [begun] at outcome stopped stop_written
      obtain rfl : result = .error (.armingFailed reason) := outcome
      obtain rfl : motor' = motor.afterStop t := stopped.trans (Esc.stop_afterStop in_use later)
      refine ⟨rfl, ?_, ?_⟩
      · rw [List.map_cons, Esc.afterStop_afterStop]
      · rw [if_neg (by simp)]
        refine stop_written.trans ?_
        rw [(Esc.stop_spec in_use after).2, Bench.write_eq, written]
        rfl

/-! ## The shared wait -/

/-- Once the arming pulse has been held for the arming duration the ESC is armed. -/
theorem finishArm_of_arming {e : Esc} (initialized : e.lifecycle = .initialized) (sinceUs : Nat) :
    Esc.finishArm { e with arming := .arming sinceUs } = { e with arming := .armed } := by
  simp [Esc.finishArm, Esc.pollArm, initialized]

theorem map_finishArm_beginArmFrom {motors' : List Esc} {clock : Nat → Nat} {index : Nat}
    {after : Bench} (initialized : ∀ e ∈ motors, e.lifecycle = .initialized)
    (begun : beginArmFrom index clock motors bench = (.ok (), motors', after)) :
    motors'.map Esc.finishArm = motors.map fun e => { e with arming := .armed } := by
  induction motors generalizing index bench motors' with
  | nil =>
    cases begun
    rfl
  | cons motor motors induction =>
    obtain ⟨in_use, initialized⟩ := List.forall_mem_cons.mp initialized
    rw [beginArmFrom] at begun
    rcases first : motor.beginArm (clock index) bench with ⟨source | _, motor', between⟩ <;>
      simp only [first] at begun
    · cases begun
    · obtain ⟨rfl, -, -⟩ := Esc.beginArm_ok first
      rcases rest : beginArmFrom (index + 1) clock motors between with ⟨outcome, later, last⟩
      rw [rest] at begun
      cases begun
      rw [List.map_cons, List.map_cons, finishArm_of_arming in_use, induction initialized rest]

/-- The longest of some durations and a first one is one of them, and none is longer. -/
theorem foldl_longest (longest : UInt32) (motors : List Esc) :
    let result := motors.foldl (fun longest motor => max longest motor.armMs) longest
    longest ≤ result ∧ (∀ e ∈ motors, e.armMs ≤ result) ∧
      (result = longest ∨ ∃ e ∈ motors, result = e.armMs) := by
  induction motors generalizing longest with
  | nil => exact ⟨UInt32.le_refl _, by simp, .inl rfl⟩
  | cons motor motors induction =>
    obtain ⟨start, members, attained⟩ := induction (max longest motor.armMs)
    have choice : max longest motor.armMs =
        if longest ≤ motor.armMs then motor.armMs else longest := rfl
    simp only [List.foldl_cons, List.forall_mem_cons, List.exists_mem_cons_iff]
    by_cases le : longest ≤ motor.armMs
    · rw [choice, if_pos le] at start members attained ⊢
      exact ⟨UInt32.le_trans le start, ⟨start, members⟩, .inr attained⟩
    · have ge : motor.armMs ≤ longest := (UInt32.le_total _ _).resolve_left le
      rw [choice, if_neg le] at start members attained ⊢
      exact ⟨start, ⟨UInt32.le_trans ge start, members⟩, attained.imp_right .inr⟩

/-- Some motor needs the longest arming duration. -/
theorem exists_longestArmMs (nonempty : motors ≠ []) :
    ∃ e ∈ motors, longestArmMs motors = e.armMs ∧ ∀ other ∈ motors, other.armMs ≤ e.armMs := by
  obtain ⟨-, members, attained⟩ := foldl_longest 0 motors
  rcases attained with zero | ⟨e, mem, longest⟩
  · -- no duration is positive, so any motor will do
    obtain ⟨e, mem⟩ := List.exists_mem_of_ne_nil motors nonempty
    have none_longer (other : Esc) (other_mem : other ∈ motors) : other.armMs = 0 :=
      UInt32.le_zero_iff.mp (zero ▸ members other other_mem)
    refine ⟨e, mem, zero.trans (none_longer e mem).symm, fun other other_mem => ?_⟩
    rw [none_longer other other_mem]
    exact UInt32.zero_le
  · exact ⟨e, mem, longest, fun other other_mem => longest ▸ members other other_mem⟩

theorem longestArmMs_beginArmFrom (clock : Nat → Nat) (motors : List Esc) (index : Nat)
    (bench : Bench) :
    longestArmMs (beginArmFrom index clock motors bench).2.1 = longestArmMs motors := by
  have same : (beginArmFrom index clock motors bench).2.1.map Esc.armMs = motors.map Esc.armMs :=
    map_beginArmFrom (fun e nowUs bench => by
      obtain ⟨arming, same⟩ := e.beginArm_eq nowUs bench
      rw [same]) clock motors index bench
  simp only [longestArmMs, ← List.foldl_map, same]

/-! ## Stopping after a refusal -/

theorem forEachFrom_stop (initialized : ∀ e ∈ motors, e.lifecycle = .initialized)
    (report : Nat → EscError → Event) (index : Nat) (agrees : bench.timer.Agrees t) :
    (forEachFrom index Esc.stop report motors bench).2.1 = motors.map (Esc.afterStop t) ∧
      (forEachFrom index Esc.stop report motors bench).2.2.holds = bench.holds := by
  induction motors generalizing index bench with
  | nil => exact ⟨rfl, rfl⟩
  | cons motor motors induction =>
    obtain ⟨in_use, initialized⟩ := List.forall_mem_cons.mp initialized
    have settled := Esc.stop_afterStop in_use agrees
    have written := (Esc.stop_spec in_use bench).2
    have kept := motor.holds_stop bench
    rw [forEachFrom]
    rcases stopped : motor.stop bench with ⟨source | _, motor', after⟩ <;>
      rw [stopped] at settled written kept
    all_goals
      obtain rfl : motor' = motor.afterStop t := settled
      obtain rfl : after = (bench.write (.stop motor.channel)).2 := written
      have later : (bench.write (.stop motor.channel)).2.timer.Agrees t :=
        (bench.timer.set_agrees _).trans agrees
    · let reported : Bench :=
        (bench.write (.stop motor.channel)).2.log (report (index + 1) source)
      obtain ⟨rest, rest_kept⟩ := induction initialized (index + 1)
        (show reported.timer.Agrees t from later)
      exact ⟨congrArg (motor.afterStop t :: ·) rest, rest_kept.trans kept⟩
    · obtain ⟨rest, rest_kept⟩ := induction initialized (index + 1) later
      exact ⟨congrArg (motor.afterStop t :: ·) rest, rest_kept.trans kept⟩

variable {m : Mixer}

/-- A mixer in use that stops leaves its motors stopped as far as they can be. -/
theorem stopAll_motors (initialized : m.lifecycle = .initialized) (serviceable : m.Serviceable)
    (agrees : bench.timer.Agrees t) :
    (m.stopAll bench).2.1 = { m with motors := m.motors.map (Esc.afterStop t), outputs := [] } ∧
      (m.stopAll bench).2.2.holds = bench.holds := by
  obtain ⟨settled, kept⟩ := forEachFrom_stop (fun e mem => (serviceable e mem).initialized)
    .motorStopFailed 0 agrees
  constructor
  · rw [stopAll_eq initialized, settled]
  · rw [stopAll, initialized]
    rcases stopped : forEachFrom 0 Esc.stop .motorStopFailed m.motors bench with
      ⟨e | _, motors, after⟩ <;> rw [stopped] at kept <;> exact kept

/-- A motor that refuses its arming pulse has every motor stopped, and is what is reported. -/
theorem armAll_of_refused (complete : m.checkComplete = .ok ()) (serviceable : m.Serviceable)
    {clock : Nat → Nat} {e : MixerError} {motors : List Esc} {after : Bench}
    (begun : beginArmFrom 0 clock m.motors bench = (.error e, motors, after))
    (agrees : after.timer.Agrees bench.timer) :
    (m.armAll clock bench).1 = .error e ∧
      (m.armAll clock bench).2.1 =
        { m with motors := m.motors.map (Esc.afterStop bench.timer), outputs := [] } ∧
      (m.armAll clock bench).2.2.timer = (after.timer.attemptAll m.stopWrites).2 ∧
      (m.armAll clock bench).2.2.holds = bench.holds := by
  have channels := Esc.map_channel_eq (map_beginArmFrom
    (fun e nowUs bench => Esc.disarmed_of_eq (e.beginArm_eq nowUs bench)) clock m.motors 0 bench)
  have begun_serviceable := beginArmFrom_forall (P := Esc.Serviceable)
    (fun e nowUs bench serviceable => serviceable.of_eq (e.beginArm_eq nowUs bench))
    clock serviceable 0 bench
  obtain ⟨-, settled, -⟩ := beginArmFrom_spec (fun e mem => (serviceable e mem).initialized) clock 0
    (.refl bench.timer)
  have kept := holds_beginArmFrom clock m.motors 0 bench
  rw [begun] at channels begun_serviceable settled kept
  -- what is left to do is a stop of the mixer with the motors as they are now
  let halted : Mixer := { m with motors := motors }
  have in_use : halted.lifecycle = .initialized := (checkComplete_eq_ok complete).1
  have serviceable : halted.Serviceable := begun_serviceable
  have stops : halted.stopWrites = m.stopWrites := by
    simpa [stopWrites, Function.comp_def] using congrArg (List.map Write.stop) channels
  obtain ⟨mixer, no_wait⟩ := stopAll_motors in_use serviceable agrees
  have written := (stopAll_spec in_use serviceable after).2
  rw [settled] at mixer
  rw [stops] at written
  simp only [armAll, complete, begun]
  split <;> rename_i stopped <;> rw [stopped] at mixer written no_wait <;>
    exact ⟨rfl, mixer, written, no_wait.trans kept⟩

/-! ## All armed or all stopped -/

/-- Every motor is armed after one wait. -/
structure ArmedTogether (m : Mixer) (clock : Nat → Nat) (bench : Bench) : Prop where
  outcome : (m.armAll clock bench).1 = .ok ()
  /-- One arming pulse is attempted for each motor, in slot order. -/
  attempts : (m.armAll clock bench).2.2.timer.attempts.toList =
    bench.timer.attempts.toList ++ m.armingWrites
  /-- The program waits once, for the motor that takes longest. -/
  wait : ∃ e ∈ m.motors, (m.armAll clock bench).2.2.holds = bench.holds.push e.armMs ∧
    ∀ other ∈ m.motors, other.armMs ≤ e.armMs
  /-- The time at which a motor is ready does not overflow 64 bits. -/
  in_time : ∀ (i : Nat) (e : Esc), m.motors[i]? = some e → clock i < 2 ^ 63 →
    clock i + e.armMs.toNat * 1000 < 2 ^ 64
  mixer : (m.armAll clock bench).2.1 =
    { m with motors := m.motors.map fun e => { e with arming := .armed } }

/-- The motor at an index is the first to refuse its arming pulse, and every motor is stopped. -/
structure Abandoned (m : Mixer) (clock : Nat → Nat) (bench : Bench) (index : Nat)
    (reason : WriteError) : Prop where
  outcome : (m.armAll clock bench).1 = .error (.actuatorFailure index (.armingFailed reason))
  /-- The arming pulses end with the refused one, the motor that refuses is stopped, and then
  every motor is. -/
  attempts : ∃ e, m.motors[index]? = some e ∧ (m.armAll clock bench).2.2.timer.attempts.toList =
    bench.timer.attempts.toList ++
      (m.armingWrites.take (index + 1) ++ .stop e.channel :: m.stopWrites)
  /-- The program does not wait. -/
  no_wait : (m.armAll clock bench).2.2.holds = bench.holds
  /-- No outputs are shown, and motors that refuse a stop are as they were before. -/
  mixer : (m.armAll clock bench).2.1 =
    { m with motors := m.motors.map (Esc.afterStop bench.timer), outputs := [] }
  /-- Motors that take a stop are disarmed, and their outputs stay low. -/
  stopped : ∀ (i : Nat) (e : Esc), m.motors[i]? = some e →
    bench.timer.refusal? (.stop e.channel) = none →
      (m.armAll clock bench).2.1.motors[i]? = some { e with arming := .disarmed } ∧
        (m.armAll clock bench).2.2.timer.output? e.channel = some (.stop e.channel)

section

variable (complete : m.checkComplete = .ok ()) (serviceable : m.Serviceable) (clock : Nat → Nat)
include complete serviceable

theorem armAll_armedTogether (accepted : ∀ w ∈ m.armingWrites, bench.timer.refusal? w = none) :
    m.ArmedTogether clock bench := by
  have initialized (e : Esc) (mem : e ∈ m.motors) := (serviceable e mem).initialized
  rw [serviceable.armingWrites_eq] at accepted
  obtain ⟨outcome, -, written⟩ := beginArmFrom_spec initialized clock 0 (.refl bench.timer)
  have kept := holds_beginArmFrom clock m.motors 0 bench
  have longest := longestArmMs_beginArmFrom clock m.motors 0 bench
  rcases begun : beginArmFrom 0 clock m.motors bench with ⟨result, motors, after⟩
  rw [begun] at outcome written kept longest
  obtain rfl : result = .ok () := outcome.trans (Timer.firstFailure_eq_ok_iff.mpr accepted)
  have armed := map_finishArm_beginArmFrom initialized begun
  rw [beginWrites_of_accepted (by simpa using accepted), ← serviceable.armingWrites_eq] at written
  have armAll_eq : m.armAll clock bench =
      (.ok (), { m with motors := motors.map Esc.finishArm },
        ((after.log (.motorsArming motors.length (longestArmMs motors))).hold
          (longestArmMs motors)).log .motorsArmed) := by
    simp only [armAll, complete, begun]
  constructor
  · rw [armAll_eq]
  · rw [armAll_eq]
    exact (congrArg (fun t => t.attempts.toList) written).trans (Timer.attempts_attemptAll _ _)
  · have nonempty : m.motors ≠ [] := by
      intro empty
      have full := (checkComplete_eq_ok complete).2
      rw [empty] at full
      exact absurd full.symm m.geometry.motorCount_pos.ne'
    obtain ⟨e, mem, needed, greatest⟩ := exists_longestArmMs nonempty
    refine ⟨e, mem, ?_, greatest⟩
    rw [armAll_eq, ← needed, ← longest, ← kept]
    rfl
  · intro i e found early
    have := e.armMs.toNat_lt
    omega
  · rw [armAll_eq, armed]

theorem armAll_abandoned {index : Nat} {reason : WriteError}
    (first : bench.timer.FirstRefusal m.armingWrites index reason) :
    m.Abandoned clock bench index reason := by
  rw [serviceable.armingWrites_eq] at first
  obtain ⟨outcome, -, written⟩ := beginArmFrom_spec
    (fun e mem => (serviceable e mem).initialized) clock 0 (.refl bench.timer)
  rcases begun : beginArmFrom 0 clock m.motors bench with ⟨result, motors, after⟩
  rw [begun] at outcome written
  obtain rfl : result = .error (.actuatorFailure index (.armingFailed reason)) := by
    rw [← Nat.zero_add index]
    exact outcome.trans (first.firstFailure_eq 0)
  have agrees : after.timer.Agrees bench.timer := by
    rw [written]
    exact bench.timer.attemptAll_agrees _
  obtain ⟨same_outcome, mixer, stops_written, no_wait⟩ :=
    armAll_of_refused complete serviceable begun agrees
  constructor
  · exact same_outcome
  · obtain ⟨w, found, -⟩ := first.refused
    rw [List.getElem?_map] at found
    obtain ⟨e, motor, -⟩ := Option.map_eq_some_iff.mp found
    refine ⟨e, motor, ?_⟩
    rw [stops_written, Timer.attempts_attemptAll, written, Timer.attempts_attemptAll,
      beginWrites_of_firstRefusal first motor, serviceable.armingWrites_eq]
    simp
  · exact no_wait
  · exact mixer
  · intro i e found accepted
    constructor
    · rw [mixer]
      simp [found, Esc.afterStop, accepted, Esc.disarmed]
    · rw [stops_written]
      exact output?_stopWrites (List.mem_of_getElem? found)
        ((agrees.refusal?_eq _).trans accepted)

end

/-- Arming a mixer is refused while it is not complete.  A complete mixer has every motor armed
after one wait, or its motors are stopped without any. -/
theorem armAll_all_or_stopped {m : Mixer} (reachable : m.Reachable) (clock : Nat → Nat)
    (bench : Bench) :
    (∀ e, m.checkComplete = .error e → m.armAll clock bench = (.error e, m, bench)) ∧
      (m.checkComplete = .ok () →
        ((∀ w ∈ m.armingWrites, bench.timer.refusal? w = none) → m.ArmedTogether clock bench) ∧
          ∀ index reason, bench.timer.FirstRefusal m.armingWrites index reason →
            m.Abandoned clock bench index reason) := by
  constructor
  · intro e incomplete
    simp only [armAll, incomplete]
  · intro complete
    exact ⟨armAll_armedTogether complete reachable.serviceable clock, fun index reason first =>
      armAll_abandoned complete reachable.serviceable clock first⟩

/-- A quadcopter is armed, and stopped as far as it can be if its second motor refuses. -/
theorem armAll_all_or_stopped_second_refuses :
    let working : Bench := { timer := .bench 4 }
    let failing : Bench := { timer := (Timer.bench 4).injectFault 2 .writeFailed }
    quad.ArmedTogether id working ∧ quad.Abandoned id failing 1 .writeFailed ∧
      (quad.armAll id failing).2.2.timer.attempts.toList.map Write.channel =
        [1, 2, 2, 1, 2, 3, 4] := by
  intro working failing
  have complete : quad.checkComplete = .ok () := rfl
  have first : failing.timer.FirstRefusal quad.armingWrites 1 .writeFailed :=
    ⟨⟨Protocol.oneShot125.armingWrite 2, rfl, by decide⟩, by decide⟩
  exact ⟨((armAll_all_or_stopped quad_reachable id working).2 complete).1 (by decide),
    ((armAll_all_or_stopped quad_reachable id failing).2 complete).2 1 .writeFailed first,
    by decide⟩

end Mixer

end Multirotor
