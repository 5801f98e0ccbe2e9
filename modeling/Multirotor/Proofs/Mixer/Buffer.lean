import Mathlib.Data.List.Induction
import Mathlib.Data.List.TakeWhile
import Multirotor.Proofs.Mixer.Representation

/-!
# The outputs shown and the signals written

A command that is executed reaches the motors in slot order up to the first refusal.  The motors
before it get their new speeds, on the channel and among the outputs alike; those from it on keep
what they had.  So over any run of commands and stops an output is the speed last written on its
channel, or it has not been written since the outputs were last empty.
-/

namespace Multirotor

/-! ## Writes before the first refusal -/

namespace Timer

variable {t : Timer} {ws : List Write} {w : Write}

/-- How many writes of a sequence come before the first refusal. -/
def served (t : Timer) (ws : List Write) : Nat :=
  (ws.takeWhile fun w => t.refusal? w = none).length

theorem served_cons (t : Timer) (w : Write) (ws : List Write) :
    t.served (w :: ws) = if t.refusal? w = none then t.served ws + 1 else 0 := by
  by_cases accepted : t.refusal? w = none <;> simp [served, accepted]

theorem Agrees.served_eq {u : Timer} (agrees : t.Agrees u) (ws : List Write) :
    t.served ws = u.served ws := by
  simp only [served, agrees.refusal?_eq]

theorem served_of_accepted (accepted : ∀ w ∈ ws, t.refusal? w = none) :
    t.served ws = ws.length := by
  have whole : ws.takeWhile (fun w => t.refusal? w = none) = ws :=
    List.takeWhile_eq_self_iff.mpr (by simpa using accepted)
  rw [served, whole]

theorem throughRefusal_eq_take (t : Timer) (ws : List Write) :
    t.throughRefusal ws = ws.take (t.served ws + 1) := by
  induction ws with
  | nil => rfl
  | cons w ws induction =>
    rw [throughRefusal, induction, served_cons]
    split <;> rfl

variable {index : Nat} {reason : WriteError}

theorem FirstRefusal.served_eq (first : t.FirstRefusal ws index reason) : t.served ws = index := by
  obtain ⟨⟨w, found, refused⟩, earlier⟩ := first
  obtain ⟨inside, rfl⟩ := List.getElem?_eq_some_iff.mp found
  have split : ws = ws.take index ++ ws[index] :: ws.drop (index + 1) := by
    rw [← List.drop_eq_getElem_cons, List.take_append_drop]
  rw [served, split, List.takeWhile_append_of_pos (by simpa using earlier),
    List.takeWhile_cons_of_neg (by simp [refused])]
  simp [inside.le]

/-- A write that is accepted among writes for different channels is there to stay. -/
theorem output?_of_nodup (distinct : (ws.map Write.channel).Nodup) (mem : w ∈ ws)
    (accepted : t.refusal? w = none) : (t.attemptAll ws).2.output? w.channel = some w :=
  output?_attemptAll_of_accepted mem accepted fun _ v_mem same =>
    List.inj_on_of_nodup_map distinct v_mem mem same

/-- Writes up to a refusal reach the channels before it, and no others. -/
theorem FirstRefusal.output?_eq (first : t.FirstRefusal ws index reason)
    (distinct : (ws.map Write.channel).Nodup) {i : Nat} (found : ws[i]? = some w) :
    (t.attemptAll (ws.take (index + 1))).2.output? w.channel =
      if i < index then some w else t.output? w.channel := by
  have distinct_taken : ((ws.take (index + 1)).map Write.channel).Nodup :=
    distinct.sublist ((List.take_sublist _ _).map _)
  split
  · rename_i before
    have mem : w ∈ ws.take index := List.mem_of_getElem? (by rwa [List.getElem?_take_of_lt before])
    exact output?_of_nodup distinct_taken
      ((List.take_subset_take_left _ (Nat.le_succ index)) mem) (first.earlier w mem)
  · rename_i not_before
    apply output?_attemptAll_of_refused
    intro v mem same
    obtain ⟨j, taken⟩ := List.mem_iff_getElem?.mp mem
    rw [List.getElem?_take] at taken
    split at taken
    · have slots : (ws.map Write.channel)[j]? = (ws.map Write.channel)[i]? := by
        simp [found, taken, same]
      have inside : j < (ws.map Write.channel).length := by
        have := (List.getElem?_eq_some_iff.mp taken).1
        simpa
      obtain rfl : j = i := (List.getElem?_inj inside distinct).mp slots
      obtain rfl : j = index := by omega
      obtain ⟨u, refused_found, refused⟩ := first.refused
      rw [taken] at refused_found
      simp [Option.some.inj refused_found, refused]
    · cases taken

end Timer

namespace Mixer

variable {m : Mixer} {bench : Bench} {c : Command}

/-- The outputs of a cycle are the speeds of the motors before the first refusal, and behind them
the outputs as they were. -/
theorem driveFrom_outputs_eq {motors : List Esc} {speeds outputs : List Binary32}
    (initialized : ∀ e ∈ motors, e.lifecycle = .initialized)
    (legal : ∀ speed ∈ speeds, 0 ≤ speed ∧ speed ≤ 1) (room : speeds.length ≤ outputs.length)
    (index : Nat) (bench : Bench) :
    let count := bench.timer.served (List.zipWith Esc.speedWrite motors speeds)
    (driveFrom index motors speeds outputs bench).2.1 =
      speeds.take count ++ outputs.drop count := by
  induction motors generalizing speeds outputs index bench with
  | nil => rfl
  | cons motor motors induction =>
    rcases speeds with _ | ⟨speed, speeds⟩
    · simp [driveFrom, Timer.served]
    rcases outputs with _ | ⟨output, outputs⟩
    · exact absurd room (by simp)
    obtain ⟨in_use, initialized⟩ := List.forall_mem_cons.mp initialized
    obtain ⟨legal_first, legal⟩ := List.forall_mem_cons.mp legal
    have driven := Esc.drive_eq in_use legal_first bench
    have agrees : (bench.write (motor.speedWrite speed)).2.timer.Agrees bench.timer :=
      bench.timer.set_agrees _
    have rest := induction initialized legal (Nat.le_of_succ_le_succ room) (index + 1)
      (bench.write (motor.speedWrite speed)).2
    rw [agrees.served_eq] at rest
    simp only [driveFrom, driven, List.zipWith_cons_cons, Timer.served_cons]
    rcases refused : bench.timer.refusal? (motor.speedWrite speed) with _ | reason
    · rw [Timer.answer_eq_ok_iff.mpr refused, if_pos rfl]
      exact congrArg (speed :: ·) rest
    · have answer : bench.timer.answer (motor.speedWrite speed) = .error reason := by
        rw [Timer.answer, refused]
      rw [answer, if_neg (by simp)]
      rfl

/-- The outputs that a command finds; none reached by a command are zero. -/
def outputsBefore (m : Mixer) : List Binary32 :=
  if m.outputs = [] then List.replicate m.motors.length 0 else m.outputs

/-- Every motor takes its speed for a command. -/
structure Driven (m : Mixer) (c : Command) (bench : Bench) (ws : List Write) : Prop where
  /-- There is one write for each motor, in slot order, with the pulse of its speed. -/
  writes : m.DrivesEach (allocate m.geometry.table m.policy c) ws
  outcome : (m.execute c bench).1 = .ok ()
  attempts : (m.execute c bench).2.2.timer.attempts.toList =
    bench.timer.attempts.toList ++ ws
  outputs : (m.execute c bench).2.1.outputs = allocate m.geometry.table m.policy c
  registers : ∀ w ∈ ws, (m.execute c bench).2.2.timer.output? w.channel = some w

/-- The motor at an index is the first to refuse its speed for a command. -/
structure BrokenOff (m : Mixer) (c : Command) (bench : Bench) (ws : List Write) (index : Nat)
    (reason : WriteError) : Prop where
  /-- There is one write for each motor, in slot order, with the pulse of its speed. -/
  writes : m.DrivesEach (allocate m.geometry.table m.policy c) ws
  refusal : bench.timer.FirstRefusal ws index reason
  outcome : (m.execute c bench).1 = .error (.actuatorFailure index (.ofWrite reason))
  /-- The attempts end with the refused one. -/
  attempts : (m.execute c bench).2.2.timer.attempts.toList =
    bench.timer.attempts.toList ++ ws.take (index + 1)
  /-- From the motor that refuses on, the outputs are as they were before. -/
  outputs : ∀ i, (m.execute c bench).2.1.outputs[i]? =
    if i < index then (allocate m.geometry.table m.policy c)[i]? else m.outputsBefore[i]?
  /-- From the motor that refuses on, the signals are as they were before. -/
  registers : ∀ i w, ws[i]? = some w →
    (m.execute c bench).2.2.timer.output? w.channel =
      if i < index then some w else bench.timer.output? w.channel

section

variable (reachable : m.Reachable) (complete : m.checkComplete = .ok ())
include reachable complete

theorem preparedOutputs?_eq (c : Command) :
    m.preparedOutputs? (allocate m.geometry.table m.policy c).length = some m.outputsBefore ∧
      m.outputsBefore.length = (allocate m.geometry.table m.policy c).length := by
  have full := (checkComplete_eq_ok complete).2
  rw [preparedOutputs?, outputsBefore, m.geometry.length_allocate m.policy c, full]
  by_cases none_shown : m.outputs = []
  · rw [if_pos none_shown, if_pos m.geometry.motorCount_le, List.length_replicate, none_shown]
    split
    · rename_i no_motors
      exact ⟨by rw [← no_motors]; rfl, rfl⟩
    · exact ⟨rfl, rfl⟩
  · have shown : m.outputs.length = m.geometry.motorCount :=
      (reachable.wellFormed.outputs.resolve_left none_shown).1
    rw [if_neg none_shown, if_pos shown]
    exact ⟨rfl, shown⟩

variable (inBounds : c.InBounds)
include inBounds

/-- A command within bounds changes the outputs up to the first refusal. -/
theorem execute_outputs (bench : Bench) :
    (m.execute c bench).2.1.outputs =
      (allocate m.geometry.table m.policy c).take (bench.timer.served (m.speedWrites c)) ++
        m.outputsBefore.drop (bench.timer.served (m.speedWrites c)) := by
  obtain ⟨prepared, length⟩ := preparedOutputs?_eq reachable complete c
  have driven := driveFrom_outputs_eq (fun e mem => (reachable.serviceable e mem).initialized)
    (allocate_mem m.geometry.inUnits_of_mem_table inBounds m.policy) length.ge 0 bench
  simp only [execute, complete, if_pos inBounds, prepared]
  exact driven

variable (distinct : (m.motors.map Esc.channel).Nodup)
include distinct

theorem execute_driven (accepted : ∀ w ∈ m.speedWrites c, bench.timer.refusal? w = none) :
    m.Driven c bench (m.speedWrites c) := by
  have served := Timer.served_of_accepted accepted
  have speeds : (m.speedWrites c).length = (allocate m.geometry.table m.policy c).length := by
    rw [length_speedWrites complete, m.geometry.length_allocate, (checkComplete_eq_ok complete).2]
  have outputs := execute_outputs reachable complete inBounds bench
  obtain ⟨outcome, written⟩ := execute_spec complete reachable.serviceable inBounds bench
  rw [Timer.throughRefusal_eq_take, served, List.take_of_length_le (Nat.le_succ _)] at written
  constructor
  · exact drivesEach_speedWrites complete reachable.serviceable c
  · exact outcome.trans (Timer.firstFailure_eq_ok_iff.mpr accepted)
  · rw [written, Timer.attempts_attemptAll]
  · rw [outputs, served, speeds, List.take_length, ← (preparedOutputs?_eq reachable complete c).2,
      List.drop_length, List.append_nil]
  · intro w mem
    rw [written]
    exact Timer.output?_of_nodup (by rwa [map_channel_speedWrites complete]) mem (accepted w mem)

theorem execute_brokenOff {e : MixerError}
    (failed : bench.timer.firstFailure .ofWrite 0 (m.speedWrites c) = .error e) :
    ∃ index reason, m.BrokenOff c bench (m.speedWrites c) index reason := by
  obtain ⟨index, reason, first, rfl⟩ := Timer.exists_firstRefusal failed
  obtain ⟨outcome, written⟩ := execute_spec complete reachable.serviceable inBounds bench
  rw [Timer.throughRefusal_eq_take, first.served_eq] at written
  refine ⟨index, reason, drivesEach_speedWrites complete reachable.serviceable c, first, ?_, ?_,
    fun i => ?_, fun i w found => ?_⟩
  · rw [outcome, failed, Nat.zero_add]
  · rw [written, Timer.attempts_attemptAll]
  · obtain ⟨w, found, -⟩ := first.refused
    have inside := (List.getElem?_eq_some_iff.mp found).1
    rw [length_speedWrites complete, (checkComplete_eq_ok complete).2,
      ← m.geometry.length_allocate m.policy c] at inside
    have taken : ((allocate m.geometry.table m.policy c).take index).length = index := by
      simp [inside.le]
    rw [execute_outputs reachable complete inBounds, first.served_eq, List.getElem?_append, taken]
    split
    · rw [List.getElem?_take_of_lt ‹_›]
    · rw [List.getElem?_drop, Nat.add_sub_cancel' (Nat.le_of_not_lt ‹_›)]
  · rw [written]
    exact first.output?_eq (by rwa [map_channel_speedWrites complete]) found

end

/-- What can become of a command. -/
inductive Outcome (m : Mixer) (c : Command) (bench : Bench) : Prop
  /-- The command is not executed, and nothing happens. -/
  | rejected (e : MixerError)
      (reason : e = .notInitialized ∨ e = .countMismatch m.expectedCount m.motors.length ∨
        e = .outOfRangeCommand)
      (same : m.execute c bench = (.error e, m, bench))
  | driven (ws : List Write) (driven : m.Driven c bench ws)
  | brokenOff (ws : List Write) (index : Nat) (reason : WriteError)
      (broken : m.BrokenOff c bench ws index reason)

theorem Reachable.outcome (reachable : m.Reachable) (distinct : (m.motors.map Esc.channel).Nodup)
    (c : Command) (bench : Bench) : m.Outcome c bench := by
  rcases complete : m.checkComplete with e | _
  · refine .rejected e ?_ (by simp only [execute, complete])
    exact (checkComplete_eq_error complete).imp_right .inl
  by_cases inBounds : c.InBounds
  · rcases failed : bench.timer.firstFailure .ofWrite 0 (m.speedWrites c) with e | _
    · obtain ⟨index, reason, broken⟩ :=
        execute_brokenOff reachable complete inBounds distinct failed
      exact .brokenOff _ index reason broken
    · exact .driven _ (execute_driven reachable complete inBounds distinct
        (Timer.firstFailure_eq_ok_iff.mp failed))
  · exact .rejected .outOfRangeCommand (by simp) (execute_outOfBounds complete inBounds bench)

/-! ## Runs of commands and stops -/

/-- The mixer executes a command or stops, or something else happens to the device. -/
inductive Round where
  | execute (command : Command)
  | stopAll
  | disturb (disturbance : Timer.Disturbance)

def advance (s : Mixer × Bench) : Round → Mixer × Bench
  | .execute command => (s.1.execute command s.2).2
  | .stopAll => (s.1.stopAll s.2).2
  | .disturb disturbance => (s.1, { s.2 with timer := s.2.timer.disturb disturbance })

/-- Nobody else writes on the channels. -/
def Round.Spares (channels : List UInt32) : Round → Prop
  | .disturb disturbance => ∀ channel ∈ channels, disturbance.Spares channel
  | _ => True

/-- Each output shown is the speed at which the last write on its channel drives the motor, unless
both the output and the signal are as they were before. -/
def Backed (before s : Mixer × Bench) : Prop :=
  ∀ (i : Nat) (e : Esc) (v : Binary32), s.1.motors[i]? = some e → s.1.outputs[i]? = some v →
    (∃ w, s.2.timer.output? e.channel = some w ∧ w.Drives e v) ∨
      v = before.1.outputs[i]?.getD 0 ∧
        s.2.timer.output? e.channel = before.2.timer.output? e.channel

variable {before s : Mixer × Bench}

theorem Backed.refl (s : Mixer × Bench) : Backed s s := fun _ _ _ _ output =>
  .inr ⟨by rw [output, Option.getD_some], rfl⟩

theorem advance_reachable (reachable : s.1.Reachable) (round : Round) :
    (advance s round).1.Reachable := by
  cases round with
  | execute command => exact reachable.perform (.execute command) s.2 trivial
  | stopAll => exact reachable.perform .stopAll s.2 trivial
  | disturb disturbance => exact reachable

theorem advance_map_disarmed (s : Mixer × Bench) (round : Round) :
    (advance s round).1.motors.map Esc.disarmed = s.1.motors.map Esc.disarmed := by
  cases round with
  | execute command =>
    obtain ⟨outputs, same⟩ := s.1.execute_eq command s.2
    rw [advance, same]
  | stopAll => exact s.1.map_disarmed_stopAll s.2
  | disturb disturbance => rfl

/-- There is a write for every motor, and it drives the motor at its speed. -/
theorem DrivesEach.exists_write {speeds : List Binary32} {ws : List Write}
    (writes : m.DrivesEach speeds ws) {i : Nat} {e : Esc} (motor : m.motors[i]? = some e) :
    ∃ w speed, ws[i]? = some w ∧ speeds[i]? = some speed ∧ w.Drives e speed := by
  have inside : i < ws.length := by
    rw [writes.length]
    exact (List.getElem?_eq_some_iff.mp motor).1
  have found := List.getElem?_eq_getElem inside
  obtain ⟨e', speed, motor', allocated, drives⟩ := writes.drives i _ found
  obtain rfl := Option.some.inj (motor.symm.trans motor')
  exact ⟨_, speed, found, allocated, drives⟩

theorem getElem?_outputsBefore {i : Nat} {v : Binary32} (found : m.outputsBefore[i]? = some v) :
    m.outputs = [] ∧ v = 0 ∨ m.outputs[i]? = some v := by
  rw [outputsBefore] at found
  split at found
  · exact .inl ⟨‹_›, List.eq_of_mem_replicate (List.mem_of_getElem? found)⟩
  · exact .inr found

theorem Backed.execute (backed : Backed before (m, bench))
    (empty : m.outputs = [] → before = (m, bench)) (reachable : m.Reachable)
    (distinct : (m.motors.map Esc.channel).Nodup) (c : Command) :
    Backed before (m.execute c bench).2 := by
  rcases reachable.outcome distinct c bench with
    ⟨e, _, same⟩ | ⟨ws, driven⟩ | ⟨ws, index, reason, broken⟩
  · rw [same]
    exact backed
  all_goals
    intro i e v motor output
    obtain ⟨_, same⟩ := m.execute_eq c bench
    rw [same] at motor
  · obtain ⟨w, speed, written, allocated, drives⟩ := driven.writes.exists_write motor
    rw [driven.outputs, allocated] at output
    cases output
    rw [← drives.channel]
    exact .inl ⟨w, driven.registers w (List.mem_of_getElem? written), drives⟩
  · obtain ⟨w, speed, written, allocated, drives⟩ := broken.writes.exists_write motor
    have register := broken.registers i w written
    rw [drives.channel] at register
    rw [broken.outputs] at output
    split at output
    · rw [allocated] at output
      cases output
      rw [if_pos ‹_›] at register
      exact .inl ⟨w, register, drives⟩
    · rw [if_neg ‹_›] at register
      rcases getElem?_outputsBefore output with ⟨none_shown, rfl⟩ | shown
      · obtain rfl := empty none_shown
        exact .inr ⟨by simp [none_shown], register⟩
      · rw [register]
        exact backed i e v motor shown

/-- What a step makes of outputs that it does not clear. -/
theorem Backed.advance (backed : Backed before s) (empty : s.1.outputs = [] → before = s)
    (reachable : s.1.Reachable) (distinct : (s.1.motors.map Esc.channel).Nodup) {round : Round}
    (spares : round.Spares (s.1.motors.map Esc.channel))
    (shown : (advance s round).1.outputs ≠ []) : Backed before (advance s round) := by
  obtain ⟨m, bench⟩ := s
  cases round with
  | execute command => exact backed.execute empty reachable distinct command
  | stopAll =>
    rcases lifecycle : m.lifecycle
    · have cleared : (m.stopAll bench).2.1.outputs = [] := by rw [stopAll_eq lifecycle]
      exact absurd cleared shown
    · have same : (m.stopAll bench).2 = (m, bench) := by rw [Mixer.stopAll, lifecycle]
      rw [Mixer.advance, same]
      exact backed
  | disturb disturbance =>
    intro i e v motor output
    have spared := spares e.channel (List.mem_map_of_mem (List.mem_of_getElem? motor))
    rw [Mixer.advance, bench.timer.output?_disturb spared]
    exact backed i e v motor output

/-- A run leads from the state in which the outputs were last empty, or from its start. -/
structure ShownSince (start : Mixer × Bench) (earlier later : List Round) : Prop where
  empty : earlier = [] ∨ (earlier.foldl advance start).1.outputs = []
  /-- There have been outputs all the time since. -/
  shown : ∀ part, part <+: later → part ≠ [] →
    (part.foldl advance (earlier.foldl advance start)).1.outputs ≠ []

theorem shownSince_self (start : Mixer × Bench) {rounds : List Round}
    (empty : rounds = [] ∨ (rounds.foldl advance start).1.outputs = []) :
    ShownSince start rounds [] where
  empty := empty
  shown _ initial nonempty := absurd (List.prefix_nil.mp initial) nonempty

theorem ShownSince.concat {start : Mixer × Bench} {earlier later : List Round} {round : Round}
    (since : ShownSince start earlier later)
    (shown : ((earlier ++ later ++ [round]).foldl advance start).1.outputs ≠ []) :
    ShownSince start earlier (later ++ [round]) where
  empty := since.empty
  shown part initial nonempty := by
    rcases List.prefix_concat_iff.mp initial with rfl | shorter
    · rwa [← List.foldl_append, ← List.append_assoc]
    · exact since.shown part shorter nonempty

/-- Outputs that are not shown have been cleared just now. -/
theorem ShownSince.eq_of_empty {start : Mixer × Bench} {earlier later : List Round}
    (since : ShownSince start earlier later)
    (empty : ((earlier ++ later).foldl advance start).1.outputs = []) : later = [] := by
  by_contra nonempty
  rw [List.foldl_append] at empty
  exact since.shown later List.prefix_rfl nonempty empty

theorem run_kept {start : Mixer × Bench} (reachable : start.1.Reachable) (rounds : List Round) :
    (rounds.foldl advance start).1.Reachable ∧
      (rounds.foldl advance start).1.motors.map Esc.disarmed =
        start.1.motors.map Esc.disarmed := by
  induction rounds generalizing start with
  | nil => exact ⟨reachable, rfl⟩
  | cons round rounds induction =>
    obtain ⟨reachable', motors⟩ := induction (advance_reachable reachable round)
    exact ⟨reachable', motors.trans (advance_map_disarmed start round)⟩

theorem exists_backed {start : Mixer × Bench} (reachable : start.1.Reachable)
    (distinct : (start.1.motors.map Esc.channel).Nodup) {rounds : List Round}
    (spared : ∀ round ∈ rounds, round.Spares (start.1.motors.map Esc.channel)) :
    ∃ earlier later, rounds = earlier ++ later ∧ ShownSince start earlier later ∧
      Backed (earlier.foldl advance start) (rounds.foldl advance start) := by
  induction rounds using List.reverseRecOn with
  | nil => exact ⟨[], [], rfl, shownSince_self start (.inl rfl), .refl start⟩
  | append_singleton rounds round induction =>
    have spares := spared round (by simp)
    obtain ⟨earlier, later, rfl, since, backed⟩ :=
      induction fun round mem => spared round (List.mem_append_left _ mem)
    obtain ⟨reachable', motors⟩ := run_kept reachable (earlier ++ later)
    rw [← Esc.map_channel_eq motors] at spares distinct
    by_cases cleared : ((earlier ++ later ++ [round]).foldl advance start).1.outputs = []
    · exact ⟨_, [], (List.append_nil _).symm, shownSince_self start (.inr cleared), .refl _⟩
    · refine ⟨earlier, later ++ [round], List.append_assoc _ _ _, since.concat cleared, ?_⟩
      rw [List.foldl_concat] at cleared ⊢
      refine backed.advance (fun empty => ?_) reachable' distinct spares cleared
      rw [since.eq_of_empty empty, List.append_nil]

/-- A command reaches the motors in slot order up to the first refusal, and changes outputs and
signals alike.  So after any run of commands and stops, in which nobody else writes, an output is
the speed that its channel got last, or neither has changed since the outputs were last empty. -/
theorem execute_follows_hardware :
    (∀ m : Mixer, m.Reachable → (m.motors.map Esc.channel).Nodup → ∀ c bench,
      m.Outcome c bench ∧ ∃ outputs, (m.execute c bench).2.1 = { m with outputs := outputs }) ∧
      ∀ start : Mixer × Bench, start.1.Reachable → (start.1.motors.map Esc.channel).Nodup →
        ∀ rounds : List Round,
          (∀ round ∈ rounds, round.Spares (start.1.motors.map Esc.channel)) →
          let last := rounds.foldl advance start
          last.1.motors.map Esc.disarmed = start.1.motors.map Esc.disarmed ∧
            ∃ earlier later, rounds = earlier ++ later ∧ ShownSince start earlier later ∧
              Backed (earlier.foldl advance start) last := by
  constructor
  · intro m reachable distinct c bench
    exact ⟨reachable.outcome distinct c bench, m.execute_eq c bench⟩
  · intro start reachable distinct rounds spared
    exact ⟨(run_kept reachable rounds).2, exists_backed reachable distinct spared⟩

/-- A quadcopter whose third motor refuses the first command.  The first two motors have got their
speed, and the other two outputs are zero. -/
theorem execute_follows_hardware_third_refuses :
    let c : Command := ⟨0.5, 0, 0, 0⟩
    let start : Mixer × Bench := (quad, { timer := .bench 4 })
    let failing : Bench := { timer := start.2.timer.injectFault 3 .writeFailed }
    let rounds : List Round := [.disturb (.injectFault 3 .writeFailed), .execute c]
    let last := rounds.foldl advance start
    (quad.execute c failing).1 = .error (.actuatorFailure 2 (.hardware .writeFailed)) ∧
      quad.Outcome c failing ∧ last.1.outputs = [0.5, 0.5, 0, 0] ∧
      last.2.timer.output? 2 = some ⟨2, 500000, 187500⟩ ∧ last.2.timer.output? 3 = none ∧
      ∃ earlier later, rounds = earlier ++ later ∧ ShownSince start earlier later ∧
        Backed (earlier.foldl advance start) last := by
  intro c start failing rounds last
  have distinct : (quad.motors.map Esc.channel).Nodup := by decide
  have spared : ∀ round ∈ rounds, round.Spares (start.1.motors.map Esc.channel) := by
    simp [rounds, Round.Spares, Timer.Disturbance.Spares]
  have executed := (execute_follows_hardware.1 quad quad_reachable distinct c failing).1
  have backed := (execute_follows_hardware.2 start quad_reachable distinct rounds spared).2
  exact ⟨by decide, executed, by decide, by decide, by decide, backed⟩

end Mixer

end Multirotor
