import Multirotor.Proofs.Mixer.Cleared
import Multirotor.Proofs.Mixer.Release

/-!
# Operations without incident

An operation goes smoothly if every write that it attempts is accepted and nothing is reported that
the control loop would report.  What goes smoothly step by step goes smoothly as a whole, and so
does everything that is done with a cleared mixer.
-/

namespace Multirotor

/-- Writes that were all accepted lead from one timer to the other. -/
def Timer.Served (t u : Timer) : Prop :=
  ∃ ws : List Write, (∀ w ∈ ws, t.refusal? w = none) ∧ u = (t.attemptAll ws).2

namespace Timer

variable {t u v : Timer}

theorem throughRefusal_eq_self {ws : List Write} (accepted : ∀ w ∈ ws, t.refusal? w = none) :
    t.throughRefusal ws = ws := by
  induction ws with
  | nil => rfl
  | cons w ws induction =>
    obtain ⟨first, rest⟩ := List.forall_mem_cons.mp accepted
    rw [throughRefusal, if_pos first, induction rest]

namespace Served

theorem refl (t : Timer) : t.Served t := ⟨[], by simp, rfl⟩

theorem attemptAll {ws : List Write} (accepted : ∀ w ∈ ws, t.refusal? w = none) :
    t.Served (t.attemptAll ws).2 :=
  ⟨ws, accepted, rfl⟩

theorem agrees (served : t.Served u) : u.Agrees t := by
  obtain ⟨ws, _, rfl⟩ := served
  exact t.attemptAll_agrees ws

theorem trans (first : t.Served u) (second : u.Served v) : t.Served v := by
  have agrees := first.agrees
  obtain ⟨ws, accepted, rfl⟩ := first
  obtain ⟨ws', accepted', rfl⟩ := second
  refine ⟨ws ++ ws', fun w mem => ?_, (attemptAll_append t ws ws').symm⟩
  rcases List.mem_append.mp mem with early | late
  · exact accepted w early
  · exact (agrees.refusal?_eq w).symm.trans (accepted' w late)

end Served

end Timer

namespace Bench

/-- The control loop has reported nothing between two states of a bench. -/
def Quiet (before after : Bench) : Prop :=
  ∃ events, after.journal.toList = before.journal.toList ++ events ∧
    ∀ event ∈ events, event.reporter ≠ .controlLoop

/-- Every write between two states of a bench was accepted, and the control loop has reported
nothing. -/
structure Smooth (before after : Bench) : Prop where
  timer : before.timer.Served after.timer
  journal : before.Quiet after

variable {a b c : Bench}

namespace Quiet

theorem of_eq (same : b.journal = a.journal) : a.Quiet b := ⟨[], by simp [same], by simp⟩

theorem trans (first : a.Quiet b) (second : b.Quiet c) : a.Quiet c := by
  obtain ⟨events, grown, fine⟩ := first
  obtain ⟨events', grown', fine'⟩ := second
  refine ⟨events ++ events', by rw [grown', grown, List.append_assoc], fun event mem => ?_⟩
  exact (List.mem_append.mp mem).elim (fine event) (fine' event)

theorem log (b : Bench) {event : Event} (fine : event.reporter ≠ .controlLoop) :
    b.Quiet (b.log event) :=
  ⟨[event], by simp [Bench.log], by simpa using fine⟩

end Quiet

namespace Smooth

theorem refl (b : Bench) : b.Smooth b := ⟨.refl _, .of_eq rfl⟩

theorem trans (first : a.Smooth b) (second : b.Smooth c) : a.Smooth c :=
  ⟨first.timer.trans second.timer, first.journal.trans second.journal⟩

theorem log (b : Bench) {event : Event} (fine : event.reporter ≠ .controlLoop) :
    b.Smooth (b.log event) :=
  ⟨.refl _, .log b fine⟩

theorem write {w : Write} (accepted : b.timer.refusal? w = none) : b.Smooth (b.write w).2 :=
  ⟨⟨[w], by simpa using accepted, rfl⟩, .of_eq rfl⟩

end Smooth

end Bench

/-! ## What is reported -/

theorem Esc.journal_drive (e : Esc) (speed : Binary32) (bench : Bench) :
    (e.drive speed bench).2.journal = bench.journal := by
  rcases lifecycle : e.lifecycle
  · by_cases legal : 0 ≤ speed ∧ speed ≤ 1
    · rw [drive_eq lifecycle legal]
      rfl
    · simp only [drive, lifecycle, if_neg legal]
  · rw [drive, lifecycle]

namespace Mixer

theorem journal_driveFrom (motors : List Esc) (speeds outputs : List Binary32) (index : Nat)
    (bench : Bench) :
    (driveFrom index motors speeds outputs bench).2.2.journal = bench.journal := by
  induction motors generalizing speeds outputs index bench with
  | nil => rfl
  | cons motor motors induction =>
    rcases speeds with _ | ⟨speed, speeds⟩
    · rfl
    rcases outputs with _ | ⟨output, outputs⟩
    · rfl
    have first := motor.journal_drive speed bench
    rw [driveFrom]
    rcases outcome : motor.drive speed bench with ⟨source | _, after⟩ <;> rw [outcome] at first
    · exact first
    · exact (induction speeds outputs _ after).trans first

theorem journal_execute (m : Mixer) (c : Command) (bench : Bench) :
    (m.execute c bench).2.2.journal = bench.journal := by
  rw [execute]
  split
  · rfl
  split
  · dsimp only
    split
    · rfl
    · exact journal_driveFrom _ _ _ _ _
  · rfl

/-- Stopping every motor reports failures at most. -/
theorem quiet_forEachFrom {operation : Esc → Bench → Except EscError Unit × Esc × Bench}
    (stops : ∀ (e : Esc) (bench : Bench), e.lifecycle = .initialized →
      (operation e bench).2.2 = (bench.write (.stop e.channel)).2)
    {motors : List Esc} (initialized : ∀ e ∈ motors, e.lifecycle = .initialized)
    {report : Nat → EscError → Event}
    (fine : ∀ number source, (report number source).reporter ≠ .controlLoop) (index : Nat)
    (bench : Bench) : bench.Quiet (forEachFrom index operation report motors bench).2.2 := by
  induction motors generalizing index bench with
  | nil => exact .of_eq rfl
  | cons motor motors induction =>
    obtain ⟨in_use, initialized⟩ := List.forall_mem_cons.mp initialized
    have written := stops motor bench in_use
    have first : bench.Quiet (operation motor bench).2.2 := .of_eq (by rw [written]; rfl)
    rw [forEachFrom]
    rcases outcome : operation motor bench with ⟨source | _, motor', after⟩ <;>
      rw [outcome] at first
    · have reported := Bench.Quiet.log after (fine (index + 1) source)
      exact (first.trans reported).trans (induction initialized _ _)
    · exact first.trans (induction initialized _ _)

/-! ## Arming and flying -/

theorem beginArmFrom_of_accepted {motors : List Esc} {bench : Bench}
    (initialized : ∀ e ∈ motors, e.lifecycle = .initialized)
    (accepted : ∀ e ∈ motors, bench.timer.refusal? e.armingWrite = none) (index : Nat)
    (clock : Nat → Nat) :
    (beginArmFrom index clock motors bench).1 = .ok () ∧
      bench.Smooth (beginArmFrom index clock motors bench).2.2 := by
  induction motors generalizing index bench with
  | nil => exact ⟨rfl, .refl bench⟩
  | cons motor motors induction =>
    obtain ⟨in_use, initialized⟩ := List.forall_mem_cons.mp initialized
    obtain ⟨taken, accepted⟩ := List.forall_mem_cons.mp accepted
    have first := Bench.Smooth.write taken
    have later (e : Esc) (mem : e ∈ motors) :
        (bench.write motor.armingWrite).2.timer.refusal? e.armingWrite = none :=
      (first.timer.agrees.refusal?_eq _).trans (accepted e mem)
    have rest := induction initialized later (index + 1)
    simp only [beginArmFrom, Esc.beginArm_of_accepted in_use taken]
    exact ⟨rest.1, first.trans rest.2⟩

/-- A complete mixer can be armed if the timer takes every arming pulse. -/
theorem armAll_of_accepted {m : Mixer} {bench : Bench} (complete : m.checkComplete = .ok ())
    (serviceable : m.Serviceable)
    (accepted : ∀ e ∈ m.motors, bench.timer.refusal? e.armingWrite = none) (clock : Nat → Nat) :
    ∃ m' after, m.armAll clock bench = (.ok (), m', after) ∧ bench.Smooth after := by
  obtain ⟨outcome, smooth⟩ := beginArmFrom_of_accepted
    (fun e mem => (serviceable e mem).initialized) accepted 0 clock
  rcases begun : beginArmFrom 0 clock m.motors bench with ⟨result, motors, after⟩
  rw [begun] at outcome smooth
  obtain rfl : result = .ok () := outcome
  simp only [armAll, complete, begun]
  let waited := (after.log (.motorsArming motors.length (longestArmMs motors))).hold
    (longestArmMs motors)
  have announced : after.Smooth waited := ⟨.refl _, .log after (by simp [Event.reporter])⟩
  have armed : waited.Smooth (waited.log .motorsArmed) := .log waited (by simp [Event.reporter])
  exact ⟨_, _, rfl, (smooth.trans announced).trans armed⟩

namespace Cleared

variable {m : Mixer} {bench : Bench}

theorem execute_smooth (cleared : m.Cleared bench.timer) {c : Command} (inBounds : c.InBounds) :
    bench.Smooth (m.execute c bench).2.2 where
  timer := by
    have accepted := cleared.speedWrites_accepted inBounds
    rw [(execute_spec cleared.complete cleared.serviceable inBounds bench).2,
      Timer.throughRefusal_eq_self accepted]
    exact .attemptAll accepted
  journal := .of_eq (m.journal_execute c bench)

theorem stopAll_smooth (cleared : m.Cleared bench.timer) :
    bench.Smooth (m.stopAll bench).2.2 := by
  have initialized := (checkComplete_eq_ok cleared.complete).1
  constructor
  · rw [(stopAll_spec initialized cleared.serviceable bench).2]
    exact .attemptAll cleared.stopWrites_accepted
  · have stopped : bench.Quiet (forEachFrom 0 Esc.stop .motorStopFailed m.motors bench).2.2 :=
      quiet_forEachFrom (fun _ bench in_use => (Esc.stop_spec in_use bench).2)
        (fun e mem => (cleared.serviceable e mem).initialized)
        (fun _ _ => by simp [Event.reporter]) 0 bench
    rw [Mixer.stopAll, initialized]
    rcases outcome : forEachFrom 0 Esc.stop .motorStopFailed m.motors bench with
      ⟨e | _, motors, after⟩ <;> rw [outcome] at stopped
    · exact stopped
    · exact stopped.trans (.log after (by simp [Event.reporter]))

/-- A cleared mixer can be released, and every motor is left with its output low. -/
theorem release_smooth (cleared : m.Cleared bench.timer) :
    (m.release bench).1 = .ok () ∧ bench.Smooth (m.release bench).2.2 ∧
      ∀ e ∈ m.motors, (m.release bench).2.2.timer.output? e.channel = some (.stop e.channel) := by
  have initialized := (checkComplete_eq_ok cleared.complete).1
  have in_use (e : Esc) (mem : e ∈ m.motors) := (cleared.serviceable e mem).initialized
  have accepted := cleared.stopWrites_accepted
  obtain ⟨outcome, written, _⟩ := release_spec initialized in_use bench
  refine ⟨outcome.trans (Timer.firstFailure_eq_ok_iff.mpr accepted), ⟨?_, ?_⟩, fun e mem => ?_⟩
  · rw [written]
    exact .attemptAll accepted
  · rw [Mixer.release, initialized]
    exact quiet_forEachFrom (fun _ bench in_use => (Esc.release_spec in_use bench).2) in_use
      (fun _ _ => by simp [Event.reporter]) 0 bench
  · rw [written]
    exact output?_stopWrites mem (accepted _ (List.mem_map_of_mem mem))

end Cleared

end Mixer

end Multirotor
