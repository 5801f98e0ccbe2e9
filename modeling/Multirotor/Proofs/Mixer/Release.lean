import Multirotor.Proofs.Mixer.Execution

/-!
# Releasing a mixer

A release tries one stop on every motor.  The motors that take it leave the mixer, the others stay
as they are, and the mixer is given up exactly if none stays.
-/

namespace Multirotor.Mixer

/-- The motors whose stop the timer refuses, in slot order. -/
def stranded (m : Mixer) (t : Timer) : List Esc :=
  m.motors.filter fun e => t.refusal? (.stop e.channel) ≠ none

variable {m : Mixer}

theorem stranded_eq_nil_iff {t : Timer} :
    m.stranded t = [] ↔ ∀ w ∈ m.stopWrites, t.refusal? w = none := by
  simp [stranded, stopWrites, List.filter_eq_nil_iff]

/-- Only the motors that cannot be stopped are still in use after each was released. -/
theorem filter_forEachFrom_release {motors : List Esc}
    (initialized : ∀ e ∈ motors, e.lifecycle = .initialized) (report : Nat → EscError → Event)
    (t : Timer) (index : Nat) {bench : Bench} (agrees : bench.timer.Agrees t) :
    ((forEachFrom index Esc.release report motors bench).2.1.filter
        fun e => e.lifecycle = .initialized) =
      motors.filter fun e => t.refusal? (.stop e.channel) ≠ none := by
  induction motors generalizing index bench with
  | nil => rfl
  | cons motor motors induction =>
    obtain ⟨in_use, initialized⟩ := List.forall_mem_cons.mp initialized
    have later : (bench.write (.stop motor.channel)).2.timer.Agrees t :=
      (bench.timer.set_agrees _).trans agrees
    rw [forEachFrom]
    rcases refused : t.refusal? (.stop motor.channel) with _ | reason
    · rw [Esc.release_of_accepted in_use ((agrees.refusal?_eq _).trans refused)]
      simpa [refused] using induction initialized (index + 1) later
    · rw [Esc.release_of_refused in_use ((agrees.refusal?_eq _).trans refused)]
      let reported : Bench :=
        (bench.write (.stop motor.channel)).2.log (report (index + 1) (.stopFailed reason))
      have rest := induction initialized (index + 1) (show reported.timer.Agrees t from later)
      simpa [refused, in_use] using rest

/-- A release is one attempt at a stop for each motor in slot order, reports the first refusal and
keeps the motors that refuse. -/
theorem release_spec (initialized : m.lifecycle = .initialized)
    (in_use : ∀ e ∈ m.motors, e.lifecycle = .initialized) (bench : Bench) :
    (m.release bench).1 = bench.timer.firstFailure .stopFailed 0 m.stopWrites ∧
      (m.release bench).2.2.timer = (bench.timer.attemptAll m.stopWrites).2 ∧
      (m.release bench).2.1 =
        { m with
          motors := m.stranded bench.timer
          outputs := []
          lifecycle := if m.stranded bench.timer = [] then .uninitialized else .initialized } := by
  obtain ⟨outcome, written⟩ := forEachFrom_spec
    (fun _ bench in_use => Esc.release_spec in_use bench) in_use .motorReleaseFailed 0 bench
  have kept : ((forEachFrom 0 Esc.release .motorReleaseFailed m.motors bench).2.1.filter
      fun e => e.lifecycle = .initialized) = m.stranded bench.timer :=
    filter_forEachFrom_release in_use .motorReleaseFailed bench.timer 0 (.refl bench.timer)
  have given_up : bench.timer.firstFailure .stopFailed 0 m.stopWrites = .ok () ↔
      m.stranded bench.timer = [] :=
    Timer.firstFailure_eq_ok_iff.trans stranded_eq_nil_iff.symm
  rw [release, initialized]
  refine ⟨outcome, written, ?_⟩
  rcases failure : bench.timer.firstFailure .stopFailed 0 m.stopWrites with e | _
  · have stay : m.stranded bench.timer ≠ [] := fun none_stays => by
      rw [given_up.mpr none_stays] at failure
      cases failure
    simp only [outcome.trans failure, kept, if_neg stay]
  · have none_stays := given_up.mp failure
    simp only [outcome.trans failure, kept, if_pos none_stays]

/-- No motor that is still running gets lost in a release. -/
structure Released (m : Mixer) (bench : Bench) : Prop where
  /-- One stop is attempted for each motor, in slot order. -/
  attempts : (m.release bench).2.2.timer.attempts.toList =
    bench.timer.attempts.toList ++ m.stopWrites
  /-- The motors whose stop is refused stay as they are. -/
  motors : (m.release bench).2.1.motors = m.stranded bench.timer
  in_use : ∀ e ∈ (m.release bench).2.1.motors, e.lifecycle = .initialized
  outputs : (m.release bench).2.1.outputs = []
  /-- The mixer is given up if no motor stays; otherwise the first refusal is reported. -/
  outcome :
    m.stranded bench.timer = [] ∧ (m.release bench).1 = .ok () ∧
        (m.release bench).2.1.lifecycle = .uninitialized ∨
      m.stranded bench.timer ≠ [] ∧ (m.release bench).2.1.lifecycle = .initialized ∧
        ∃ index reason, bench.timer.FirstRefusal m.stopWrites index reason ∧
          (m.release bench).1 = .error (.actuatorFailure index (.stopFailed reason))

theorem released (initialized : m.lifecycle = .initialized)
    (in_use : ∀ e ∈ m.motors, e.lifecycle = .initialized) (bench : Bench) : m.Released bench := by
  obtain ⟨outcome, written, same⟩ := release_spec initialized in_use bench
  have motors : (m.release bench).2.1.motors = m.stranded bench.timer := by rw [same]
  refine ⟨?_, motors, fun e mem => ?_, by rw [same], ?_⟩
  · rw [written, Timer.attempts_attemptAll]
  · exact in_use e (List.mem_of_mem_filter (motors ▸ mem))
  · by_cases none_stays : m.stranded bench.timer = []
    · refine .inl ⟨none_stays, ?_, by rw [same, none_stays, if_pos rfl]⟩
      exact outcome.trans (Timer.firstFailure_eq_ok_iff.mpr (stranded_eq_nil_iff.mp none_stays))
    · refine .inr ⟨none_stays, by rw [same, if_neg none_stays], ?_⟩
      rcases failure : bench.timer.firstFailure .stopFailed 0 m.stopWrites with e | _
      · obtain ⟨index, reason, first, rfl⟩ := Timer.exists_firstRefusal failure
        exact ⟨index, reason, first, by rw [outcome, failure, Nat.zero_add]⟩
      · exact absurd (stranded_eq_nil_iff.mpr (Timer.firstFailure_eq_ok_iff.mp failure)) none_stays

end Multirotor.Mixer
