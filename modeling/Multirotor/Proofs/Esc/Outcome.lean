import Multirotor.Proofs.Mixer.Reachable
import Multirotor.Proofs.Timer.Isolation

/-!
# Outcomes of ESC operations

An ESC in use tries its writes on its own channel, and what becomes of it is up to the answers of
the timer.  A released ESC does nothing at all.
-/

namespace Multirotor

theorem Bench.write_eq (b : Bench) (w : Write) :
    b.write w = (b.timer.answer w, { b with timer := (b.timer.set w).2 }) := by
  rw [write, b.timer.set_answer]

namespace Esc

variable {e : Esc} {bench : Bench} {reason : WriteError}

theorem drive_eq (initialized : e.lifecycle = .initialized) {speed : Binary32}
    (legal : 0 ≤ speed ∧ speed ≤ 1) (bench : Bench) :
    e.drive speed bench =
      ((bench.timer.answer (e.speedWrite speed)).mapError .ofWrite,
        (bench.write (e.speedWrite speed)).2) := by
  rw [drive, initialized]
  simp only [if_pos legal, Bench.write_eq]
  rcases bench.timer.answer (e.speedWrite speed) with reason | _ <;> rfl

/-! ## Stopping and releasing -/

theorem stop_spec (initialized : e.lifecycle = .initialized) (bench : Bench) :
    (e.stop bench).1 = (bench.timer.answer (.stop e.channel)).mapError .stopFailed ∧
      (e.stop bench).2.2 = (bench.write (.stop e.channel)).2 := by
  rw [stop, initialized]
  simp only [Bench.write_eq]
  rcases bench.timer.answer (.stop e.channel) with reason | _ <;> exact ⟨rfl, rfl⟩

theorem stop_of_accepted (initialized : e.lifecycle = .initialized)
    (accepted : bench.timer.refusal? (.stop e.channel) = none) :
    e.stop bench =
      (.ok (), { e with arming := .disarmed }, (bench.write (.stop e.channel)).2) := by
  rw [stop, initialized]
  simp only [Bench.write_eq, Timer.answer, accepted]

theorem stop_of_refused (initialized : e.lifecycle = .initialized)
    (refused : bench.timer.refusal? (.stop e.channel) = some reason) :
    e.stop bench = (.error (.stopFailed reason), e, (bench.write (.stop e.channel)).2) := by
  rw [stop, initialized]
  simp only [Bench.write_eq, Timer.answer, refused]

theorem release_of_accepted (initialized : e.lifecycle = .initialized)
    (accepted : bench.timer.refusal? (.stop e.channel) = none) :
    e.release bench =
      (.ok (), { e with lifecycle := .uninitialized, arming := .disarmed },
        (bench.write (.stop e.channel)).2) := by
  rw [release, stop_of_accepted initialized accepted]

theorem release_of_refused (initialized : e.lifecycle = .initialized)
    (refused : bench.timer.refusal? (.stop e.channel) = some reason) :
    e.release bench = (.error (.stopFailed reason), e, (bench.write (.stop e.channel)).2) := by
  rw [release, stop_of_refused initialized refused]

theorem release_spec (initialized : e.lifecycle = .initialized) (bench : Bench) :
    (e.release bench).1 = (bench.timer.answer (.stop e.channel)).mapError .stopFailed ∧
      (e.release bench).2.2 = (bench.write (.stop e.channel)).2 := by
  rw [← (stop_spec initialized bench).1, ← (stop_spec initialized bench).2, release]
  rcases e.stop bench with ⟨source | _, e', after⟩ <;> exact ⟨rfl, rfl⟩

/-! ## Arming -/

theorem beginArm_of_accepted (initialized : e.lifecycle = .initialized)
    (accepted : bench.timer.refusal? e.armingWrite = none) (nowUs : Nat) :
    e.beginArm nowUs bench =
      (.ok (), { e with arming := .arming nowUs }, (bench.write e.armingWrite).2) := by
  rw [beginArm, initialized]
  simp only [Bench.write_eq, Timer.answer, accepted]

/-- An ESC that cannot take up arming is stopped. -/
theorem beginArm_of_refused (initialized : e.lifecycle = .initialized)
    (refused : bench.timer.refusal? e.armingWrite = some reason) (nowUs : Nat) :
    ∃ after : Bench, after.timer = (bench.timer.set e.armingWrite).2 ∧
      (e.beginArm nowUs bench).1 = .error (.armingFailed reason) ∧
      (e.beginArm nowUs bench).2.1 = (e.stop after).2.1 ∧
      (e.beginArm nowUs bench).2.2.timer = (e.stop after).2.2.timer := by
  refine ⟨(bench.write e.armingWrite).2.log (.escArmingRefused e.channel reason), rfl, ?_⟩
  rw [beginArm, initialized]
  simp only [Bench.write_eq, Timer.answer, refused]
  split <;> rename_i stopped <;> rw [stopped] <;> exact ⟨rfl, rfl, rfl⟩

/-- An ESC that takes up arming changes nothing else, and its arming pulse was taken. -/
theorem beginArm_ok {e' : Esc} {nowUs : Nat} {bench' : Bench}
    (begun : e.beginArm nowUs bench = (.ok (), e', bench')) :
    e' = { e with arming := .arming nowUs } ∧ bench'.timer.Agrees bench.timer ∧
      bench.timer.refusal? e.armingWrite = none := by
  rcases lifecycle : e.lifecycle
  · rcases refused : bench.timer.refusal? e.armingWrite with _ | reason
    · rw [beginArm_of_accepted lifecycle refused] at begun
      cases begun
      exact ⟨by rw [lifecycle], bench.timer.set_agrees _, rfl⟩
    · obtain ⟨_, _, failed, _⟩ := beginArm_of_refused lifecycle refused nowUs
      rw [begun] at failed
      cases failed
  · rw [beginArm, lifecycle] at begun
    cases begun

/-! ## Where an ESC writes -/

theorem drive_confined (e : Esc) (speed : Binary32) (bench : Bench) :
    Timer.Confined [e.channel] bench.timer (e.drive speed bench).2.timer := by
  rcases lifecycle : e.lifecycle
  · by_cases legal : 0 ≤ speed ∧ speed ≤ 1
    · rw [drive_eq lifecycle legal]
      exact .set bench.timer (e.speedWrite speed)
    · simp only [drive, lifecycle, if_neg legal]
      exact .refl _ _
  · rw [drive, lifecycle]
    exact .refl _ _

theorem stop_confined (e : Esc) (bench : Bench) :
    Timer.Confined [e.channel] bench.timer (e.stop bench).2.2.timer := by
  rcases lifecycle : e.lifecycle
  · rw [(stop_spec lifecycle bench).2]
    exact .set bench.timer (.stop e.channel)
  · rw [stop, lifecycle]
    exact .refl _ _

theorem beginArm_confined (e : Esc) (nowUs : Nat) (bench : Bench) :
    Timer.Confined [e.channel] bench.timer (e.beginArm nowUs bench).2.2.timer := by
  rcases lifecycle : e.lifecycle
  · have arming_write : Timer.Confined [e.channel] bench.timer (bench.timer.set e.armingWrite).2 :=
      .set bench.timer e.armingWrite
    rcases refused : bench.timer.refusal? e.armingWrite with _ | reason
    · rw [beginArm_of_accepted lifecycle refused]
      exact arming_write
    · obtain ⟨after, written, _, _, stopped⟩ := beginArm_of_refused lifecycle refused nowUs
      rw [stopped]
      exact arming_write.trans (written ▸ e.stop_confined after)
  · rw [beginArm, lifecycle]
    exact .refl _ _

theorem release_confined (e : Esc) (bench : Bench) :
    Timer.Confined [e.channel] bench.timer (e.release bench).2.2.timer := by
  have stopped := e.stop_confined bench
  rw [release]
  split <;> rename_i outcome <;> rw [outcome] at stopped <;> exact stopped

/-! ## After the release -/

/-- Nothing can be done with the ESC, and nothing is written. -/
structure Retired (e : Esc) : Prop where
  drive (speed : Binary32) (bench : Bench) : e.drive speed bench = (.error .notInitialized, bench)
  stop (bench : Bench) : e.stop bench = (.error .notInitialized, e, bench)
  beginArm (nowUs : Nat) (bench : Bench) :
    e.beginArm nowUs bench = (.error .notInitialized, e, bench)
  pollArm (nowUs : Nat) : e.pollArm nowUs = (.error .notInitialized, e)
  arm (nowUs : Nat) (bench : Bench) : e.arm nowUs bench = (.error .notInitialized, e, bench)
  release (bench : Bench) : e.release bench = (.error .notInitialized, e, bench)

theorem retired_of_uninitialized (uninitialized : e.lifecycle = .uninitialized) : e.Retired := by
  constructor
  all_goals
    intros
    simp only [drive, stop, beginArm, pollArm, arm, release, uninitialized]

end Esc

end Multirotor
