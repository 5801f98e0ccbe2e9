import Multirotor.Proofs.Esc.Outcome
import Multirotor.Proofs.Esc.PulseRange

/-!
# The state of an ESC tells its signal

An ESC that is arming or armed has a pulse of its protocol on its channel, and a released one has
none.  Every single operation keeps this, whatever the timer refuses, and so does everything that
happens to the device as long as nobody else writes on the channel.
-/

namespace Multirotor.Esc

/-- What the ESC believes about its output is true of the timer. -/
structure Truthful (e : Esc) (t : Timer) : Prop where
  /-- The timing belongs to the protocol. -/
  tuned : e.Tuned
  /-- Unless it is disarmed, the ESC sees a pulse. -/
  live : e.arming ≠ .disarmed → ∃ w, t.output? e.channel = some w ∧ e.protocol.Carries w
  /-- After its release the ESC is disarmed and its output low. -/
  released : e.lifecycle = .uninitialized →
    e.arming = .disarmed ∧ t.output? e.channel = some (.stop e.channel)

namespace Truthful

variable {e : Esc} {t u : Timer} {bench : Bench}

theorem of_output?_eq (truthful : e.Truthful t)
    (same : u.output? e.channel = t.output? e.channel) : e.Truthful u := by
  constructor
  · exact truthful.tuned
  · rw [same]
    exact truthful.live
  · rw [same]
    exact truthful.released

/-- The output changes to a pulse of the protocol. -/
theorem of_carries (tuned : e.Tuned) (initialized : e.lifecycle = .initialized) {w : Write}
    (output : t.output? e.channel = some w) (carries : e.protocol.Carries w) :
    e.Truthful t where
  tuned := tuned
  live _ := ⟨w, output, carries⟩
  released uninitialized := by simp [initialized] at uninitialized

/-- An ESC that sees a pulse may go on in arming. -/
theorem withArming (truthful : e.Truthful t) (live : e.arming ≠ .disarmed) (arming : Arming) :
    Truthful { e with arming := arming } t where
  tuned := truthful.tuned
  live _ := truthful.live live
  released uninitialized := absurd (truthful.released uninitialized).1 live

theorem disarmed (truthful : e.Truthful t) (initialized : e.lifecycle = .initialized) (u : Timer) :
    Truthful { e with arming := .disarmed } u where
  tuned := truthful.tuned
  live armed := absurd rfl armed
  released uninitialized := by simp [initialized] at uninitialized

/-! ## Operations -/

theorem drive (truthful : e.Truthful bench.timer) (speed : Binary32) :
    e.Truthful (e.drive speed bench).2.timer := by
  rcases lifecycle : e.lifecycle
  · by_cases legal : 0 ≤ speed ∧ speed ≤ 1
    · rw [drive_eq lifecycle legal]
      rcases refused : bench.timer.refusal? (e.speedWrite speed) with _ | reason
      · exact of_carries truthful.tuned lifecycle (Timer.output?_set_of_accepted refused)
          (truthful.tuned.speedWrite_carries legal)
      · exact truthful.of_output?_eq (Timer.output?_set_of_refused (by simp [refused]) _)
    · simp only [Esc.drive, lifecycle, if_neg legal]
      exact truthful
  · rw [(retired_of_uninitialized lifecycle).drive]
    exact truthful

theorem stop (truthful : e.Truthful bench.timer) :
    (e.stop bench).2.1.Truthful (e.stop bench).2.2.timer := by
  rcases lifecycle : e.lifecycle
  · rcases refused : bench.timer.refusal? (.stop e.channel) with _ | reason
    · rw [stop_of_accepted lifecycle refused]
      exact truthful.disarmed lifecycle _
    · rw [stop_of_refused lifecycle refused]
      exact truthful.of_output?_eq (Timer.output?_set_of_refused (by simp [refused]) _)
  · rw [(retired_of_uninitialized lifecycle).stop]
    exact truthful

theorem beginArm (truthful : e.Truthful bench.timer) (nowUs : Nat) :
    (e.beginArm nowUs bench).2.1.Truthful (e.beginArm nowUs bench).2.2.timer := by
  rcases lifecycle : e.lifecycle
  · rcases refused : bench.timer.refusal? e.armingWrite with _ | reason
    · rw [beginArm_of_accepted lifecycle refused]
      exact of_carries (e := { e with arming := .arming nowUs }) truthful.tuned lifecycle
        (Timer.output?_set_of_accepted refused) truthful.tuned.armingWrite_carries
    · -- the refused pulse is not on the output, and the stop that follows may be refused as well
      obtain ⟨after, written, _, same, stopped⟩ := beginArm_of_refused lifecycle refused nowUs
      have kept : e.Truthful after.timer := by
        rw [written]
        exact truthful.of_output?_eq (Timer.output?_set_of_refused (by simp [refused]) _)
      rw [same, stopped]
      exact kept.stop
  · rw [(retired_of_uninitialized lifecycle).beginArm]
    exact truthful

theorem pollArm (truthful : e.Truthful t) (nowUs : Nat) : (e.pollArm nowUs).2.Truthful t := by
  rw [Esc.pollArm]
  split
  · exact truthful
  split
  · exact truthful
  · exact truthful
  · rename_i sinceUs arming
    split
    · exact truthful.withArming (by simp [arming]) .armed
    · exact truthful

/-- Arming that has begun has its pulse on the output, so the wait may end in any way. -/
theorem arm (truthful : e.Truthful bench.timer) (nowUs : Nat) :
    (e.arm nowUs bench).2.1.Truthful (e.arm nowUs bench).2.2.timer := by
  have begun := truthful.beginArm nowUs
  rcases outcome : e.beginArm nowUs bench with ⟨reason | _, e', after⟩ <;>
    simp only [Esc.arm, outcome] at begun ⊢
  · exact begun
  · exact begun.withArming (by simp [(beginArm_ok outcome).1]) .armed

theorem release (truthful : e.Truthful bench.timer) :
    (e.release bench).2.1.Truthful (e.release bench).2.2.timer := by
  rcases lifecycle : e.lifecycle
  · rcases refused : bench.timer.refusal? (.stop e.channel) with _ | reason
    · rw [release_of_accepted lifecycle refused]
      constructor
      · exact truthful.tuned
      · exact fun armed => absurd rfl armed
      · exact fun _ => ⟨rfl, Timer.output?_set_of_accepted refused⟩
    · rw [release_of_refused lifecycle refused]
      exact truthful.of_output?_eq (Timer.output?_set_of_refused (by simp [refused]) _)
  · rw [(retired_of_uninitialized lifecycle).release]
    exact truthful

theorem perform (truthful : e.Truthful bench.timer) (operation : Operation) :
    (e.perform bench operation).1.Truthful (e.perform bench operation).2.timer := by
  cases operation with
  | drive speed => exact truthful.drive speed
  | stop => exact truthful.stop
  | beginArm nowUs => exact truthful.beginArm nowUs
  | pollArm nowUs => exact truthful.pollArm nowUs
  | arm nowUs => exact truthful.arm nowUs
  | release => exact truthful.release

end Truthful

theorem truthful_of_configure {channel : UInt32} {protocol : Protocol} {settings : EscSettings}
    {e : Esc} {before after : Bench}
    (configured : configure channel protocol settings before = (.ok e, after)) (t : Timer) :
    e.channel = channel ∧ e.protocol = protocol ∧ e.Truthful t := by
  have tuned := tuned_of_configure configured
  rw [configure] at configured
  split at configured
  · cases configured
  · split at configured
    · cases configured
    · cases configured
      refine ⟨rfl, rfl, tuned, fun armed => absurd rfl armed, ?_⟩
      rintro ⟨⟩

/-! ## Runs -/

/-- The ESC is operated, or something else happens to the device. -/
inductive Step where
  | operate (operation : Operation)
  | disturb (disturbance : Timer.Disturbance)

/-- The ESC and the bench after a step. -/
def advance (s : Esc × Bench) : Step → Esc × Bench
  | .operate operation => s.1.perform s.2 operation
  | .disturb disturbance => (s.1, { s.2 with timer := s.2.timer.disturb disturbance })

/-- Nobody but the ESC writes on the channel. -/
def Step.Spares (channel : UInt32) : Step → Prop
  | .operate _ => True
  | .disturb disturbance => disturbance.Spares channel

theorem advance_fixed (s : Esc × Bench) (step : Step) :
    (advance s step).1.channel = s.1.channel ∧ (advance s step).1.protocol = s.1.protocol := by
  cases step with
  | operate operation =>
    obtain ⟨lifecycle, arming, same⟩ := s.1.perform_eq s.2 operation
    rw [advance, same]
    exact ⟨rfl, rfl⟩
  | disturb disturbance => exact ⟨rfl, rfl⟩

theorem Truthful.advance {s : Esc × Bench} (truthful : s.1.Truthful s.2.timer) {step : Step}
    (spares : step.Spares s.1.channel) :
    (advance s step).1.Truthful (advance s step).2.timer := by
  cases step with
  | operate operation => exact truthful.perform operation
  | disturb disturbance => exact truthful.of_output?_eq (s.2.timer.output?_disturb spares)

theorem Truthful.run {s : Esc × Bench} (truthful : s.1.Truthful s.2.timer) {steps : List Step}
    (spared : ∀ step ∈ steps, step.Spares s.1.channel) :
    let last := steps.foldl Esc.advance s
    last.1.channel = s.1.channel ∧ last.1.protocol = s.1.protocol ∧
      last.1.Truthful last.2.timer := by
  induction steps generalizing s with
  | nil => exact ⟨rfl, rfl, truthful⟩
  | cons step steps induction =>
    obtain ⟨spares, spared⟩ := List.forall_mem_cons.mp spared
    obtain ⟨channel, protocol⟩ := advance_fixed s step
    have rest := induction (truthful.advance spares) (by rwa [channel])
    rw [channel, protocol] at rest
    exact rest

/-- A released ESC stays as it is, whatever comes. -/
theorem Retired.run {e : Esc} (retired : e.Retired) (bench : Bench) (steps : List Step) :
    (steps.foldl advance (e, bench)).1 = e := by
  induction steps generalizing bench with
  | nil => rfl
  | cons step steps induction =>
    have same : (advance (e, bench) step).1 = e := by
      cases step with
      | disturb disturbance => rfl
      | operate operation =>
        cases operation <;>
          simp only [advance, perform, retired.stop, retired.beginArm, retired.pollArm,
            retired.arm, retired.release]
    have rest := induction (advance (e, bench) step).2
    rw [List.foldl_cons]
    nth_rewrite 1 [← same] at rest
    exact rest

/-- After any run of operations and disturbances that keep off its channel, an ESC that is arming or
armed has a pulse of its protocol on its output; and one that is released is disarmed for good, has
its output low and refuses every operation. -/
theorem signal_truthful {channel : UInt32} {protocol : Protocol} {settings : EscSettings} {e : Esc}
    {before after : Bench}
    (configured : configure channel protocol settings before = (.ok e, after))
    {steps : List Step} (spared : ∀ step ∈ steps, step.Spares channel) {e' : Esc} {bench : Bench}
    (reached : steps.foldl advance (e, after) = (e', bench)) :
    (e'.arming ≠ .disarmed →
        ∃ w, bench.timer.output? channel = some w ∧ protocol.Carries w ∧ ¬ w.IsStop) ∧
      (e'.lifecycle = .uninitialized →
        e'.arming = .disarmed ∧ bench.timer.output? channel = some (.stop channel) ∧
          e'.Retired ∧ ∀ later : List Step, (later.foldl advance (e', bench)).1 = e') := by
  obtain ⟨rfl, rfl, truthful⟩ := truthful_of_configure configured after.timer
  obtain ⟨same_channel, same_protocol, truthful⟩ := Truthful.run (s := (e, after)) truthful spared
  simp only [reached] at same_channel same_protocol truthful
  rw [← same_channel, ← same_protocol]
  constructor
  · intro live
    obtain ⟨w, output, carries⟩ := truthful.live live
    exact ⟨w, output, carries, carries.not_isStop⟩
  · intro uninitialized
    obtain ⟨disarmed, output⟩ := truthful.released uninitialized
    have retired := retired_of_uninitialized uninitialized
    exact ⟨disarmed, output, retired, retired.run bench⟩

/-- The ESC of a channel that fails in flight keeps its arming pulse, and can be released only after
the channel has recovered. -/
theorem signal_truthful_failing_channel :
    let p := Protocol.oneShot125
    let start : Esc × Bench :=
      (fresh 3 p, Bench.log { timer := .bench 4 } (.escConfigured 3 p p.timing))
    let failing : List Step :=
      [.operate (.arm 0), .disturb (.injectFault 3 .writeFailed), .operate (.drive 1),
        .operate .release]
    let recovered : List Step := failing ++ [.disturb .clearFaults, .operate .release]
    (∃ w, (failing.foldl advance start).2.timer.output? 3 = some w ∧
        p.Carries w ∧ ¬ w.IsStop) ∧
      (recovered.foldl advance start).1.lifecycle = .uninitialized ∧
      (recovered.foldl advance start).2.timer.output? 3 = some (.stop 3) := by
  intro p start failing recovered
  have configured := configure_fresh 3 .oneShot125 { timer := .bench 4 } rfl
  have undisturbed : ∀ step ∈ recovered, step.Spares 3 := by
    simp [recovered, failing, Step.Spares, Timer.Disturbance.Spares]
  have armed : (failing.foldl advance start).1.arming ≠ .disarmed := by decide
  have released : (recovered.foldl advance start).1.lifecycle = .uninitialized := by decide
  have kept := signal_truthful configured
    (fun step mem => undisturbed step (List.mem_append_left _ mem))
    (Prod.mk.eta (p := failing.foldl advance start)).symm
  have gone := signal_truthful configured undisturbed
    (Prod.mk.eta (p := recovered.foldl advance start)).symm
  exact ⟨kept.1 armed, released, (gone.2 released).2.1⟩

end Multirotor.Esc
