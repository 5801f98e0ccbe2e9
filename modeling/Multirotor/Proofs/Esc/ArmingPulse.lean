import Mathlib.Data.List.Induction
import Multirotor.Proofs.Esc.Signal

/-!
# What an ESC sees while it is arming

An arming goes on from the operation that began it as long as neither a stop nor another beginning
is accepted; a refused operation does not end it, and neither does a speed.  So the signal since
the beginning is the arming pulse and then the speeds that were accepted, and it is the arming pulse
throughout exactly if no accepted speed has another one.
-/

namespace Multirotor

/-- The writes accepted on a channel between two states of a timer, if the answers of the timer did
not change in between. -/
def Timer.taken (t u : Timer) (channel : UInt32) : List Write :=
  (u.attempts.toList.drop t.attempts.size).filter fun w =>
    w.channel = channel ∧ t.refusal? w = none

theorem Timer.taken_attemptAll (t : Timer) (ws : List Write) (channel : UInt32) :
    t.taken (t.attemptAll ws).2 channel =
      ws.filter fun w => w.channel = channel ∧ t.refusal? w = none := by
  rw [taken, attempts_attemptAll, ← Array.length_toList, List.drop_left]

theorem Timer.taken_self (t : Timer) (channel : UInt32) : t.taken t channel = [] :=
  t.taken_attemptAll [] channel

theorem Timer.taken_set (t : Timer) (w : Write) :
    t.taken (t.set w).2 w.channel = if t.refusal? w = none then [w] else [] := by
  refine (t.taken_attemptAll [w] w.channel).trans ?_
  by_cases accepted : t.refusal? w = none <;> simp [accepted]

/-- A refused write is not taken, and changes nothing about those behind it. -/
theorem Timer.taken_of_refused {t : Timer} {w : Write} (refused : t.refusal? w ≠ none)
    (ws : List Write) (channel : UInt32) :
    t.taken ((t.set w).2.attemptAll ws).2 channel =
      (t.set w).2.taken ((t.set w).2.attemptAll ws).2 channel := by
  have whole := t.taken_attemptAll (w :: ws) channel
  rw [attemptAll] at whole
  rw [whole, taken_attemptAll, List.filter_cons_of_neg (by simp [refused])]
  simp only [(t.set_agrees w).refusal?_eq]

namespace Esc

/-- What the steps of a run contribute to a list, in their order. -/
def collect (contribution : Esc × Bench → Step → List Write) (s : Esc × Bench) :
    List Step → List Write
  | [] => []
  | step :: steps => contribution s step ++ collect contribution (advance s step) steps

theorem collect_concat (contribution : Esc × Bench → Step → List Write) (s : Esc × Bench)
    (steps : List Step) (step : Step) :
    collect contribution s (steps ++ [step]) =
      collect contribution s steps ++ contribution (steps.foldl advance s) step := by
  induction steps generalizing s with
  | nil => simp [collect]
  | cons first steps induction => simp [collect, induction]

/-- The writes that a step gets accepted on the channel of the ESC. -/
def takenBy (s : Esc × Bench) (step : Step) : List Write :=
  s.2.timer.taken (advance s step).2.timer s.1.channel

/-- The pulse of the speed that a step gives the ESC, if it gives one and it is accepted. -/
def speedBy (s : Esc × Bench) : Step → List Write
  | .operate (.drive speed) =>
    match (s.1.drive speed s.2).1 with
    | .ok () => [s.1.speedWrite speed]
    | .error _ => []
  | _ => []

/-! ## One operation -/

variable {e : Esc} {bench : Bench} {since : Nat}

theorem taken_drive (e : Esc) (speed : Binary32) (bench : Bench) :
    bench.timer.taken (e.drive speed bench).2.timer e.channel =
      speedBy (e, bench) (.operate (.drive speed)) := by
  rw [speedBy]
  rcases lifecycle : e.lifecycle
  · by_cases legal : 0 ≤ speed ∧ speed ≤ 1
    · have written := bench.timer.taken_set (e.speedWrite speed)
      simp only [drive_eq lifecycle legal, Timer.answer]
      rcases refused : bench.timer.refusal? (e.speedWrite speed) with _ | reason
      · rwa [refused, if_pos rfl] at written
      · rwa [refused, if_neg (by simp)] at written
    · simp only [drive, lifecycle, if_neg legal, Timer.taken_self]
  · simp only [(retired_of_uninitialized lifecycle).drive, Timer.taken_self]

/-- An arming that outlasts a stop is the same as before, and the stop was not accepted. -/
theorem stop_arming (arming : (e.stop bench).2.1.arming = .arming since) :
    e.arming = .arming since ∧
      bench.timer.taken (e.stop bench).2.2.timer e.channel = [] := by
  rcases lifecycle : e.lifecycle
  · rcases refused : bench.timer.refusal? (.stop e.channel) with _ | reason
    · rw [stop_of_accepted lifecycle refused] at arming
      cases arming
    · have written := bench.timer.taken_set (.stop e.channel)
      rw [refused, if_neg (by simp)] at written
      rw [stop_of_refused lifecycle refused] at arming ⊢
      exact ⟨arming, written⟩
  · rw [(retired_of_uninitialized lifecycle).stop] at arming ⊢
    exact ⟨arming, Timer.taken_self _ _⟩

/-- An ESC that is arming after the attempt to arm it has just begun, or goes on as before. -/
theorem beginArm_arming {nowUs : Nat}
    (arming : (e.beginArm nowUs bench).2.1.arming = .arming since) :
    (nowUs = since ∧ (e.beginArm nowUs bench).1 = .ok ()) ∨
      e.arming = .arming since ∧
        bench.timer.taken (e.beginArm nowUs bench).2.2.timer e.channel = [] := by
  rcases lifecycle : e.lifecycle
  · rcases refused : bench.timer.refusal? e.armingWrite with _ | reason
    · rw [beginArm_of_accepted lifecycle refused] at arming ⊢
      exact .inl ⟨Arming.arming.inj arming, rfl⟩
    · obtain ⟨after, written, _, same, stopped⟩ := beginArm_of_refused lifecycle refused nowUs
      rw [same] at arming
      obtain ⟨kept, nothing⟩ := stop_arming arming
      have attempted : (e.stop after).2.2.timer = (after.timer.attemptAll [.stop e.channel]).2 := by
        rw [(stop_spec lifecycle after).2]
        rfl
      refine .inr ⟨kept, ?_⟩
      rw [attempted, written] at nothing
      rw [stopped, attempted, written, Timer.taken_of_refused (by simp [refused]), nothing]
  · rw [(retired_of_uninitialized lifecycle).beginArm] at arming ⊢
    exact .inr ⟨arming, Timer.taken_self _ _⟩

theorem taken_beginArm {nowUs : Nat} (began : (e.beginArm nowUs bench).1 = .ok ()) :
    bench.timer.taken (e.beginArm nowUs bench).2.2.timer e.channel = [e.armingWrite] := by
  rcases lifecycle : e.lifecycle
  · rcases refused : bench.timer.refusal? e.armingWrite with _ | reason
    · have written := bench.timer.taken_set e.armingWrite
      rw [refused, if_pos rfl] at written
      rw [beginArm_of_accepted lifecycle refused]
      exact written
    · obtain ⟨_, _, failed, _⟩ := beginArm_of_refused lifecycle refused nowUs
      rw [began] at failed
      cases failed
  · rw [(retired_of_uninitialized lifecycle).beginArm] at began
    cases began

/-- An ESC that arms in one go is not left arming, so it goes on as before. -/
theorem arm_arming {nowUs : Nat} (arming : (e.arm nowUs bench).2.1.arming = .arming since) :
    e.arming = .arming since ∧ bench.timer.taken (e.arm nowUs bench).2.2.timer e.channel = [] := by
  have begun (arming : (e.beginArm nowUs bench).2.1.arming = .arming since) :=
    beginArm_arming arming
  rcases outcome : e.beginArm nowUs bench with ⟨reason | _, e', after⟩ <;>
    simp only [arm, outcome] at arming begun ⊢
  · exact (begun arming).resolve_left (by simp)
  · cases arming

theorem pollArm_arming {nowUs : Nat} (arming : (e.pollArm nowUs).2.arming = .arming since) :
    e.arming = .arming since := by
  rw [pollArm] at arming
  split at arming
  · exact arming
  · split at arming
    · exact arming
    · exact arming
    · split at arming
      · cases arming
      · exact arming

/-- Arming is complete once its duration is over. -/
theorem pollArm_armed {nowUs : Nat} (arming : e.arming = .arming since)
    (armed : (e.pollArm nowUs).2.arming = .armed) : e.armMs.toNat * 1000 ≤ nowUs - since := by
  rw [pollArm] at armed
  split at armed
  · simp [arming] at armed
  · simp only [arming] at armed
    split at armed
    · assumption
    · simp [arming] at armed

theorem release_arming (arming : (e.release bench).2.1.arming = .arming since) :
    e.arming = .arming since ∧ bench.timer.taken (e.release bench).2.2.timer e.channel = [] := by
  have stopped (arming : (e.stop bench).2.1.arming = .arming since) := stop_arming arming
  rcases outcome : e.stop bench with ⟨reason | _, e', after⟩ <;>
    simp only [release, outcome] at arming stopped ⊢ <;>
    exact stopped arming

/-! ## Runs -/

/-- Other parts that keep off the channel of the ESC get nothing accepted there. -/
theorem taken_disturb {t : Timer} {channel : UInt32} {disturbance : Timer.Disturbance}
    (spares : disturbance.Spares channel) : t.taken (t.disturb disturbance) channel = [] := by
  cases disturbance with
  | write w =>
    have elsewhere : w.channel ≠ channel := spares
    refine (t.taken_attemptAll [w] channel).trans ?_
    simp [elsewhere]
  | setReady => exact t.taken_self channel
  | injectFault => exact t.taken_self channel
  | clearFaults => exact t.taken_self channel

/-- A step that leaves the ESC arming has begun the arming, or has changed nothing but the speed. -/
theorem advance_arming {s : Esc × Bench} {step : Step} (spares : step.Spares s.1.channel)
    (arming : (advance s step).1.arming = .arming since) :
    (step = .operate (.beginArm since) ∧ (s.1.beginArm since s.2).1 = .ok ()) ∨
      s.1.arming = .arming since ∧ takenBy s step = speedBy s step := by
  cases step with
  | disturb disturbance => exact .inr ⟨arming, taken_disturb spares⟩
  | operate operation =>
    cases operation with
    | drive speed => exact .inr ⟨arming, s.1.taken_drive speed s.2⟩
    | stop => exact .inr (stop_arming arming)
    | beginArm nowUs =>
      rcases beginArm_arming arming with ⟨rfl, begun⟩ | kept
      · exact .inl ⟨rfl, begun⟩
      · exact .inr kept
    | pollArm nowUs => exact .inr ⟨pollArm_arming arming, s.2.timer.taken_self _⟩
    | arm nowUs => exact .inr (arm_arming arming)
    | release => exact .inr (release_arming arming)

/-- An arming that began at a time, and the steps since: it has lasted all the time, and nothing
but speeds was accepted on the channel. -/
structure ArmingSince (start : Esc × Bench) (since : Nat) (held : List Step) : Prop where
  /-- The arming pulse was accepted. -/
  began : (start.1.beginArm since start.2).1 = .ok ()
  /-- The ESC has been arming since then. -/
  lasted : ∀ part, part <+: held →
    (part.foldl advance (advance start (.operate (.beginArm since)))).1.arming = .arming since
  /-- Since then every accepted write is that of a speed. -/
  speeds : collect takenBy (advance start (.operate (.beginArm since))) held =
    collect speedBy (advance start (.operate (.beginArm since))) held

theorem configure_ok {channel : UInt32} {protocol : Protocol} {settings : EscSettings}
    {before after : Bench}
    (configured : configure channel protocol settings before = (.ok e, after)) :
    ∃ timing,
      e = ⟨channel, protocol, timing, settings.armMs, .initialized, .disarmed⟩ := by
  rw [configure] at configured
  split at configured
  · cases configured
  · split at configured
    · cases configured
    · cases configured
      exact ⟨_, rfl⟩

/-- A run changes nothing of an ESC but its lifecycle and how far it has come in arming. -/
theorem run_eq (s : Esc × Bench) (steps : List Step) :
    ∃ lifecycle arming,
      (steps.foldl advance s).1 = { s.1 with lifecycle := lifecycle, arming := arming } := by
  induction steps generalizing s with
  | nil => exact ⟨s.1.lifecycle, s.1.arming, rfl⟩
  | cons step steps induction =>
    obtain ⟨lifecycle, arming, rest⟩ := induction (advance s step)
    refine ⟨lifecycle, arming, rest.trans ?_⟩
    cases step with
    | disturb => rfl
    | operate operation =>
      obtain ⟨_, _, same⟩ := s.1.perform_eq s.2 operation
      rw [advance, same]

/-- An ESC that has come to be arming began to at some time, and has been arming since. -/
theorem exists_armingSince {s : Esc × Bench} (disarmed : s.1.arming = .disarmed)
    {steps : List Step} (spared : ∀ step ∈ steps, step.Spares s.1.channel)
    (arming : (steps.foldl advance s).1.arming = .arming since) :
    ∃ earlier held, steps = earlier ++ .operate (.beginArm since) :: held ∧
      ArmingSince (earlier.foldl advance s) since held := by
  induction steps using List.reverseRecOn with
  | nil => simp [disarmed] at arming
  | append_singleton steps step induction =>
    have spares := spared step (by simp)
    have spared := fun step mem => spared step (List.mem_append_left _ mem)
    obtain ⟨lifecycle, state, same⟩ := run_eq s steps
    have channel : (steps.foldl advance s).1.channel = s.1.channel := by rw [same]
    rw [← channel] at spares
    have last := arming
    rw [List.foldl_concat] at last
    rcases advance_arming spares last with ⟨rfl, began⟩ | ⟨arming_before, quiet⟩
    · refine ⟨steps, [], rfl, began, fun part initial => ?_, rfl⟩
      rw [List.prefix_nil.mp initial]
      exact last
    · obtain ⟨earlier, held, rfl, began, lasted, speeds⟩ := induction spared arming_before
      refine ⟨earlier, held ++ [step], by simp, began, fun part initial => ?_, ?_⟩
      · rcases List.prefix_concat_iff.mp initial with rfl | shorter
        · simpa [List.foldl_append] using arming
        · exact lasted part shorter
      · rw [List.foldl_append, List.foldl_cons] at quiet
        rw [collect_concat, collect_concat, speeds, quiet]

/-- An ESC whose arming is reported as complete has been arming for its arming duration.  Since the
beginning of the arming its channel took the arming pulse and then just the speeds that the ESC was
given, so the pulse was not interrupted exactly if every one of these speeds has the same pulse. -/
theorem armed_after_pulse {channel : UInt32} {protocol : Protocol} {settings : EscSettings}
    {e : Esc} {before after : Bench}
    (configured : configure channel protocol settings before = (.ok e, after))
    {steps : List Step} (spared : ∀ step ∈ steps, step.Spares channel) {e' : Esc} {bench : Bench}
    (reached : steps.foldl advance (e, after) = (e', bench)) {since nowUs : Nat}
    (arming : e'.arming = .arming since) (armed : (e'.pollArm nowUs).2.arming = .armed) :
    let pulse : Write := ⟨channel, protocol.timing.periodNs, nanoseconds protocol.armPulse⟩
    let begin : Step := .operate (.beginArm since)
    settings.armMs.toNat * 1000 ≤ nowUs - since ∧
      ∃ earlier held, steps = earlier ++ begin :: held ∧
        let start := earlier.foldl advance (e, after)
        ArmingSince start since held ∧
          collect takenBy start (begin :: held) =
            pulse :: collect speedBy (advance start begin) held ∧
          ((∀ w ∈ collect takenBy start (begin :: held), w = pulse) ↔
            ∀ w ∈ collect speedBy (advance start begin) held, w = pulse) := by
  intro pulse begin
  have tuned := tuned_of_configure configured
  obtain ⟨timing, rfl⟩ := configure_ok configured
  obtain ⟨_, _, same⟩ := run_eq (_, after) steps
  rw [reached] at same
  refine ⟨?_, ?_⟩
  · have elapsed := pollArm_armed arming armed
    have armMs : e'.armMs = settings.armMs := congrArg armMs same
    rwa [armMs] at elapsed
  obtain ⟨earlier, held, steps_eq, since_begin⟩ :=
    exists_armingSince (s := (_, after)) rfl spared (by rw [reached]; exact arming)
  obtain ⟨_, _, same_start⟩ := run_eq (_, after) earlier
  set start := earlier.foldl advance (_, after)
  have pulse_eq : start.1.armingWrite = pulse := by
    rw [same_start, armingWrite, tuned.periodNs_eq]
  have first : takenBy start begin = [pulse] := by
    rw [← pulse_eq]
    exact taken_beginArm since_begin.began
  have taken : collect takenBy start (begin :: held) =
      pulse :: collect speedBy (advance start begin) held := by
    rw [collect, first, since_begin.speeds]
    rfl
  refine ⟨earlier, held, steps_eq, since_begin, taken, ?_⟩
  rw [taken, List.forall_mem_cons]
  exact ⟨And.right, fun speeds => ⟨rfl, speeds⟩⟩

/-- The arming of an ESC with a failing channel.  The speed given meanwhile and the second attempt
to arm are both refused, so the pulse is not interrupted. -/
theorem armed_after_pulse_failing_channel :
    let p := Protocol.oneShot125
    let start : Esc × Bench :=
      (fresh 1 p, Bench.log { timer := .bench 4 } (.escConfigured 1 p p.timing))
    let steps : List Step :=
      [.operate (.beginArm 0), .disturb (.injectFault 1 .writeFailed), .operate (.drive 1),
        .operate (.beginArm 5), .disturb .clearFaults]
    (steps.foldl advance start).1.arming = .arming 0 ∧
      ((steps.foldl advance start).1.pollArm 3000000).2.arming = .armed ∧
      ∃ earlier held, steps = earlier ++ .operate (.beginArm 0) :: held ∧
        collect takenBy (earlier.foldl advance start) (.operate (.beginArm 0) :: held) =
          ⟨1, 500000, 125000⟩ ::
            collect speedBy (earlier.foldl advance start) (.operate (.beginArm 0) :: held) := by
  intro p start steps
  have configured := configure_fresh 1 .oneShot125 { timer := .bench 4 } rfl
  have undisturbed : ∀ step ∈ steps, step.Spares 1 := by
    simp [steps, Step.Spares, Timer.Disturbance.Spares]
  have arming : (steps.foldl advance start).1.arming = .arming 0 := by decide
  have armed : ((steps.foldl advance start).1.pollArm 3000000).2.arming = .armed := by decide
  obtain ⟨_, earlier, held, steps_eq, _, taken, _⟩ := armed_after_pulse configured undisturbed
    (Prod.mk.eta (p := steps.foldl advance start)).symm arming armed
  refine ⟨arming, armed, earlier, held, steps_eq, taken.trans ?_⟩
  have pulse : (⟨1, p.timing.periodNs, nanoseconds p.armPulse⟩ : Write) = ⟨1, 500000, 125000⟩ := by
    decide
  rw [pulse]
  rfl

/-- An ESC that is given full speed while it is arming is armed all the same. -/
theorem armed_after_full_speed :
    let start : Esc × Bench := (fresh 1 .oneShot125, { timer := .bench 4 })
    let held : List Step := [.operate (.drive 1)]
    let last := held.foldl advance (advance start (.operate (.beginArm 0)))
    last.1.arming = .arming 0 ∧ (last.1.pollArm 3000000).2.arming = .armed ∧
      collect takenBy start (.operate (.beginArm 0) :: held) =
        [⟨1, 500000, 125000⟩, ⟨1, 500000, 250000⟩] := by
  decide

end Esc

end Multirotor
