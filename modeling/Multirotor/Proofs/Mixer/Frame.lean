import Multirotor.Proofs.Esc.Outcome

/-!
# What mixer operations leave alone

A mixer writes on the channels of its motors only.  Executing, arming and stopping keep every motor
in its slot and change at most how far it has come in arming.
-/

namespace Multirotor

/-- The ESC regardless of how far it has come in arming. -/
def Esc.disarmed (e : Esc) : Esc := { e with arming := .disarmed }

theorem Esc.disarmed_of_eq {e e' : Esc} (same : ∃ arming, e' = { e with arming := arming }) :
    e'.disarmed = e.disarmed := by
  obtain ⟨arming, rfl⟩ := same
  rfl

theorem Esc.map_channel_eq {motors motors' : List Esc}
    (same : motors.map Esc.disarmed = motors'.map Esc.disarmed) :
    motors.map Esc.channel = motors'.map Esc.channel := by
  simpa [Function.comp_def, Esc.disarmed] using congrArg (List.map Esc.channel) same

namespace Mixer

/-! ## Operations on every motor -/

section

variable {α : Type} {g : Esc → α}
  {operation : Esc → Bench → Except EscError Unit × Esc × Bench}

theorem map_forEachFrom (keeps : ∀ e bench, g (operation e bench).2.1 = g e)
    (report : Nat → EscError → Event) (motors : List Esc) (index : Nat) (bench : Bench) :
    (forEachFrom index operation report motors bench).2.1.map g = motors.map g := by
  induction motors generalizing index bench with
  | nil => rfl
  | cons motor motors induction =>
    have first := keeps motor bench
    rw [forEachFrom]
    rcases outcome : operation motor bench with ⟨source | _, motor', after⟩ <;>
      rw [outcome] at first <;> simp [first, induction]

theorem length_forEachFrom (report : Nat → EscError → Event) (motors : List Esc) (index : Nat)
    (bench : Bench) :
    (forEachFrom index operation report motors bench).2.1.length = motors.length := by
  have same : (forEachFrom index operation report motors bench).2.1.map (fun _ => ()) =
      motors.map fun _ => () :=
    map_forEachFrom (fun _ _ => rfl) report motors index bench
  simpa using congrArg List.length same

theorem map_beginArmFrom (keeps : ∀ e nowUs bench, g (Esc.beginArm e nowUs bench).2.1 = g e)
    (clock : Nat → Nat) (motors : List Esc) (index : Nat) (bench : Bench) :
    (beginArmFrom index clock motors bench).2.1.map g = motors.map g := by
  induction motors generalizing index bench with
  | nil => rfl
  | cons motor motors induction =>
    have first := keeps motor (clock index) bench
    rw [beginArmFrom]
    rcases outcome : motor.beginArm (clock index) bench with ⟨source | _, motor', after⟩ <;>
      rw [outcome] at first <;> simp [first, induction]

theorem confined_cons {e : Esc} (motors : List Esc) {t u : Timer}
    (confined : Timer.Confined [e.channel] t u) :
    Timer.Confined ((e :: motors).map Esc.channel) t u :=
  confined.mono (by simp)

theorem confined_tail (e : Esc) {motors : List Esc} {t u : Timer}
    (confined : Timer.Confined (motors.map Esc.channel) t u) :
    Timer.Confined ((e :: motors).map Esc.channel) t u :=
  confined.mono (List.subset_cons_self e.channel _)

theorem forEachFrom_confined
    (confined : ∀ e bench, Timer.Confined [e.channel] bench.timer (operation e bench).2.2.timer)
    (report : Nat → EscError → Event) (motors : List Esc) (index : Nat) (bench : Bench) :
    Timer.Confined (motors.map Esc.channel) bench.timer
      (forEachFrom index operation report motors bench).2.2.timer := by
  induction motors generalizing index bench with
  | nil => exact .refl _ _
  | cons motor motors induction =>
    have first := confined_cons motors (confined motor bench)
    rw [forEachFrom]
    rcases outcome : operation motor bench with ⟨source | _, motor', after⟩ <;>
      rw [outcome] at first
    · exact first.trans (confined_tail motor (induction _ (after.log (report (index + 1) source))))
    · exact first.trans (confined_tail motor (induction _ after))

theorem beginArmFrom_confined (clock : Nat → Nat) (motors : List Esc) (index : Nat)
    (bench : Bench) :
    Timer.Confined (motors.map Esc.channel) bench.timer
      (beginArmFrom index clock motors bench).2.2.timer := by
  induction motors generalizing index bench with
  | nil => exact .refl _ _
  | cons motor motors induction =>
    have first := confined_cons motors (motor.beginArm_confined (clock index) bench)
    rw [beginArmFrom]
    rcases outcome : motor.beginArm (clock index) bench with ⟨source | _, motor', after⟩ <;>
      rw [outcome] at first
    · exact first
    · exact first.trans (confined_tail motor (induction _ after))

theorem driveFrom_confined (motors : List Esc) (speeds outputs : List Binary32) (index : Nat)
    (bench : Bench) :
    Timer.Confined (motors.map Esc.channel) bench.timer
      (driveFrom index motors speeds outputs bench).2.2.timer := by
  induction motors generalizing speeds outputs index bench with
  | nil => exact .refl _ _
  | cons motor motors induction =>
    rcases speeds with _ | ⟨speed, speeds⟩
    · exact .refl _ _
    rcases outputs with _ | ⟨output, outputs⟩
    · exact .refl _ _
    have first := confined_cons motors (motor.drive_confined speed bench)
    rw [driveFrom]
    rcases outcome : motor.drive speed bench with ⟨source | _, after⟩ <;> rw [outcome] at first
    · exact first
    · exact first.trans (confined_tail motor (induction speeds outputs _ after))

end

/-! ## Whole operations -/

variable (m : Mixer) (bench : Bench)

theorem execute_confined (command : Command) :
    Timer.Confined (m.motors.map Esc.channel) bench.timer
      (m.execute command bench).2.2.timer := by
  rw [execute]
  split
  · exact .refl _ _
  split
  · dsimp only
    split
    · exact .refl _ _
    · exact driveFrom_confined _ _ _ _ _
  · exact .refl _ _

theorem map_disarmed_stopAll :
    (m.stopAll bench).2.1.motors.map Esc.disarmed = m.motors.map Esc.disarmed := by
  have stopped := map_forEachFrom (fun e bench => Esc.disarmed_of_eq (e.stop_eq bench))
    .motorStopFailed m.motors 0 bench
  rw [stopAll]
  split
  · rfl
  · split <;> rename_i outcome <;> rw [outcome] at stopped <;> exact stopped

theorem stopAll_confined :
    Timer.Confined (m.motors.map Esc.channel) bench.timer (m.stopAll bench).2.2.timer := by
  have stopped := forEachFrom_confined Esc.stop_confined .motorStopFailed m.motors 0 bench
  rw [stopAll]
  split
  · exact .refl _ _
  · split <;> rename_i outcome <;> rw [outcome] at stopped <;> exact stopped

theorem map_disarmed_finishArm (motors : List Esc) :
    (motors.map Esc.finishArm).map Esc.disarmed = motors.map Esc.disarmed := by
  rw [List.map_map]
  exact List.map_congr_left fun e _ => Esc.disarmed_of_eq e.finishArm_eq

theorem map_disarmed_armAll (clock : Nat → Nat) :
    (m.armAll clock bench).2.1.motors.map Esc.disarmed = m.motors.map Esc.disarmed := by
  have begun := map_beginArmFrom
    (fun e nowUs bench => Esc.disarmed_of_eq (e.beginArm_eq nowUs bench)) clock m.motors 0 bench
  rw [armAll]
  split
  · rfl
  split <;> rename_i outcome <;> rw [outcome] at begun
  · rename_i motors after
    have stopped := map_disarmed_stopAll { m with motors := motors } after
    split <;> rename_i stop <;> rw [stop] at stopped <;> exact stopped.trans begun
  · exact (map_disarmed_finishArm _).trans begun

theorem armAll_confined (clock : Nat → Nat) :
    Timer.Confined (m.motors.map Esc.channel) bench.timer (m.armAll clock bench).2.2.timer := by
  have begun := beginArmFrom_confined clock m.motors 0 bench
  have channels := Esc.map_channel_eq (map_beginArmFrom
    (fun e nowUs bench => Esc.disarmed_of_eq (e.beginArm_eq nowUs bench)) clock m.motors 0 bench)
  rw [armAll]
  split
  · exact .refl _ _
  split <;> rename_i outcome <;> rw [outcome] at begun channels
  · rename_i motors after
    have stopped := stopAll_confined { m with motors := motors } after
    rw [channels] at stopped
    split <;> rename_i stop <;> rw [stop] at stopped <;> exact begun.trans stopped
  · exact begun

theorem stopAll_geometry : (m.stopAll bench).2.1.geometry = m.geometry := by
  rw [stopAll]
  split
  · rfl
  · split <;> rfl

theorem attach_geometry (motor : Esc) : (m.attach motor bench).2.1.geometry = m.geometry := by
  rcases m.attach_cases motor bench with ⟨_, _, _, event, taken⟩ | ⟨e, refused⟩
  · rw [taken]
  · rw [refused]

theorem attachAt_geometry (position : Position) (motor : Esc) :
    (m.attachAt position motor bench).2.1.geometry = m.geometry := by
  rcases m.attachAt_cases position motor bench with ⟨_, same⟩ | ⟨e, refused⟩
  · rw [same, attach_geometry]
  · rw [refused]

theorem armAll_geometry (clock : Nat → Nat) :
    (m.armAll clock bench).2.1.geometry = m.geometry := by
  rw [armAll]
  split
  · rfl
  split
  · rename_i motors after _
    have stopped := stopAll_geometry { m with motors := motors } after
    split <;> rename_i stop <;> rw [stop] at stopped <;> exact stopped
  · rfl

theorem release_geometry : (m.release bench).2.1.geometry = m.geometry := by
  rw [release]
  split <;> rfl

theorem perform_geometry (operation : Operation) :
    (m.perform bench operation).2.1.geometry = m.geometry := by
  cases operation with
  | attach motor => exact m.attach_geometry bench motor
  | attachAt position motor => exact m.attachAt_geometry bench position motor
  | execute c =>
    obtain ⟨outputs, same⟩ := m.execute_eq c bench
    rw [perform, same]
  | armAll clock => exact m.armAll_geometry bench clock
  | stopAll => exact m.stopAll_geometry bench
  | release => exact m.release_geometry bench

theorem release_confined :
    Timer.Confined (m.motors.map Esc.channel) bench.timer (m.release bench).2.2.timer := by
  rw [release]
  split
  · exact .refl _ _
  · exact forEachFrom_confined Esc.release_confined .motorReleaseFailed m.motors 0 bench

theorem attach_confined (motor : Esc) :
    Timer.Confined (m.motors.map Esc.channel) bench.timer (m.attach motor bench).2.2.timer := by
  rcases m.attach_cases motor bench with ⟨_, _, _, event, taken⟩ | ⟨e, refused⟩
  · rw [taken]
    exact .refl _ _
  · rw [refused]
    exact .refl _ _

theorem perform_confined (operation : Operation) :
    Timer.Confined (m.motors.map Esc.channel) bench.timer
      (m.perform bench operation).2.2.timer := by
  cases operation with
  | attach motor => exact m.attach_confined bench motor
  | attachAt position motor =>
    rw [perform]
    rcases m.attachAt_cases position motor bench with ⟨_, same⟩ | ⟨e, refused⟩
    · rw [same]
      exact m.attach_confined bench motor
    · rw [refused]
      exact .refl _ _
  | execute c => exact m.execute_confined bench c
  | armAll clock => exact m.armAll_confined bench clock
  | stopAll => exact m.stopAll_confined bench
  | release => exact m.release_confined bench

end Mixer

end Multirotor
