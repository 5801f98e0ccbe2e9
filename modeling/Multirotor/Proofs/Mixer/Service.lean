import Multirotor.Proofs.Mixer.Representation

/-!
# Mixers in service

Releases that fail let some motors go and keep others, again and again, so what a mixer holds
depends on its whole history.  A `Service` keeps this history beside the mixer and its bench: the
motors ever attached, and those of them that have not left.
-/

namespace Multirotor

/-- A motor as it was attached. -/
structure Post where
  motor : Esc
  /-- The position it was attached for, if one was asked for. -/
  position? : Option Position
  deriving DecidableEq

def Post.channel (post : Post) : UInt32 := post.motor.channel

/-- A mixer on its bench and the record of its motors. -/
structure Service where
  mixer : Mixer
  bench : Bench
  /-- The motors ever attached, oldest first. -/
  enlisted : List Post
  /-- The motors that have not left, in slot order. -/
  roster : List Post

namespace Service

/-- The mixer is operated, or something else happens to the device. -/
inductive Step where
  | operate (operation : Mixer.Operation)
  | disturb (disturbance : Timer.Disturbance)

/-- The motor that an operation attaches if it succeeds. -/
def recruit? : Mixer.Operation → Option Post
  | .attach motor => some ⟨motor, none⟩
  | .attachAt position motor => some ⟨motor, some position⟩
  | _ => none

/-- The motors that an operation attaches. -/
def recruits (s : Service) (operation : Mixer.Operation) : List Post :=
  match (s.mixer.perform s.bench operation).1 with
  | .ok () => (recruit? operation).toList
  | .error _ => []

/-- The motors that a release would not let go. -/
def detained (s : Service) : List Post :=
  s.roster.filter fun post => s.bench.timer.refusal? (.stop post.channel) ≠ none

/-- The motors that an operation does not let go. -/
def retained (s : Service) : Mixer.Operation → List Post
  | .release => s.detained
  | _ => s.roster

def advance (s : Service) : Step → Service
  | .operate operation =>
    { mixer := (s.mixer.perform s.bench operation).2.1
      bench := (s.mixer.perform s.bench operation).2.2
      enlisted := s.enlisted ++ s.recruits operation
      roster := s.retained operation ++ s.recruits operation }
  | .disturb disturbance => { s with bench.timer := s.bench.timer.disturb disturbance }

/-- The services that begin with a new mixer and go on in steps of an allowed kind. -/
inductive Reachable (allowed : Service → Step → Prop) : Service → Prop
  | configure {geometry : Geometry} {policy : Normalization} {m : Mixer} {before after : Bench} :
      Mixer.configure geometry policy before = (.ok m, after) → Reachable allowed ⟨m, after, [], []⟩
  | advance {s : Service} (step : Step) :
      Reachable allowed s → allowed s step → Reachable allowed (s.advance step)

theorem Reachable.foldl {allowed : Service → Step → Prop} {s : Service}
    (reachable : s.Reachable allowed) {steps : List Step}
    (fine : ∀ step ∈ steps, ∀ s, allowed s step) :
    (steps.foldl Service.advance s).Reachable allowed := by
  induction steps generalizing s with
  | nil => exact reachable
  | cons step steps induction =>
    obtain ⟨first, fine⟩ := List.forall_mem_cons.mp fine
    exact induction (reachable.advance step (first s)) fine

/-- A quadcopter without motors on a bench with eight channels. -/
def bareQuad : Service where
  mixer := ⟨.quadX, .clampAndShift, [], [], .initialized⟩
  bench := Bench.log { timer := .bench 8 } (.mixerConfigured .quadX .clampAndShift)
  enlisted := []
  roster := []

theorem bareQuad_reachable (allowed : Service → Step → Prop) : bareQuad.Reachable allowed := by
  have configured : Mixer.configure .quadX .clampAndShift { timer := .bench 8 } =
      (.ok bareQuad.mixer, bareQuad.bench) := rfl
  exact .configure configured

/-- The record is that of the mixer. -/
structure Consistent (s : Service) : Prop where
  wellFormed : s.mixer.WellFormed
  /-- The roster lists the attached motors. -/
  motors : s.roster.map (fun post => post.motor.disarmed) = s.mixer.motors.map Esc.disarmed
  sublist : s.roster.Sublist s.enlisted

/-- What a step can do to the motors of the mixer. -/
inductive Move (s : Service) (step : Step) (s' : Service) : Prop
  /-- A motor is attached. -/
  | join (operation : Mixer.Operation) (post : Post) (operated : step = .operate operation)
      (recruit : recruit? operation = some post)
      (next : ∀ p, post.position? = some p → s.mixer.nextPosition? = some p)
      (motors : s'.mixer.motors = s.mixer.motors ++ [post.motor])
      (enlisted : s'.enlisted = s.enlisted ++ [post]) (roster : s'.roster = s.roster ++ [post])
  /-- The motors stay in their slots. -/
  | keep (motors : s'.mixer.motors.map Esc.disarmed = s.mixer.motors.map Esc.disarmed)
      (enlisted : s'.enlisted = s.enlisted) (roster : s'.roster = s.roster)
  /-- A release lets motors go. -/
  | leave (released : step = .operate .release)
      (timer : s'.bench.timer = (s.bench.timer.attemptAll s.mixer.stopWrites).2)
      (motors : s'.mixer.motors = s.mixer.stranded s.bench.timer)
      (enlisted : s'.enlisted = s.enlisted) (roster : s'.roster = s.detained)

variable {s s' : Service} {step : Step}

theorem recruits_eq_nil {operation : Mixer.Operation} (none_attached : recruit? operation = none) :
    s.recruits operation = [] := by
  rw [recruits, none_attached]
  split <;> rfl

/-- An operation that attaches no motor and is not a release. -/
theorem Move.of_map_disarmed {operation : Mixer.Operation}
    (none_attached : recruit? operation = none) (roster : s.retained operation = s.roster)
    (motors : (s.mixer.perform s.bench operation).2.1.motors.map Esc.disarmed =
      s.mixer.motors.map Esc.disarmed) :
    s.Move (.operate operation) (s.advance (.operate operation)) := by
  have nobody : s.recruits operation = [] := recruits_eq_nil none_attached
  refine .keep motors ?_ ?_
  · simp [advance, nobody]
  · simp [advance, nobody, roster]

theorem retained_of_recruit {operation : Mixer.Operation} {post : Post}
    (recruit : recruit? operation = some post) : s.retained operation = s.roster := by
  cases operation <;> first | rfl | cases recruit

theorem Move.of_taken {operation : Mixer.Operation} {post : Post} {event : Event}
    (recruit : recruit? operation = some post)
    (next : ∀ p, post.position? = some p → s.mixer.nextPosition? = some p)
    (taken : s.mixer.perform s.bench operation =
      (.ok (), { s.mixer with motors := s.mixer.motors ++ [post.motor] }, s.bench.log event)) :
    s.Move (.operate operation) (s.advance (.operate operation)) := by
  have joined : s.recruits operation = [post] := by rw [recruits, taken, recruit]; rfl
  refine .join operation post rfl recruit next ?_ ?_ ?_
  · simp [advance, taken]
  · simp [advance, joined]
  · simp [advance, joined, retained_of_recruit recruit]

theorem Move.of_refused {operation : Mixer.Operation} {post : Post} {e : MixerError}
    (recruit : recruit? operation = some post)
    (refused : s.mixer.perform s.bench operation = (.error e, s.mixer, s.bench)) :
    s.Move (.operate operation) (s.advance (.operate operation)) := by
  have nobody : s.recruits operation = [] := by rw [recruits, refused]
  refine .keep ?_ ?_ ?_
  · simp [advance, refused]
  · simp [advance, nobody]
  · simp [advance, nobody, retained_of_recruit recruit]

theorem Consistent.move (consistent : s.Consistent) (step : Step) :
    s.Move step (s.advance step) := by
  cases step with
  | disturb disturbance => exact .keep rfl rfl rfl
  | operate operation =>
    cases operation with
    | attach motor =>
      rcases s.mixer.attach_cases motor s.bench with ⟨_, _, _, event, taken⟩ | ⟨e, refused⟩
      · exact .of_taken rfl (by simp) (by rw [Mixer.perform, taken]; rfl)
      · exact .of_refused rfl (by rw [Mixer.perform, refused]; rfl)
    | attachAt position motor =>
      rcases s.mixer.attachAt_cases position motor s.bench with ⟨next, same⟩ | ⟨e, refused⟩
      · rcases s.mixer.attach_cases motor s.bench with ⟨_, _, _, event, taken⟩ | ⟨e, refused⟩
        · exact .of_taken rfl (by simp [next]) (by rw [Mixer.perform, same, taken]; rfl)
        · exact .of_refused rfl (by rw [Mixer.perform, same, refused]; rfl)
      · exact .of_refused rfl (by rw [Mixer.perform, refused]; rfl)
    | execute c =>
      obtain ⟨outputs, same⟩ := s.mixer.execute_eq c s.bench
      exact .of_map_disarmed rfl rfl (by rw [Mixer.perform, same])
    | armAll clock => exact .of_map_disarmed rfl rfl (s.mixer.map_disarmed_armAll s.bench clock)
    | stopAll => exact .of_map_disarmed rfl rfl (s.mixer.map_disarmed_stopAll s.bench)
    | release =>
      rcases lifecycle : s.mixer.lifecycle
      · obtain ⟨_, timer, same⟩ := Mixer.release_spec lifecycle consistent.wellFormed.in_use s.bench
        have nobody : s.recruits .release = [] := recruits_eq_nil rfl
        refine .leave rfl timer (congrArg Mixer.motors same) ?_ ?_
        · simp [advance, nobody]
        · simp [advance, nobody, retained]
      · -- a mixer that was given up has nobody to let go
        have nobody : s.roster = [] := by
          have none_attached := (consistent.wellFormed.given_up lifecycle).1
          simpa [none_attached] using consistent.motors
        refine .of_map_disarmed rfl (by simp [retained, detained, nobody]) ?_
        rw [Mixer.perform_of_uninitialized lifecycle]

theorem Consistent.map_channel (consistent : s.Consistent) :
    s.roster.map Post.channel = s.mixer.motors.map Esc.channel := by
  have channels := congrArg (List.map Esc.channel) consistent.motors
  rwa [List.map_map, List.map_map] at channels

/-- The roster and the motors are thinned out alike. -/
theorem Consistent.map_detained (consistent : s.Consistent) :
    s.detained.map (fun post => post.motor.disarmed) =
      (s.mixer.stranded s.bench.timer).map Esc.disarmed := by
  let stuck (e : Esc) : Bool := s.bench.timer.refusal? (.stop e.channel) ≠ none
  calc
    _ = (s.roster.map fun post => post.motor.disarmed).filter stuck := List.filter_map.symm
    _ = (s.mixer.motors.map Esc.disarmed).filter stuck := by rw [consistent.motors]
    _ = _ := List.filter_map

theorem Consistent.advance (consistent : s.Consistent) (step : Step) :
    (s.advance step).Consistent := by
  have wellFormed : (s.advance step).mixer.WellFormed := by
    cases step with
    | operate operation => exact consistent.wellFormed.perform operation
    | disturb disturbance => exact consistent.wellFormed
  refine ⟨wellFormed, ?_, ?_⟩
  all_goals
    rcases consistent.move step with
      ⟨_, post, _, _, _, motors, enlisted, roster⟩ | ⟨motors, enlisted, roster⟩ |
        ⟨_, _, motors, enlisted, roster⟩
  · rw [motors, roster, List.map_append, List.map_append, consistent.motors]
    rfl
  · rw [motors, roster, consistent.motors]
  · rw [motors, roster, consistent.map_detained]
  · rw [enlisted, roster]
    exact consistent.sublist.append (List.Sublist.refl _)
  · rw [enlisted, roster]
    exact consistent.sublist
  · rw [enlisted, roster]
    exact List.filter_sublist.trans consistent.sublist

variable {allowed : Service → Step → Prop}

theorem Reachable.consistent (reachable : s.Reachable allowed) : s.Consistent := by
  induction reachable with
  | configure configured =>
    obtain ⟨_, no_motors, wellFormed⟩ := Mixer.wellFormed_of_configure configured
    exact ⟨wellFormed, by simp [no_motors], List.Sublist.refl _⟩
  | advance step _ _ induction => exact induction.advance step

/-! ## Motors that have left -/

/-- Nobody else writes on the channels of the motors ever attached. -/
def Undisturbed (s : Service) : Step → Prop
  | .operate _ => True
  | .disturb disturbance => ∀ post ∈ s.enlisted, disturbance.Spares post.channel

/-- Every channel on which a motor was attached once, but none is now, is low. -/
def Quiet (s : Service) : Prop :=
  ∀ post ∈ s.enlisted, post.channel ∉ s.roster.map Post.channel →
    s.bench.timer.output? post.channel = some (.stop post.channel)

/-- A step of the mixer leaves the channels of former motors alone. -/
theorem output?_advance (consistent : s.Consistent) (undisturbed : s.Undisturbed step) {post : Post}
    (enlisted : post ∈ s.enlisted)
    (gone : post.channel ∉ s.roster.map Post.channel) :
    (s.advance step).bench.timer.output? post.channel =
      s.bench.timer.output? post.channel := by
  cases step with
  | operate operation =>
    rw [consistent.map_channel] at gone
    exact (s.mixer.perform_confined s.bench operation).output?_eq gone
  | disturb disturbance => exact s.bench.timer.output?_disturb (undisturbed post enlisted)

/-- A motor that a release lets go has taken its stop. -/
theorem output?_of_released (consistent : s.Consistent) {channel : UInt32}
    (present : channel ∈ s.roster.map Post.channel)
    (gone : channel ∉ s.detained.map Post.channel) :
    (s.bench.timer.attemptAll s.mixer.stopWrites).2.output? channel = some (.stop channel) := by
  have accepted : s.bench.timer.refusal? (.stop channel) = none := by
    obtain ⟨post, mem, rfl⟩ := List.mem_map.mp present
    by_contra refused
    exact gone (List.mem_map_of_mem (List.mem_filter.mpr ⟨mem, by simpa using refused⟩))
  have attempted : Write.stop channel ∈ s.mixer.stopWrites := by
    rw [consistent.map_channel] at present
    obtain ⟨e, mem, rfl⟩ := List.mem_map.mp present
    exact List.mem_map_of_mem mem
  refine Timer.output?_attemptAll_of_accepted attempted accepted fun w mem same => ?_
  obtain ⟨e, _, rfl⟩ := List.mem_map.mp mem
  exact congrArg Write.stop same

theorem Quiet.advance (quiet : s.Quiet) (consistent : s.Consistent)
    (undisturbed : s.Undisturbed step) : (s.advance step).Quiet := by
  intro post mem gone
  by_cases present : post.channel ∈ s.roster.map Post.channel
  · rcases consistent.move step with
      ⟨_, _, _, _, _, _, _, roster⟩ | ⟨_, _, roster⟩ | ⟨_, timer, _, _, roster⟩ <;>
      rw [roster] at gone
    · rw [List.map_append, List.mem_append] at gone
      exact absurd (.inl present) gone
    · exact absurd present gone
    · rw [timer]
      exact output?_of_released consistent present gone
  · have old : post ∈ s.enlisted := by
      rcases consistent.move step with
        ⟨_, joined, _, _, _, _, enlisted, roster⟩ | ⟨_, enlisted, _⟩ | ⟨_, _, _, enlisted, _⟩ <;>
        rw [enlisted] at mem
      · refine (List.mem_append.mp mem).resolve_right fun new => gone ?_
        rw [roster, List.mem_singleton.mp new]
        simp
      · exact mem
      · exact mem
    exact (output?_advance consistent undisturbed old present).trans (quiet post old present)

theorem Reachable.quiet (reachable : s.Reachable Undisturbed) : s.Quiet := by
  induction reachable with
  | configure configured => exact fun post mem => absurd mem List.not_mem_nil
  | advance step reachable undisturbed induction =>
    exact induction.advance reachable.consistent undisturbed

/-- Motors with distinct channels have left only if their channels are not in use any more. -/
theorem Consistent.channel_not_mem_roster (consistent : s.Consistent)
    (distinct : (s.enlisted.map Post.channel).Nodup) {post : Post}
    (enlisted : post ∈ s.enlisted) (left : post ∉ s.roster) :
    post.channel ∉ s.roster.map Post.channel := by
  intro present
  obtain ⟨other, mem, same⟩ := List.mem_map.mp present
  have other_eq := List.inj_on_of_nodup_map distinct (consistent.sublist.subset mem) enlisted same
  exact left (other_eq ▸ mem)

/-- A release of a mixer in use tries one stop for each motor and keeps those that refuse, whatever
the device does.  So as long as nobody else writes on their channels, the motors that have left are
stopped, and the rest can be released as soon as all stops are accepted. -/
theorem release_drops_no_live_motor :
    (∀ m : Mixer, m.Reachable → m.lifecycle = .initialized → ∀ bench, m.Released bench) ∧
      ∀ s : Service, s.Reachable Undisturbed →
        s.roster.map (fun post => post.motor.disarmed) = s.mixer.motors.map Esc.disarmed ∧
          ((s.enlisted.map Post.channel).Nodup →
            ∀ post ∈ s.enlisted, post ∉ s.roster →
              s.bench.timer.output? post.channel = some (.stop post.channel)) ∧
          (s.mixer.lifecycle = .initialized →
            (∀ w ∈ s.mixer.stopWrites, s.bench.timer.refusal? w = none) →
              (s.mixer.release s.bench).1 = .ok ()) := by
  refine ⟨fun m reachable initialized bench =>
    Mixer.released initialized reachable.wellFormed.in_use bench, fun s reachable => ?_⟩
  have consistent := reachable.consistent
  refine ⟨consistent.motors, fun distinct post enlisted left => ?_, fun initialized accepted => ?_⟩
  · exact reachable.quiet post enlisted (consistent.channel_not_mem_roster distinct enlisted left)
  · rw [(Mixer.release_spec initialized consistent.wellFormed.in_use s.bench).1]
    exact Timer.firstFailure_eq_ok_iff.mpr accepted

/-- Two motors, of which the second cannot be stopped for a while. -/
theorem release_drops_no_live_motor_stuck :
    let attachments : List Step :=
      [1, 2].map fun channel => .operate (.attach (.fresh channel .oneShot125))
    let stuck : List Step := [.disturb (.injectFault 2 .writeFailed), .operate .release]
    let s := (attachments ++ stuck).foldl advance bareQuad
    Mixer.quad.Released s.bench ∧ s.mixer.motors = [.fresh 2 .oneShot125] ∧
      s.bench.timer.output? 1 = some (.stop 1) ∧
      (s.mixer.release { s.bench with timer := s.bench.timer.clearFaults }).1 = .ok () := by
  intro attachments stuck s
  have fine : ∀ step ∈ attachments ++ stuck, ∀ s, Undisturbed s step := by
    simp [attachments, stuck, Undisturbed, Timer.Disturbance.Spares]
  have service : s.Reachable Undisturbed := (bareQuad_reachable _).foldl fine
  have stopped := (release_drops_no_live_motor.2 s service).2.1 (by decide)
    ⟨.fresh 1 .oneShot125, none⟩ (by decide) (by decide)
  have recovered := service.advance (.disturb .clearFaults) fun _ _ => trivial
  have last := (release_drops_no_live_motor.2 _ recovered).2.2 (by decide) (by decide)
  exact ⟨release_drops_no_live_motor.1 _ Mixer.quad_reachable rfl _, by decide, stopped, last⟩

end Service

end Multirotor
