import Multirotor.Proofs.ControlLoop.CommandBits

/-!
# The control loop follows the latest publication

The loop keeps the command that it applied last and its sequence number.  At the start of every
cycle these belong to the publications seen so far, and what was published since is too little to
bring the sequence number round.  So each cycle obeys the last of all publications: it ends the loop
if that one asks for a kill, and applies its command otherwise, bit for bit.
-/

namespace Multirotor

open Mailbox

namespace Flight

variable {f g : Flight} {options : LoopOptions} {elapsed : Nat}

/-- The loop has seen the first publications and will find the others at its next look. -/
structure Tracks (f : Flight) (seen unread : List (Command × Flags)) : Prop where
  /-- The mailbox holds all of them. -/
  mailbox : f.vehicle.mailbox = holding (seen ++ unread)
  /-- The command at hand is the last one seen. -/
  command : f.command = newest seen
  /-- The sequence number at hand is that of the last one seen. -/
  sequence : f.sequence = (holding seen).sequence
  /-- The sequence number has not come round since. -/
  close : seen = [] ∨ unread.length < 2 ^ 31 - 1

namespace Tracks

variable {seen unread : List (Command × Flags)}

theorem killed_iff (tracks : f.Tracks seen unread) : f.Killed ↔ KillAsked (seen ++ unread) := by
  rw [Killed, KillAsked, tracks.mailbox, latest?_holding]
  rcases (seen ++ unread).getLast? with _ | publication
  · simp
  · simp [Flags.truncate_contains_kill]

theorem attends (tracks : f.Tracks seen unread) : f.Attends (seen ++ unread) where
  mailbox := tracks.mailbox
  sequence silent := by
    rw [tracks.sequence, (List.append_eq_nil_iff.mp silent).1]
    rfl

/-- After its look into the mailbox the loop has seen everything. -/
theorem lookup (tracks : f.Tracks seen unread) :
    f.applied = newest (seen ++ unread) ∧
      f.lookup.sequence = (holding (seen ++ unread)).sequence := by
  refine ⟨?_, tracks.attends.lookup_sequence⟩
  by_cases silent : unread = []
  · have same : (holding (seen ++ unread)).sequence = f.sequence := by
      rw [silent, List.append_nil, tracks.sequence]
    rw [tracks.attends.applied_of_eq same, tracks.command, silent, List.append_nil]
  · apply tracks.attends.applied_of_ne
    rw [tracks.sequence]
    exact sequence_holding_ne silent tracks.close

end Tracks

/-- A cycle that goes on keeps what it found in the mailbox and counts itself. -/
theorem Course.kept {result : Option (Except MixerError Exit)}
    (course : f.Course options elapsed result g)
    (fine : result = none ∨ result = some (.ok .cyclesCompleted)) :
    g.command = f.applied ∧ g.sequence = f.lookup.sequence ∧
      g.vehicle.mailbox = f.vehicle.mailbox ∧ g.cycles = f.cycles + 1 ∧
      g.vehicle.telemetry.skipped =
        f.vehicle.telemetry.skipped + if f.applied.InBounds then 0 else 1 := by
  obtain ⟨sequence, same⟩ := f.lookup_eq
  obtain ⟨alive, executed⟩ := course.executed fine
  cases course with
  | kill killed => exact absurd killed alive
  | skip _ outOfBounds =>
    obtain ⟨pauses, finished⟩ := (f.lookup.skip .outOfRangeCommand).finish_eq options elapsed
    rw [finished, if_neg outOfBounds, same]
    exact ⟨rfl, rfl, rfl, rfl, rfl⟩
  | execute _ inBounds =>
    obtain ⟨pauses, finished⟩ := f.driven.publishPower.finish_eq options elapsed
    rw [finished, if_pos inBounds, driven, same]
    exact ⟨rfl, rfl, rfl, rfl, (UInt32.add_zero _).symm⟩
  | fail _ inBounds failed =>
    rw [executed inBounds] at failed
    cases failed

/-! ## Along a run -/

section

variable {m : Mixer} {published : List (Command × Flags)} {elapsedUs : Nat → Nat}
  {arrivals : List (List Input)}

/-- A cycle that goes on and a batch with few publications keep the loop on track. -/
theorem Tracks.receive {seen unread : List (Command × Flags)} (tracks : f.Tracks seen unread)
    (course : f.Course options elapsed none g) {batch : List Input}
    (few : (publicationsOf batch).length < 2 ^ 31 - 1) :
    (g.receive batch).Tracks (seen ++ unread) (publicationsOf batch) := by
  obtain ⟨command, sequence, mailbox, _, _⟩ := course.kept (.inl rfl)
  obtain ⟨applied, looked_up⟩ := tracks.lookup
  refine ⟨?_, command.trans applied, sequence.trans looked_up, .inr few⟩
  rw [Flight.receive, Vehicle.receiveAll_mailbox, mailbox, tracks.mailbox, publishAll_holding]

/-- At the start of every cycle the loop is on track with all that was published. -/
theorem exists_tracks (flying : f.Flying m) (complete : m.checkComplete = .ok ())
    (serviceable : m.Serviceable) (tracks : f.Tracks [] published)
    (spaced : ∀ batch ∈ arrivals, (publicationsOf batch).length < 2 ^ 31 - 1) {k : Nat}
    {s : Flight} (found : (starts options elapsedUs arrivals f)[k]? = some s) :
    ∃ seen unread, seen ++ unread = history published arrivals k ∧ s.Tracks seen unread := by
  have all_flying := starts_flying flying complete serviceable options elapsedUs arrivals
  induction k generalizing s with
  | zero =>
    rw [getElem?_starts_zero] at found
    rw [← Option.some.inj found]
    exact ⟨[], published, (history_zero published arrivals).symm, tracks⟩
  | succ k induction =>
    obtain ⟨before, g, batch, before_found, goes_on, batch_found, rfl⟩ :=
      exists_of_getElem?_starts_succ found
    obtain ⟨seen, unread, same, tracks⟩ := induction before_found
    have flying := all_flying before (List.mem_of_getElem? before_found)
    obtain ⟨course, -⟩ := flying.cycle_fine complete serviceable goes_on (.inl rfl)
    refine ⟨seen ++ unread, publicationsOf batch, ?_, ?_⟩
    · rw [history_succ batch_found, same]
    · exact tracks.receive course (spaced batch (List.mem_of_getElem? batch_found))

end

/-! ## Counting cycles -/

/-- The command of the cycle is executed by every motor. -/
def Succeeds (f : Flight) : Prop := f.execution.1.isOk = true

instance (f : Flight) : Decidable f.Succeeds := inferInstanceAs (Decidable (_ = _))

/-- The command of the cycle is out of bounds. -/
def Skips (f : Flight) : Prop := ¬ f.applied.InBounds

instance (f : Flight) : Decidable f.Skips := inferInstanceAs (Decidable (¬ _))

theorem Skips.not_succeeds (skips : f.Skips)
    (complete : f.vehicle.mixer.checkComplete = .ok ()) : ¬ f.Succeeds := by
  rw [Succeeds, execution, Mixer.execute_outOfBounds complete skips]
  exact Bool.false_ne_true

/-- What has been counted since `f` when the cycles that started at `ran` are over. -/
structure Counted (f : Flight) (ran : List Flight) (g : Flight) : Prop where
  /-- All cycles are counted. -/
  cycles : g.cycles = f.cycles + ran.length
  /-- The telemetry counts those that skipped their command, modulo `2 ^ 32`. -/
  skipped : g.vehicle.telemetry.skipped =
    f.vehicle.telemetry.skipped + UInt32.ofNat (ran.countP fun s => s.Skips)
  /-- All others have executed theirs. -/
  balance : (ran.countP fun s => s.Succeeds) + (ran.countP fun s => s.Skips) = ran.length

/-- A cycle that deals with its command counts itself. -/
theorem Counted.concat_of_fine {ran : List Flight} {s : Flight} (counted : f.Counted ran s)
    (complete : s.vehicle.mixer.checkComplete = .ok ())
    {result : Option (Except MixerError Exit)} (course : s.Course options elapsed result g)
    (fine : result = none ∨ result = some (.ok .cyclesCompleted)) : f.Counted (ran ++ [s]) g := by
  obtain ⟨_, _, _, cycles, skipped⟩ := course.kept fine
  obtain ⟨_, executed⟩ := course.executed fine
  have balance := counted.balance
  by_cases inBounds : s.applied.InBounds
  · have succeeds : s.Succeeds := by rw [Succeeds, executed inBounds]; rfl
    have kept : ¬ s.Skips := not_not_intro inBounds
    refine ⟨?_, ?_, ?_⟩
    · rw [cycles, counted.cycles, List.length_append, List.length_singleton, Nat.add_assoc]
    · rw [skipped, counted.skipped, if_pos inBounds, UInt32.add_zero]
      simp [kept]
    · simp [succeeds, kept]
      omega
  · have skips : s.Skips := inBounds
    have failed := skips.not_succeeds complete
    refine ⟨?_, ?_, ?_⟩
    · rw [cycles, counted.cycles, List.length_append, List.length_singleton, Nat.add_assoc]
    · rw [skipped, counted.skipped, if_neg inBounds, UInt32.add_assoc]
      simp [skips]
    · simp [skips, failed]
      omega

/-- A cycle that goes on counts itself. -/
theorem Counted.concat {ran : List Flight} {s : Flight} (counted : f.Counted ran s)
    (complete : s.vehicle.mixer.checkComplete = .ok ())
    (course : s.Course options elapsed none g) : f.Counted (ran ++ [s]) g :=
  counted.concat_of_fine complete course (.inl rfl)

/-- At the start of every cycle those before it are counted. -/
theorem counted_take {m : Mixer} (flying : f.Flying m) (complete : m.checkComplete = .ok ())
    (serviceable : m.Serviceable) {elapsedUs : Nat → Nat} {arrivals : List (List Input)} {k : Nat}
    {s : Flight} (found : (starts options elapsedUs arrivals f)[k]? = some s) :
    f.Counted ((starts options elapsedUs arrivals f).take k) s := by
  have all_flying := starts_flying flying complete serviceable options elapsedUs arrivals
  refine starts_induction (P := f.Counted) ⟨rfl, (UInt32.add_zero _).symm, rfl⟩ ?_ found
  intro ran before mem g counted goes_on batch _
  have flying := all_flying before mem
  obtain ⟨course, -⟩ := flying.cycle_fine complete serviceable goes_on (.inl rfl)
  have counted := counted.concat (flying.complete complete) course
  refine ⟨counted.cycles, ?_, counted.balance⟩
  rw [Flight.receive, Vehicle.receiveAll_telemetry]
  exact counted.skipped

/-! ## Following the latest publication -/

/-- The cycle that starts at `s` applies the command `c` to the motors of `m`. -/
structure Applies (options : LoopOptions) (elapsed : Nat) (m : Mixer) (c : Command) (s : Flight) :
    Prop where
  /-- It is the command at hand after the look into the mailbox. -/
  applied : s.applied = c
  /-- It is the command that the mixer executes. -/
  execution : s.execution = s.vehicle.mixer.execute c s.vehicle.bench
  /-- There is one write for each motor, in slot order, that drives the motor at its speed. -/
  slots : m.DrivesEach (allocate m.geometry.table m.policy c) (m.speedWrites c)
  /-- Executing a command within bounds attempts them up to the first refusal. -/
  writes : c.InBounds → s.vehicle.mixer.executionWrites c s.vehicle.bench =
    s.vehicle.bench.timer.throughRefusal (m.speedWrites c)
  /-- If the execution succeeds, the cycle attempts nothing else and leaves its result. -/
  succeeded : c.InBounds → s.execution.1 = .ok () →
    s.cycleWrites options elapsed = s.vehicle.mixer.executionWrites c s.vehicle.bench ∧
      (s.cycle options elapsed).2.vehicle.mixer = s.execution.2.1
  /-- If it fails, the cycle attempts to stop every motor afterwards. -/
  failed : c.InBounds → s.execution.1 ≠ .ok () →
    s.cycleWrites options elapsed =
      s.vehicle.mixer.executionWrites c s.vehicle.bench ++ m.stopWrites
  /-- A command out of bounds changes nothing but the number of skipped cycles. -/
  skipped : ¬ c.InBounds →
    s.cycleWrites options elapsed = [] ∧
      (s.cycle options elapsed).2.vehicle.mixer = s.vehicle.mixer ∧
      (s.cycle options elapsed).2.vehicle.telemetry.skipped =
        s.vehicle.telemetry.skipped + 1

theorem applies_of_not_killed {m : Mixer} {s : Flight} (flying : s.Flying m)
    (complete : m.checkComplete = .ok ()) (serviceable : m.Serviceable) (alive : ¬ s.Killed)
    (options : LoopOptions) (elapsed : Nat) : s.Applies options elapsed m s.applied := by
  have complete' := flying.complete complete
  have serviceable' := flying.serviceable serviceable
  refine ⟨rfl, rfl, Mixer.drivesEach_speedWrites complete serviceable _, fun inBounds => ?_,
    fun inBounds executed => ⟨?_, ?_⟩, fun inBounds failed => ?_, fun outOfBounds => ⟨?_, ?_, ?_⟩⟩
  · rw [Mixer.executionWrites_eq complete' serviceable' inBounds, flying.speedWrites_eq]
  · rw [cycleWrites_of_executed complete' serviceable' alive inBounds executed,
      Mixer.executionWrites_eq complete' serviceable' inBounds]
  · obtain ⟨pauses, finished⟩ := s.driven.publishPower.finish_eq options elapsed
    rw [cycle_of_executed alive executed, finished]
    rfl
  · rcases outcome : s.execution.1 with e | _
    · rw [cycleWrites_of_failed complete' serviceable' alive inBounds outcome,
        Mixer.executionWrites_eq complete' serviceable' inBounds, flying.stopWrites_eq]
    · exact absurd outcome failed
  · exact cycleWrites_of_outOfBounds complete' alive outOfBounds
  · obtain ⟨sequence, same⟩ := s.lookup_eq
    obtain ⟨pauses, finished⟩ := (s.lookup.skip .outOfRangeCommand).finish_eq options elapsed
    rw [cycle_of_outOfBounds complete' alive outOfBounds, finished, same]
    rfl
  · have course := cycle_course complete' serviceable' options elapsed
    obtain ⟨_, _, _, _, skipped⟩ := course.kept (by
      rw [cycle_of_outOfBounds complete' alive outOfBounds]
      exact finish_fst _ _ _)
    rw [skipped, if_neg outOfBounds]

end Flight

open Flight

/-- Every cycle obeys the last of all publications so far.  If it asks for a kill, the cycle does
nothing but stop the motors and is the last one.  Otherwise the cycle applies its command, again and
again while nothing new is published, and a cycle that goes on is counted as a successful execution
or as skipped.  If the publications are given in bits, the command applied has those of the last
one. -/
theorem Vehicle.fly_follows_latest {v : Vehicle} (reachable : v.mixer.Reachable)
    (complete : v.mixer.checkComplete = .ok ()) {published : List (Command × Flags)}
    (mailbox : v.mailbox = holding published) (options : LoopOptions) (elapsedUs : Nat → Nat)
    {arrivals : List (List Input)}
    (spaced : ∀ batch ∈ arrivals, (publicationsOf batch).length < 2 ^ 31 - 1) {k : Nat}
    {s : Flight} (found : (starts options elapsedUs arrivals v.takeoff)[k]? = some s) :
    (KillAsked (history published arrivals k) →
      s.cycle options (elapsedUs s.cycles) = (some s.kill.1, s.kill.2) ∧
        s.cycleWrites options (elapsedUs s.cycles) = v.mixer.stopWrites ∧
        (starts options elapsedUs arrivals v.takeoff).length = k + 1 ∧
        v.fly options elapsedUs arrivals = (some s.kill.1, s.kill.2)) ∧
    (¬ KillAsked (history published arrivals k) →
      s.Applies options (elapsedUs s.cycles) v.mixer (newest (history published arrivals k))) ∧
    (∀ frames batches, published = frames.map Frame.publication →
      arrivals.map publicationsOf = batches.map (List.map Frame.publication) →
      s.applied = (keptAfter frames batches k).frame.command ∧
        (keptAfter frames batches k).frame = newestFrame (publishedBefore frames batches k)) ∧
    (∀ t batch, (starts options elapsedUs arrivals v.takeoff)[k + 1]? = some t →
      arrivals[k]? = some batch → publicationsOf batch = [] → t.applied = s.applied) ∧
    ((s.cycle options (elapsedUs s.cycles)).1 = none →
      v.takeoff.Counted ((starts options elapsedUs arrivals v.takeoff).take (k + 1))
        (s.cycle options (elapsedUs s.cycles)).2) := by
  have serviceable := reachable.serviceable
  have takeoff_tracks : v.takeoff.Tracks [] published := ⟨mailbox, rfl, rfl, .inl rfl⟩
  have tracked {k : Nat} {s : Flight}
      (found : (starts options elapsedUs arrivals v.takeoff)[k]? = some s) :
      (s.Killed ↔ KillAsked (history published arrivals k)) ∧
        s.applied = newest (history published arrivals k) := by
    obtain ⟨seen, unread, same, tracks⟩ := exists_tracks v.takeoff_flying complete serviceable
      takeoff_tracks spaced found
    rw [← same]
    exact ⟨tracks.killed_iff, tracks.lookup.1⟩
  obtain ⟨killed_iff, applied_eq⟩ := tracked found
  have flying := starts_flying v.takeoff_flying complete serviceable options elapsedUs arrivals s
    (List.mem_of_getElem? found)
  refine ⟨fun asked => ?_, fun not_asked => ?_, fun frames batches bits same => ?_,
    fun t batch later batch_found silent => ?_, fun goes_on => ?_⟩
  · have cycle_eq := cycle_of_killed (killed_iff.mpr asked) options (elapsedUs s.cycles)
    obtain ⟨length, run_eq⟩ := run_eq_of_ended found (by simp [cycle_eq])
    refine ⟨cycle_eq, ?_, length, ?_⟩
    · rw [cycleWrites_of_killed (flying.complete complete) (flying.serviceable serviceable)
        (killed_iff.mpr asked), flying.stopWrites_eq]
    · rw [fly_of_complete complete, run_eq, cycle_eq]
  · rw [← applied_eq]
    exact applies_of_not_killed flying complete serviceable (mt killed_iff.mp not_asked) _ _
  · obtain rfl := bits
    have attends : v.takeoff.Attends (frames.map Frame.publication) := ⟨mailbox, fun _ => rfl⟩
    have few : ∀ batch ∈ batches, batch.length < 2 ^ 31 - 1 := by
      intro batch mem
      have published := List.mem_map_of_mem (f := List.map Frame.publication) mem
      rw [← same] at published
      obtain ⟨inputs, inputs_mem, inputs_eq⟩ := List.mem_map.mp published
      have length := spaced inputs inputs_mem
      rwa [inputs_eq, List.length_map] at length
    refine ⟨(keptAfter_standsFor attends ⟨rfl, rfl⟩ same found).command, ?_⟩
    rw [keptAfter_eq few]
    rfl
  · rw [(tracked later).2, history_succ batch_found, silent, List.append_nil, applied_eq]
  · have course := cycle_course (flying.complete complete) (flying.serviceable serviceable) options
      (elapsedUs s.cycles)
    rw [goes_on] at course
    rw [List.take_add_one, found]
    exact (counted_take v.takeoff_flying complete serviceable found).concat
      (flying.complete complete) course

/-- The quadcopter with something published in its mailbox. -/
def Vehicle.quadHolding (published : List (Command × Flags)) : Vehicle :=
  { Vehicle.quad with mailbox := holding published }

/-- The second cycle of a quadcopter finds a thrust that is not a number, and keeps its payload. -/
theorem Vehicle.fly_follows_latest_out_of_bounds :
    let frames : List Frame := [⟨0x3f000000, 0, 0, 0, 0⟩]
    let batches : List (List Frame) := [[⟨0x7fc00123, 0, 0, 0, 2⟩]]
    let v := quadHolding (frames.map Frame.publication)
    let arrivals : List (List Input) := [[.publish ⟨.nan, 0, 0, 0⟩ .start]]
    v.mixer.Reachable ∧ v.mixer.checkComplete = .ok () ∧
      (∀ batch ∈ arrivals, (publicationsOf batch).length < 2 ^ 31 - 1) ∧
      arrivals.map publicationsOf = batches.map (List.map Frame.publication) ∧
      ∃ s, (starts ⟨50, none⟩ (fun _ => 0) arrivals v.takeoff)[1]? = some s ∧
        s.Applies ⟨50, none⟩ 0 .quad ⟨.nan, 0, 0, 0⟩ ∧ s.cycleWrites ⟨50, none⟩ 0 = [] ∧
        (keptAfter frames batches 1).frame.thrust = 0x7fc00123 := by
  intro frames batches v arrivals
  have complete : v.mixer.checkComplete = .ok () := rfl
  have spaced : ∀ batch ∈ arrivals, (publicationsOf batch).length < 2 ^ 31 - 1 := by decide
  have same : arrivals.map publicationsOf = batches.map (List.map Frame.publication) := by decide
  have second : ((starts ⟨50, none⟩ (fun _ => 0) arrivals v.takeoff)[1]?).isSome = true := by
    decide +kernel
  obtain ⟨s, found⟩ := Option.isSome_iff_exists.mp second
  have not_asked : ¬ KillAsked (history (frames.map Frame.publication) arrivals 1) := by
    rintro ⟨publication, last, kill⟩
    cases last
    exact absurd kill (by decide)
  obtain ⟨-, follows, bits, -⟩ :=
    fly_follows_latest Mixer.quad_reachable complete rfl ⟨50, none⟩ (fun _ => 0) spaced found
  have applies := follows not_asked
  refine ⟨Mixer.quad_reachable, complete, spaced, same, s, found, applies,
    (applies.skipped (by decide)).1, ?_⟩
  rw [(bits frames batches rfl same).2]
  rfl

/-- A quadcopter whose second motor does not answer, asked for some thrust. -/
def Vehicle.brokenQuad : Vehicle :=
  { quadHolding [(⟨0.3, 0, 0, 0⟩, .none)] with
    bench := { timer := (Timer.bench 4).injectFault 2 .writeFailed } }

/-- A cycle that fails attempts more than the execution of its command, because every motor is
stopped afterwards. -/
theorem Vehicle.fly_writes_more_than_execution :
    ¬ ∀ (v : Vehicle) (published : List (Command × Flags)) (options : LoopOptions)
      (elapsedUs : Nat → Nat) (arrivals : List (List Input)), v.mixer.Reachable →
      v.mixer.checkComplete = .ok () → v.mailbox = holding published →
      (∀ batch ∈ arrivals, (publicationsOf batch).length < 2 ^ 31 - 1) →
      ∀ k s, (starts options elapsedUs arrivals v.takeoff)[k]? = some s →
        ¬ KillAsked (history published arrivals k) →
        (newest (history published arrivals k)).InBounds →
        s.cycleWrites options (elapsedUs s.cycles) =
          s.vehicle.mixer.executionWrites (newest (history published arrivals k))
            s.vehicle.bench := by
  intro claim
  have not_asked : ¬ KillAsked (history [(⟨0.3, 0, 0, 0⟩, .none)] [] 0) := by
    rintro ⟨publication, last, kill⟩
    cases last
    exact absurd kill (by decide)
  have same := claim brokenQuad [(⟨0.3, 0, 0, 0⟩, .none)] ⟨50, some 1⟩ (fun _ => 0) []
    Mixer.quad_reachable rfl rfl (fun batch mem => absurd mem List.not_mem_nil) 0
    brokenQuad.takeoff rfl not_asked (by decide)
  exact absurd same (by decide)

end Multirotor
