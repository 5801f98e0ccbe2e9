import Multirotor.Proofs.ControlLoop.Run

/-!
# Waiting out the period

A cycle that ends the loop asks for no wait, and neither does one that fills its period.  Any other
cycle asks for exactly one.  The wait is counted in 32 bits: a rest of the period below `2 ^ 32`
microseconds is waited out, and a longer one is cut to what is left of it modulo `2 ^ 32`.
-/

namespace Multirotor

namespace Flight

variable {f g : Flight} {options : LoopOptions} {elapsed : Nat}

/-- The waits asked for so far in microseconds, oldest first. -/
def waited (f : Flight) : List Nat := f.pauses.toList.map fun pause => pause.waitUs.toNat

/-- The waits that a cycle asks for. -/
def cycleWaits (options : LoopOptions) (elapsed : Nat) (f : Flight) : List Nat :=
  (f.cycle options elapsed).2.waited.drop f.waited.length

/-! ## One cycle -/

theorem cycleWaits_of_append {waits : List Nat}
    (asked : (f.cycle options elapsed).2.waited = f.waited ++ waits) :
    f.cycleWaits options elapsed = waits := by
  rw [cycleWaits, asked, List.drop_left]

/-- The wait for the rest of the period is counted in 32 bits. -/
theorem waited_wait (f : Flight) (options : LoopOptions) (elapsed : Nat) :
    (f.wait options elapsed).waited =
      f.waited ++
        if elapsed < options.periodUs then [(options.periodUs - elapsed) % 2 ^ 32] else [] := by
  rw [wait]
  split
  · simp [waited]
  · rw [List.append_nil]

theorem waited_of_goes_on (goes_on : (f.cycle options elapsed).1 = none) :
    (f.cycle options elapsed).2.waited =
      f.waited ++
        if elapsed < options.periodUs then [(options.periodUs - elapsed) % 2 ^ 32] else [] := by
  have cycle_eq : f.cycle options elapsed = (none, (f.cycle options elapsed).2) :=
    Prod.ext goes_on rfl
  obtain ⟨h, keeps, same⟩ := cycle_of_goes_on cycle_eq
  have before : (h.countCycle elapsed).waited = f.waited :=
    congrArg (fun pauses => pauses.toList.map fun pause => pause.waitUs.toNat)
      (keeps.pauses.trans f.lookup_pauses)
  rw [same, waited_wait, before]

theorem waited_of_ended (ended : (f.cycle options elapsed).1 ≠ none) :
    (f.cycle options elapsed).2.waited = f.waited := by
  obtain ⟨result, found⟩ := Option.ne_none_iff_exists'.mp ended
  rw [waited, pauses_of_ended (Prod.ext found rfl), waited]

theorem cycleWaits_eq (options : LoopOptions) (elapsed : Nat) (f : Flight) :
    f.cycleWaits options elapsed =
      (f.cyclePauses options elapsed).map fun pause => pause.waitUs.toNat := by
  apply cycleWaits_of_append
  rw [waited, pauses_cycle, List.map_append, waited]

/-! ## Whole runs -/

/-- A run asks for the waits of its cycles. -/
theorem waited_run (options : LoopOptions) (elapsedUs : Nat → Nat) (arrivals : List (List Input))
    (f : Flight) :
    (run options elapsedUs arrivals f).2.waited =
      f.waited ++ (starts options elapsedUs arrivals f).flatMap fun s =>
        s.cycleWaits options (elapsedUs s.cycles) := by
  simp only [waited, pauses_run, List.map_append, List.map_flatMap, cycleWaits_eq]

end Flight

open Flight

/-- The loop asks for the waits of its cycles.  A cycle that goes on before its period is over asks
for one, which is the rest of the period exactly if the rest fits into 32 bits and is cut
otherwise.  A cycle that fills its period and the last cycle ask for none. -/
theorem Vehicle.fly_waits {v : Vehicle} (complete : v.mixer.checkComplete = .ok ())
    (options : LoopOptions) (elapsedUs : Nat → Nat) (arrivals : List (List Input)) :
    (v.fly options elapsedUs arrivals).2.waited =
        ((starts options elapsedUs arrivals v.takeoff).flatMap fun s =>
          s.cycleWaits options (elapsedUs s.cycles)) ∧
      ∀ s ∈ starts options elapsedUs arrivals v.takeoff,
        let elapsed := elapsedUs s.cycles
        let rest := options.periodUs - elapsed
        ((s.cycle options elapsed).1 = none → elapsed < options.periodUs →
          s.cycleWaits options elapsed = [rest % 2 ^ 32] ∧
            (s.cycleWaits options elapsed = [rest] ↔ rest < 2 ^ 32)) ∧
        (options.periodUs ≤ elapsed → s.cycleWaits options elapsed = []) ∧
        ((s.cycle options elapsed).1 ≠ none → s.cycleWaits options elapsed = []) := by
  constructor
  · rw [fly_of_complete complete, waited_run]
    rfl
  · intro s _ elapsed rest
    have last (ended : (s.cycle options elapsed).1 ≠ none) :
        s.cycleWaits options elapsed = [] := by
      apply cycleWaits_of_append
      rw [waited_of_ended ended, List.append_nil]
    refine ⟨fun goes_on early => ?_, fun filled => ?_, last⟩
    · have asked := cycleWaits_of_append (waited_of_goes_on goes_on)
      rw [if_pos early] at asked
      refine ⟨asked, ?_⟩
      rw [asked, List.cons.injEq, and_iff_left rfl, Nat.mod_eq_iff_lt (by norm_num)]
    · by_cases goes_on : (s.cycle options elapsed).1 = none
      · have asked := cycleWaits_of_append (waited_of_goes_on goes_on)
        rwa [if_neg filled.not_gt] at asked
      · exact last goes_on

/-- A quadcopter with a period of 50 milliseconds, and with one of more than 71 minutes, of which
five seconds are left. -/
theorem Vehicle.fly_waits_five_seconds :
    Vehicle.quad.mixer.checkComplete = .ok () ∧
      (Vehicle.quad.fly ⟨50, some 2⟩ (fun _ => 5) [[]]).2.waited = [49995] ∧
      (Vehicle.quad.fly ⟨4300000, some 2⟩ (fun _ => 5) [[]]).2.waited = [5032699] := by
  have complete : Vehicle.quad.mixer.checkComplete = .ok () := rfl
  have short := (fly_waits complete ⟨50, some 2⟩ (fun _ => 5) [[]]).1
  have long := (fly_waits complete ⟨4300000, some 2⟩ (fun _ => 5) [[]]).1
  exact ⟨complete, short.trans (by decide +kernel), long.trans (by decide +kernel)⟩

/-- A rest of the period that does not fit into 32 bits is not waited out. -/
theorem Vehicle.fly_cuts_wait :
    ¬ ∀ (v : Vehicle) (options : LoopOptions) (elapsedUs : Nat → Nat)
      (arrivals : List (List Input)), v.mixer.checkComplete = .ok () →
      ∀ s ∈ starts options elapsedUs arrivals v.takeoff,
        (s.cycle options (elapsedUs s.cycles)).1 = none →
        elapsedUs s.cycles < options.periodUs →
        s.cycleWaits options (elapsedUs s.cycles) = [options.periodUs - elapsedUs s.cycles] := by
  intro claim
  have first : Vehicle.quad.takeoff ∈
      starts ⟨4300000, some 2⟩ (fun _ => 5) [[]] Vehicle.quad.takeoff :=
    List.mem_of_getElem? (getElem?_starts_zero _ _)
  have waits := claim .quad ⟨4300000, some 2⟩ (fun _ => 5) [[]] rfl _ first (by decide +kernel)
    (by decide)
  revert waits
  decide +kernel

end Multirotor
