import Mathlib.Data.List.NodupEquivFin
import Multirotor.Proofs.Mixer.Service

/-!
# Slot order

A checked attachment takes a motor only for the position of the next free slot.  A release that
fails closes the gaps of the motors that left, so that the motors behind a gap move up to slots of
other positions.  Motors keep their slots exactly as long as those that stay are the first ones.
-/

namespace Multirotor.Service

variable {s s' : Service} {step : Step} {moved : Nat → Nat → Prop}

/-- Motors are attached with a check of their position. -/
def Checked (_ : Service) : Step → Prop
  | .operate (.attach _) => False
  | _ => True

/-- Motors are attached with a check of their position, and those that stay at a release are the
first ones. -/
def Orderly (s : Service) : Step → Prop
  | .operate (.attach _) => False
  | .operate .release => s.mixer.stranded s.bench.timer <+: s.mixer.motors
  | _ => True

/-- Every motor was attached for a position, and its slot now is related to the slot of this
position. -/
def Placed (moved : Nat → Nat → Prop) (s : Service) : Prop :=
  ∀ k post, s.roster[k]? = some post →
    ∃ j p, moved k j ∧ post.position? = some p ∧ s.mixer.geometry.positions[j]? = some p

theorem Orderly.checked (orderly : s.Orderly step) : s.Checked step := by
  rcases step with ⟨operation⟩ | _
  · cases operation <;> first | exact orderly | trivial
  · trivial

theorem advance_geometry (s : Service) (step : Step) :
    (s.advance step).mixer.geometry = s.mixer.geometry := by
  cases step with
  | operate operation => exact s.mixer.perform_geometry s.bench operation
  | disturb disturbance => rfl

/-- A step keeps motors in place if a release does. -/
theorem Placed.advance (placed : s.Placed moved) (refl : ∀ k, moved k k)
    (consistent : s.Consistent) (checked : s.Checked step)
    (leave : step = .operate .release → ∀ k post, s.detained[k]? = some post →
      ∃ k', s.roster[k']? = some post ∧ ∀ j, moved k' j → moved k j) :
    (s.advance step).Placed moved := by
  intro k post found
  rw [advance_geometry]
  rcases consistent.move step with
    ⟨operation, joined, rfl, recruit, next, _, _, roster⟩ | ⟨_, _, roster⟩ |
      ⟨released, _, _, _, roster⟩ <;>
    rw [roster] at found
  · rcases Nat.lt_or_ge k s.roster.length with old | new
    · rw [List.getElem?_append_left old] at found
      exact placed k post found
    · -- the new motor sits in the slot that was free before
      rw [List.getElem?_append_right new, List.getElem?_singleton] at found
      obtain ⟨at_end, rfl⟩ : k - s.roster.length = 0 ∧ joined = post := by simpa using found
      have slot : k = s.mixer.motors.length := by
        have length := congrArg List.length consistent.motors
        rw [List.length_map, List.length_map] at length
        omega
      cases operation with
      | attachAt position motor =>
        cases recruit
        exact ⟨k, position, refl k, rfl, slot ▸ next position rfl⟩
      | attach motor => exact absurd checked id
      | _ => cases recruit
  · exact placed k post found
  · obtain ⟨k', found', further⟩ := leave released k post found
    obtain ⟨j, p, relation, position, at_slot⟩ := placed k' post found'
    exact ⟨j, p, further j relation, position, at_slot⟩

/-- A release moves no motor back. -/
theorem exists_roster_of_detained {k : Nat} {post : Post} (found : s.detained[k]? = some post) :
    ∃ k', k ≤ k' ∧ s.roster[k']? = some post := by
  obtain ⟨f, same⟩ := List.sublist_iff_exists_orderEmbedding_getElem?_eq.mp
    (List.filter_sublist : s.detained.Sublist s.roster)
  exact ⟨f k, f.strictMono.le_apply, (same k).symm.trans found⟩

theorem Reachable.placed_le (reachable : s.Reachable Checked) : s.Placed (· ≤ ·) := by
  induction reachable with
  | configure configured => simp [Placed]
  | advance step reachable checked induction =>
    refine induction.advance le_refl reachable.consistent checked fun _ k post found => ?_
    obtain ⟨k', le, found'⟩ := exists_roster_of_detained found
    exact ⟨k', found', fun j further => le.trans further⟩

/-! ## Releases that keep the order -/

/-- What passes a filter comes first exactly if nothing that passes comes after what does not. -/
theorem filter_prefix_iff {α : Type} {p : α → Bool} {l : List α} :
    l.filter p <+: l ↔ l.Pairwise fun a b => p b → p a := by
  induction l with
  | nil => simp
  | cons a l induction =>
    rw [List.pairwise_cons]
    by_cases passes : p a = true
    · rw [List.filter_cons_of_pos passes, List.prefix_cons_inj, induction]
      simp [passes]
    · rw [List.filter_cons_of_neg passes]
      constructor
      · intro first
        have nothing : l.filter p = [] := by
          rcases filtered : l.filter p with _ | ⟨b, rest⟩
          · rfl
          · have b_mem : b ∈ l.filter p := by rw [filtered]; exact List.mem_cons_self
            rw [filtered, List.cons_prefix_cons] at first
            exact absurd (first.1 ▸ List.of_mem_filter b_mem) passes
        have fails := List.filter_eq_nil_iff.mp nothing
        exact ⟨fun b mem pass => absurd pass (fails b mem),
          List.pairwise_of_forall_mem_list fun b _ c mem pass => absurd pass (fails c mem)⟩
      · rintro ⟨implies, _⟩
        have nothing : l.filter p = [] :=
          List.filter_eq_nil_iff.mpr fun b mem pass => passes (implies b mem pass)
        rw [nothing]
        exact List.nil_prefix

theorem Consistent.detained_prefix_iff (consistent : s.Consistent) :
    s.detained <+: s.roster ↔ s.mixer.stranded s.bench.timer <+: s.mixer.motors := by
  -- both sides speak of the channels only
  let refuses (channel : UInt32) : Prop := s.bench.timer.refusal? (.stop channel) ≠ none
  have roster := List.pairwise_map (f := Post.channel) (l := s.roster)
    (R := fun c d => refuses d → refuses c)
  have motors := List.pairwise_map (f := Esc.channel) (l := s.mixer.motors)
    (R := fun c d => refuses d → refuses c)
  rw [consistent.map_channel] at roster
  rw [detained, Mixer.stranded, filter_prefix_iff, filter_prefix_iff]
  simpa [refuses] using roster.symm.trans motors

/-- Motors that come first stay in their slots. -/
theorem getElem?_roster_of_first (first : s.detained <+: s.roster) {k : Nat} {post : Post}
    (found : s.detained[k]? = some post) : s.roster[k]? = some post := by
  obtain ⟨inside, rfl⟩ := List.getElem?_eq_some_iff.mp found
  exact List.prefix_iff_getElem?.mp first k inside

theorem Reachable.placed_eq (reachable : s.Reachable Orderly) : s.Placed (· = ·) := by
  induction reachable with
  | configure configured => simp [Placed]
  | @advance s step reachable orderly induction =>
    refine induction.advance (fun _ => rfl) reachable.consistent orderly.checked ?_
    rintro rfl k post found
    have first := reachable.consistent.detained_prefix_iff.mpr orderly
    exact ⟨k, getElem?_roster_of_first first found, fun j same => same⟩

/-- No position occurs twice in a geometry. -/
theorem nodup_positions (g : Geometry) : g.positions.Nodup := by cases g <;> decide

/-- A release keeps the order exactly if the motors that stay are the first ones. -/
theorem placed_release_iff (consistent : s.Consistent) (placed : s.Placed (· = ·)) :
    (s.advance (.operate .release)).Placed (· = ·) ↔
      s.mixer.stranded s.bench.timer <+: s.mixer.motors := by
  have nobody : s.recruits .release = [] := recruits_eq_nil rfl
  have roster : (s.advance (.operate .release)).roster = s.detained := by
    simp [Service.advance, retained, nobody]
  rw [← consistent.detained_prefix_iff]
  constructor
  · intro after
    refine List.prefix_iff_getElem?.mpr fun k inside => ?_
    have found := List.getElem?_eq_getElem inside
    obtain ⟨k', _, found'⟩ := exists_roster_of_detained found
    obtain ⟨_, p, rfl, position, at_slot⟩ := after k _ (by rw [roster, found])
    obtain ⟨_, p', rfl, position', at_slot'⟩ := placed k' _ found'
    rw [advance_geometry] at at_slot
    obtain rfl : p = p' := Option.some.inj (position.symm.trans position')
    have same : k = k' := (List.getElem?_inj (List.getElem?_eq_some_iff.mp at_slot).1
      (nodup_positions _)).mp (at_slot.trans at_slot'.symm)
    rwa [← same] at found'
  · intro first k post found
    rw [advance_geometry]
    rw [roster] at found
    exact placed k post (getElem?_roster_of_first first found)

/-! ## Which factors a motor gets -/

theorem Consistent.getElem?_roster (consistent : s.Consistent) {k : Nat} {e : Esc}
    (found : s.mixer.motors[k]? = some e) :
    ∃ post, s.roster[k]? = some post ∧ post ∈ s.enlisted ∧ post.motor.disarmed = e.disarmed := by
  have same := congrArg (fun l => l[k]?) consistent.motors
  simp only [List.getElem?_map, found, Option.map_some, Option.map_eq_some_iff] at same
  obtain ⟨post, found_post, agree⟩ := same
  exact ⟨post, found_post, consistent.sublist.subset (List.mem_of_getElem? found_post), agree⟩

/-- The raw demand on a motor comes from the arm of its slot. -/
theorem getElem?_mix (g : Geometry) (c : Command) (k : Nat) :
    (mix g.table c)[k]? = g.arms[k]?.map fun arm => arm.factors.demand c := by
  have whole : g.table.take maxMotors = g.table :=
    List.take_of_length_le (g.length_table.trans_le g.motorCount_le)
  rw [mix, whole, Geometry.table, List.map_map, List.getElem?_map]
  rfl

/-- The motor in a slot gets the speed that is made from the factors of a position. -/
def DrivenFor (m : Mixer) (k : Nat) (e : Esc) (p : Position) : Prop :=
  ∃ arm ∈ m.geometry.arms, arm.position = p ∧ ∀ c : Command,
    (mix m.geometry.table (prescale m.policy c))[k]? =
        some (arm.factors.demand (prescale m.policy c)) ∧
      (m.speedWrites c)[k]? = (allocate m.geometry.table m.policy c)[k]?.map e.speedWrite

theorem drivenFor_of_slot {m : Mixer} {k : Nat} {e : Esc} {p : Position}
    (found : m.motors[k]? = some e) (at_slot : m.geometry.positions[k]? = some p) :
    DrivenFor m k e p := by
  rw [Geometry.positions, List.getElem?_map, Option.map_eq_some_iff] at at_slot
  obtain ⟨arm, at_arm, rfl⟩ := at_slot
  refine ⟨arm, List.mem_of_getElem? at_arm, rfl, fun c => ⟨?_, Mixer.getElem?_speedWrites found c⟩⟩
  rw [getElem?_mix, at_arm, Option.map_some]

/-- Motors attached with a check of their position never sit behind their slots.  If the motors that
stayed at a release were always the first ones, each motor is in its slot and is driven with the
factors of its position; and no other release keeps the order. -/
theorem checked_motors_keep_slots (reachable : s.Reachable Checked) :
    (∀ (k : Nat) (e : Esc), s.mixer.motors[k]? = some e →
      ∃ post ∈ s.enlisted, s.roster[k]? = some post ∧ post.motor.disarmed = e.disarmed ∧
        ∃ p, post.position? = some p ∧ (∃ j, k ≤ j ∧ s.mixer.geometry.positions[j]? = some p) ∧
          (s.Reachable Orderly →
            s.mixer.geometry.positions[k]? = some p ∧ DrivenFor s.mixer k e p)) ∧
      (s.Placed (· = ·) → ((s.advance (.operate .release)).Placed (· = ·) ↔
        s.mixer.stranded s.bench.timer <+: s.mixer.motors)) := by
  refine ⟨fun k e found => ?_, placed_release_iff reachable.consistent⟩
  obtain ⟨post, on_roster, enlisted, agree⟩ := reachable.consistent.getElem?_roster found
  obtain ⟨j, p, le, position, at_slot⟩ := reachable.placed_le k post on_roster
  refine ⟨post, enlisted, on_roster, agree, p, position, ⟨j, le, at_slot⟩, fun orderly => ?_⟩
  obtain ⟨_, p', rfl, position', in_place⟩ := orderly.placed_eq k post on_roster
  obtain rfl : p' = p := Option.some.inj (position'.symm.trans position)
  exact ⟨in_place, drivenFor_of_slot found in_place⟩

/-- Checked attachments of fresh motors. -/
def attachments (slots : List (UInt32 × Position)) : List Step :=
  slots.map fun slot => .operate (.attachAt slot.2 (.fresh slot.1 .oneShot125))

def fullQuad : List Step :=
  attachments [(1, .frontRight), (2, .rearLeft), (3, .frontLeft), (4, .rearRight)]

/-- A release that keeps the first motor keeps the order. -/
theorem checked_motors_keep_slots_first :
    let steps : List Step := .disturb (.injectFault 1 .writeFailed) :: fullQuad
    let s := steps.foldl advance bareQuad
    let s' := s.advance (.operate .release)
    s'.mixer.motors[0]? = some (.fresh 1 .oneShot125) ∧ s'.Placed (· = ·) ∧
      ∃ p, DrivenFor s'.mixer 0 (.fresh 1 .oneShot125) p := by
  intro steps s s'
  have fine : ∀ step ∈ steps, ∀ s, Orderly s step := by
    simp [steps, fullQuad, attachments, Orderly]
  have orderly : s.Reachable Orderly := (bareQuad_reachable _).foldl fine
  have checked : s.Reachable Checked := (bareQuad_reachable _).foldl fun step mem s =>
    (fine step mem s).checked
  have first : s.mixer.stranded s.bench.timer <+: s.mixer.motors := by decide
  have kept : s'.mixer.motors[0]? = some (.fresh 1 .oneShot125) := by decide
  have placed := ((checked_motors_keep_slots checked).2 orderly.placed_eq).mpr first
  obtain ⟨_, _, _, _, p, _, _, driven⟩ :=
    (checked_motors_keep_slots (checked.advance (.operate .release) trivial)).1 0 _ kept
  exact ⟨kept, placed, p, (driven (orderly.advance (.operate .release) first)).2⟩

/-- After a release that keeps the second motor only, and with new motors for the free slots, the
motor attached for the rear left is driven for the front right. -/
theorem release_moves_motor_to_other_slot :
    let stuck : List Step :=
      [.disturb (.injectFault 2 .writeFailed), .operate .release, .disturb .clearFaults]
    let steps := fullQuad ++ stuck ++ attachments [(5, .rearLeft), (6, .frontLeft), (7, .rearRight)]
    let s := steps.foldl advance bareQuad
    s.Reachable Checked ∧ s.mixer.checkComplete = .ok () ∧
      s.mixer.motors[0]? = some (.fresh 2 .oneShot125) ∧
      s.roster[0]? = some ⟨.fresh 2 .oneShot125, some .rearLeft⟩ ∧
      s.mixer.geometry.positions[0]? = some .frontRight ∧ ¬ s.Placed (· = ·) ∧
      ¬ DrivenFor s.mixer 0 (.fresh 2 .oneShot125) .rearLeft := by
  intro stuck steps s
  have fine : ∀ step ∈ steps, ∀ s, Checked s step := by
    simp [steps, stuck, fullQuad, attachments, Checked]
  have on_roster : s.roster[0]? = some ⟨.fresh 2 .oneShot125, some .rearLeft⟩ := by decide
  have at_slot : s.mixer.geometry.positions[0]? = some .frontRight := by decide
  refine ⟨(bareQuad_reachable _).foldl fine, by decide, by decide, on_roster, at_slot,
    fun placed => ?_, fun driven => ?_⟩
  · obtain ⟨_, p, rfl, position, at_slot'⟩ := placed 0 _ on_roster
    rw [at_slot] at at_slot'
    cases position
    cases at_slot'
  · -- a command that rolls tells the rows of the two positions apart
    obtain ⟨arm, mem, position, demands⟩ := driven
    have demand := (demands ⟨0.5, 0.25, 0, 0⟩).1
    have geometry : s.mixer.geometry = .quadX := by decide
    have policy : s.mixer.policy = .clampAndShift := by decide
    rw [geometry] at mem
    rw [geometry, policy] at demand
    simp only [Geometry.arms, List.mem_cons, List.not_mem_nil, or_false] at mem
    rcases mem with rfl | rfl | rfl | rfl
    · cases position
    · exact absurd demand (by decide)
    · cases position
    · cases position

end Multirotor.Service
