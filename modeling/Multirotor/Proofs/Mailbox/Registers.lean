import Mathlib.Tactic.IntervalCases
import Multirotor.Mailbox.Registers
import Multirotor.Proofs.Mailbox.Publications

/-!
# Registers and mailboxes

Whatever is done with the registers is done with the mailbox that their bits stand for, and between
publications a reader finds the bits of the last one.  During a publication it finds nothing.
-/

namespace Multirotor

namespace Registers

/-! ## Reading -/

/-- While nobody writes, one attempt finds as much as many. -/
theorem readWithin_succ (attempts : Nat) (r : Registers) :
    readWithin (attempts + 1) r =
      if r.sequence = 0 ∨ r.sequence % 2 = 1 then none
      else some (r.frame.truncate, r.sequence) := by
  induction attempts with
  | zero =>
    rw [readWithin, ite_or]
    rfl
  | succ attempts induction =>
    rw [readWithin, induction, ite_or]
    split
    · rfl
    · split <;> rfl

theorem latest?_eq (r : Registers) :
    r.latest? = if r.sequence = 0 ∨ r.sequence % 2 = 1 then none
      else some (r.frame.truncate, r.sequence) :=
  readWithin_succ 3 r

/-- A reader of the mailbox finds what the bits stand for. -/
theorem latest?_mailbox (r : Registers) :
    r.mailbox.latest? =
      r.latest?.map fun found => ⟨found.1.command, ⟨found.1.flags⟩, found.2⟩ := by
  rw [latest?_eq, Mailbox.latest?, apply_ite (Option.map _)]
  rfl

/-- Between the first and the last write of a publication a reader finds nothing. -/
theorem latest?_amid_publish {r : Registers} (even : r.sequence % 2 = 0) (frame : Frame)
    {written : Nat} (begun : 0 < written) (unfinished : written < (r.stores frame).length) :
    (((r.stores frame).take written).foldl store r).latest? = none := by
  have sequence : (((r.stores frame).take written).foldl store r).sequence = r.sequence + 1 := by
    change written < 7 at unfinished
    interval_cases written <;> rfl
  have odd : (r.sequence + 1) % 2 = 1 := by
    rw [← UInt32.toNat_inj, UInt32.toNat_mod] at even ⊢
    rw [UInt32.toNat_add]
    change r.sequence.toNat % 2 = 0 at even
    change (r.sequence.toNat + 1) % 2 ^ 32 % 2 = 1
    omega
  rw [latest?_eq, sequence, if_pos (.inr odd)]

/-! ## Publications -/

/-- A publication is one in the mailbox that the bits stand for. -/
theorem mailbox_publish (r : Registers) (frame : Frame) :
    (r.publish frame).mailbox = r.mailbox.publish frame.command ⟨frame.flags⟩ := rfl

/-- Registers with everything that was ever published in them. -/
def holding (frames : List Frame) : Registers := frames.foldl publish {}

theorem mailbox_holding (frames : List Frame) :
    (holding frames).mailbox = Mailbox.holding (frames.map Frame.publication) := by
  rw [Mailbox.holding, Mailbox.publishAll, List.foldl_map]
  exact (List.foldl_hom mailbox mailbox_publish).symm

theorem sequence_holding (frames : List Frame) :
    (holding frames).sequence = (Mailbox.holding (frames.map Frame.publication)).sequence :=
  congrArg Mailbox.sequence (mailbox_holding frames)

theorem frame_holding {frames : List Frame} {last : Frame} (found : frames.getLast? = some last) :
    (holding frames).frame = last := by
  obtain ⟨earlier, rfl⟩ := List.getLast?_eq_some_iff.mp found
  rw [holding, List.foldl_append]
  rfl

/-- Between publications a reader finds the bits of the last one. -/
theorem latest?_holding (frames : List Frame) :
    (holding frames).latest? =
      frames.getLast?.map fun last => (last.truncate, (holding frames).sequence) := by
  rw [latest?_eq]
  rcases found : frames.getLast? with _ | last
  · rw [List.getLast?_eq_none_iff.mp found]
    rfl
  · have published : frames ≠ [] := by
      rintro rfl
      cases found
    have even : (holding frames).sequence % 2 = 0 := by
      rw [sequence_holding]
      exact Mailbox.sequence_holding_even _
    rw [frame_holding found, even, if_neg]
    · rfl
    · rw [sequence_holding, Mailbox.sequence_holding_eq_zero_iff, List.map_eq_nil_iff]
      simp [published]

end Registers

end Multirotor
