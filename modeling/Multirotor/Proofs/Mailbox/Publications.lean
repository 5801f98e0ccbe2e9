import Mathlib.Algebra.Group.Nat.Defs
import Mathlib.Data.List.Induction
import Mathlib.Data.Nat.ModEq
import Multirotor.Vehicle

/-!
# What was published

A mailbox is described by the list of its publications: a reader finds the last of them, and the
sequence number counts them round and round without 0.  Two readings between which something was
published therefore find different sequence numbers unless the count came all the way round.
-/

namespace Multirotor

/-- The command of the last publication, and no demand at all if there was none. -/
def newest (publications : List (Command × Flags)) : Command :=
  match publications.getLast? with
  | some publication => publication.1
  | none => .idle

theorem Command.idle_inBounds : Command.idle.InBounds := by decide

/-- The last publication asks for the motors to be killed. -/
def KillAsked (publications : List (Command × Flags)) : Prop :=
  ∃ publication, publications.getLast? = some publication ∧ publication.2.Contains .kill

/-- Dropping unknown bits leaves the kill switch alone. -/
theorem Flags.truncate_contains_kill (f : Flags) :
    f.truncate.Contains .kill ↔ f.Contains .kill := by
  have known : Flags.known.bits &&& Flags.kill.bits = Flags.kill.bits := by decide
  rw [Contains, truncate, UInt8.and_assoc, known]
  rfl

/-! ## Mailboxes -/

namespace Mailbox

/-- The mailbox after publications in their order. -/
def publishAll (m : Mailbox) (publications : List (Command × Flags)) : Mailbox :=
  publications.foldl (fun m publication => m.publish publication.1 publication.2) m

/-- A mailbox with everything that was ever published in it. -/
def holding (publications : List (Command × Flags)) : Mailbox := publishAll {} publications

theorem publishAll_holding (before after : List (Command × Flags)) :
    (holding before).publishAll after = holding (before ++ after) :=
  List.foldl_append.symm

theorem holding_concat (publications : List (Command × Flags)) (last : Command × Flags) :
    holding (publications ++ [last]) = (holding publications).publish last.1 last.2 :=
  List.foldl_append

theorem toNat_nextSequence (n : UInt32) :
    (nextSequence n).toNat = if n.toNat + 2 = 2 ^ 32 then 2 else (n.toNat + 2) % 2 ^ 32 := by
  have sum : (n + 2).toNat = (n.toNat + 2) % 2 ^ 32 := UInt32.toNat_add n 2
  have bound := n.toNat_lt
  have zero_iff : n + 2 = 0 ↔ n.toNat + 2 = 2 ^ 32 := by
    rw [← UInt32.toNat_inj, sum, UInt32.toNat_zero]
    omega
  rw [nextSequence]
  by_cases round : n.toNat + 2 = 2 ^ 32
  · rw [if_pos (zero_iff.mpr round), if_pos round]
    rfl
  · rw [if_neg (mt zero_iff.mp round), if_neg round, sum]

/-- The sequence number counts the publications round and round from 2 to `2 ^ 32 - 2`. -/
theorem toNat_sequence_holding (publications : List (Command × Flags)) :
    (holding publications).sequence.toNat =
      if publications.length = 0 then 0
      else 2 * ((publications.length - 1) % (2 ^ 31 - 1) + 1) := by
  induction publications using List.reverseRecOn with
  | nil => rfl
  | append_singleton publications last induction =>
    rw [holding_concat, List.length_append, List.length_singleton]
    change (nextSequence (holding publications).sequence).toNat = _
    rw [toNat_nextSequence, induction, if_neg (Nat.succ_ne_zero _), Nat.add_sub_cancel]
    by_cases first : publications.length = 0
    · rw [if_pos first, first]
      rfl
    · rw [if_neg first]
      split <;> omega

/-- The sequence number 0 means that nothing was published. -/
theorem sequence_holding_eq_zero_iff (publications : List (Command × Flags)) :
    (holding publications).sequence = 0 ↔ publications = [] := by
  rw [← UInt32.toNat_inj, toNat_sequence_holding, ← List.length_eq_zero_iff, UInt32.toNat_zero]
  split <;> simp [*]

/-- Two publications have one sequence number exactly if their places in the count differ by a
multiple of its period. -/
theorem sequence_holding_eq_iff {before after : List (Command × Flags)} (published : before ≠ [])
    (published' : after ≠ []) :
    (holding before).sequence = (holding after).sequence ↔
      before.length ≡ after.length [MOD 2 ^ 31 - 1] := by
  have positive := List.length_pos_iff.mpr published
  have positive' := List.length_pos_iff.mpr published'
  rw [← UInt32.toNat_inj, toNat_sequence_holding, toNat_sequence_holding, if_neg positive.ne',
    if_neg positive'.ne', Nat.ModEq]
  omega

/-- What was published after a reading brings the count back to where it was: it is nothing at all,
or the count had begun and comes all the way round. -/
def ComesRound (seen unread : List (Command × Flags)) : Prop :=
  unread = [] ∨ seen ≠ [] ∧ 2 ^ 31 - 1 ∣ unread.length

/-- Readings see one sequence number exactly if the count has come round in between. -/
theorem sequence_holding_append_eq_iff (seen unread : List (Command × Flags)) :
    (holding (seen ++ unread)).sequence = (holding seen).sequence ↔ ComesRound seen unread := by
  by_cases silent : unread = []
  · simp [ComesRound, silent]
  · have positive := List.length_pos_iff.mpr silent
    by_cases begun : seen = []
    · have started : (holding []).sequence = 0 := rfl
      simp [ComesRound, begun, started, sequence_holding_eq_zero_iff]
    · rw [sequence_holding_eq_iff (by simp [begun]) begun, List.length_append, ComesRound,
        or_iff_right silent, and_iff_right begun, Nat.ModEq.comm, Nat.modEq_iff_dvd' (by omega),
        Nat.add_sub_cancel_left]

/-- Readings that see different publications see different sequence numbers unless the count may
have come round in between. -/
theorem sequence_holding_ne {seen unread : List (Command × Flags)} (published : unread ≠ [])
    (close : seen = [] ∨ unread.length < 2 ^ 31 - 1) :
    (holding (seen ++ unread)).sequence ≠ (holding seen).sequence := by
  rw [Ne, sequence_holding_append_eq_iff, ComesRound, or_iff_right published]
  rintro ⟨begun, round⟩
  have bound := Nat.le_of_dvd (List.length_pos_iff.mpr published) round
  exact Nat.not_lt.mpr bound (close.resolve_left begun)

/-- Between publications the sequence number is even. -/
theorem sequence_holding_even (publications : List (Command × Flags)) :
    (holding publications).sequence % 2 = 0 := by
  have count := toNat_sequence_holding publications
  rw [← UInt32.toNat_inj, UInt32.toNat_mod]
  change _ % 2 = 0
  split at count <;> omega

/-- A reader finds the last publication, without the bits that mean nothing. -/
theorem latest?_holding (publications : List (Command × Flags)) :
    (holding publications).latest? = publications.getLast?.map fun publication =>
      ⟨publication.1, publication.2.truncate, (holding publications).sequence⟩ := by
  rcases List.eq_nil_or_concat publications with rfl | ⟨earlier, last, rfl⟩
  · rfl
  · rw [List.concat_eq_append, holding_concat, latest?_publish (sequence_holding_even earlier),
      List.getLast?_concat]
    rfl

end Mailbox

/-! ## Inputs -/

/-- What an input publishes, if anything. -/
def Input.publication? : Input → Option (Command × Flags)
  | .publish command flags => some (command, flags)
  | _ => none

/-- What inputs publish, in their order. -/
def publicationsOf (inputs : List Input) : List (Command × Flags) :=
  inputs.filterMap Input.publication?

theorem publicationsOf_append (before after : List Input) :
    publicationsOf (before ++ after) = publicationsOf before ++ publicationsOf after :=
  List.filterMap_append

theorem Vehicle.receiveAll_mailbox (v : Vehicle) (inputs : List Input) :
    (v.receiveAll inputs).mailbox = v.mailbox.publishAll (publicationsOf inputs) := by
  induction inputs generalizing v with
  | nil => rfl
  | cons input inputs induction =>
    refine (induction (v.receive input)).trans ?_
    cases input <;> rfl

end Multirotor
