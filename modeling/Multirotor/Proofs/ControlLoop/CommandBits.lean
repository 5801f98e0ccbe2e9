import Multirotor.Proofs.ControlLoop.SequenceCheck

/-!
# The bits of the command

The control loop keeps the bits of the command that it has seen last.  They stand for the command at
hand at every look, whatever is published, and as long as the sequence number does not come round
between two looks they are the bits of the last publication.  So the command of a publication is
applied bit for bit, and NaN keeps its payload.
-/

namespace Multirotor

open Registers Flight

/-- The bits of the last publication without the switches that mean nothing, and zeros if there was
none. -/
def newestFrame (frames : List Frame) : Frame :=
  match frames.getLast? with
  | some last => last.truncate
  | none => {}

/-- The bits of everything that was published before look `k`. -/
def publishedBefore (published : List Frame) (batches : List (List Frame)) (k : Nat) : List Frame :=
  published ++ (batches.take k).flatten

theorem publishedBefore_zero (published : List Frame) (batches : List (List Frame)) :
    publishedBefore published batches 0 = published := by
  rw [publishedBefore, List.take_zero]
  exact List.append_nil published

/-- What is kept after look `k`, with a batch of publications behind each look. -/
def keptAfter (published : List Frame) (batches : List (List Frame)) : Nat → Kept
  | 0 => Kept.look {} (holding published)
  | k + 1 => (keptAfter published batches k).look
      (holding (publishedBefore published batches (k + 1)))

/-! ## The last publication -/

namespace Kept

/-- What is kept of the last publication. -/
def upTo (frames : List Frame) : Kept := ⟨(holding frames).sequence, newestFrame frames⟩

/-- A look brings what is kept up to date unless the count of publications may have come round. -/
theorem look_upTo {seen unread : List Frame}
    (close : seen = [] ∨ unread.length < 2 ^ 31 - 1) :
    (upTo seen).look (holding (seen ++ unread)) = upTo (seen ++ unread) := by
  rw [look, latest?_holding, upTo, upTo, newestFrame, newestFrame]
  by_cases silent : unread = []
  · rw [silent, List.append_nil]
    rcases seen.getLast? with _ | last
    · rfl
    · simp only [Option.map_some, if_pos]
  · have fresh : (holding (seen ++ unread)).sequence ≠ (holding seen).sequence := by
      rw [sequence_holding, sequence_holding, List.map_append]
      apply Mailbox.sequence_holding_ne
      · rwa [Ne, List.map_eq_nil_iff]
      · rwa [List.map_eq_nil_iff, List.length_map]
    obtain ⟨last, found⟩ : ∃ last, (seen ++ unread).getLast? = some last :=
      ⟨_, List.getLast?_eq_some_getLast (by simp [silent])⟩
    simp only [found, Option.map_some, if_neg fresh]

end Kept

variable {published : List Frame} {batches : List (List Frame)}

/-- After every look the bits that are kept are those of the last publication. -/
theorem keptAfter_eq (spaced : ∀ batch ∈ batches, batch.length < 2 ^ 31 - 1) (k : Nat) :
    keptAfter published batches k = .upTo (publishedBefore published batches k) := by
  induction k with
  | zero =>
    rw [publishedBefore_zero]
    have unseen : ([] : List Frame) = [] ∨ published.length < 2 ^ 31 - 1 := .inl rfl
    exact Kept.look_upTo unseen
  | succ k induction =>
    have before : publishedBefore published batches (k + 1) =
        publishedBefore published batches k ++ (batches[k]?.toList).flatten := by
      rw [publishedBefore, List.take_add_one, List.flatten_append, ← List.append_assoc]
      rfl
    rw [keptAfter, induction, before]
    apply Kept.look_upTo
    right
    rcases found : batches[k]? with _ | batch
    · decide
    · simpa using spaced batch (List.mem_of_getElem? found)

/-! ## The command at hand -/

/-- The bits that are kept are those of the command at hand. -/
structure Kept.StandsFor (kept : Kept) (f : Flight) : Prop where
  sequence : f.sequence = kept.sequence
  command : f.command = kept.frame.command

/-- A look takes over bits exactly if the loop takes over the command. -/
theorem Kept.StandsFor.look {kept : Kept} {f : Flight} {r : Registers} (stands : kept.StandsFor f)
    (mailbox : f.vehicle.mailbox = r.mailbox) : (kept.look r).StandsFor f.lookup := by
  rw [Kept.look, Flight.lookup, mailbox, latest?_mailbox]
  rcases r.latest? with _ | ⟨frame, sequence⟩
  · exact stands
  · simp only [Option.map_some, Flight.accept, stands.sequence]
    split
    · exact stands
    · exact ⟨rfl, rfl⟩

variable {arrivals : List (List Input)}

/-- Bits and commands were published alike. -/
theorem history_map_publication
    (same : arrivals.map publicationsOf = batches.map (List.map Frame.publication)) (k : Nat) :
    history (published.map Frame.publication) arrivals k =
      (publishedBefore published batches k).map Frame.publication := by
  have taken : publicationsOf (arrivals.take k).flatten =
      ((batches.take k).map (List.map Frame.publication)).flatten := by
    rw [List.map_take, ← same, ← List.map_take, publicationsOf, List.filterMap_flatten]
    rfl
  rw [history, publishedBefore, taken, List.map_append, List.map_flatten]

/-- At every look of a run the bits that are kept are those of the command applied. -/
theorem keptAfter_standsFor {f : Flight} {options : LoopOptions} {elapsedUs : Nat → Nat}
    (attends : f.Attends (published.map Frame.publication)) (start : Kept.StandsFor {} f)
    (same : arrivals.map publicationsOf = batches.map (List.map Frame.publication)) {k : Nat}
    {s : Flight} (found : (starts options elapsedUs arrivals f)[k]? = some s) :
    (keptAfter published batches k).StandsFor s.lookup := by
  have mailbox {k : Nat} {s : Flight}
      (found : (starts options elapsedUs arrivals f)[k]? = some s) :
      s.vehicle.mailbox = (holding (publishedBefore published batches k)).mailbox := by
    rw [mailbox_holding, ← history_map_publication same]
    exact (attends_history attends found).mailbox
  induction k generalizing s with
  | zero =>
    have seen := mailbox found
    rw [getElem?_starts_zero] at found
    obtain rfl := Option.some.inj found
    rw [publishedBefore_zero] at seen
    exact start.look seen
  | succ k induction =>
    have seen := mailbox found
    obtain ⟨before, g, batch, before_found, goes_on, -, rfl⟩ :=
      exists_of_getElem?_starts_succ found
    have attends := attends_history attends before_found
    obtain ⟨-, sequence, command⟩ := attends.receive goes_on batch
    have stands := induction before_found
    rw [← attends.lookup_sequence] at sequence
    exact Kept.StandsFor.look ⟨sequence.trans stands.sequence, command.trans stands.command⟩ seen

end Multirotor
