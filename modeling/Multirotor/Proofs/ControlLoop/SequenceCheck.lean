import Multirotor.Proofs.ControlLoop.Run
import Multirotor.Proofs.Mailbox.Registers

/-!
# The sequence check of the control loop

After its look into the mailbox the loop has the sequence number of the last publication at hand,
whether or not it has taken its command over.  At the next look it takes the newest command over
unless the count of publications has come round to that number in between.
-/

namespace Multirotor

open Mailbox

namespace Flight

variable {f g : Flight} {options : LoopOptions}

/-- The loop before a look into a mailbox with everything that was ever published in it. -/
structure Attends (f : Flight) (published : List (Command × Flags)) : Prop where
  /-- The mailbox holds all publications. -/
  mailbox : f.vehicle.mailbox = holding published
  /-- Before the first publication no sequence number is at hand. -/
  sequence : published = [] → f.sequence = 0

namespace Attends

variable {published : List (Command × Flags)}

/-- Whatever the loop had seen before, it has seen the last publication after the look. -/
theorem lookup_sequence (attends : f.Attends published) :
    f.lookup.sequence = (holding published).sequence := by
  rw [lookup, attends.mailbox, latest?_holding]
  rcases found : published.getLast? with _ | last
  · have silent := List.getLast?_eq_none_iff.mp found
    rw [silent]
    exact attends.sequence silent
  · simp only [Option.map_some, accept]
    split
    · rename_i same
      exact same.symm
    · rfl

/-- A sequence number that is at hand already hides what was published. -/
theorem applied_of_eq (attends : f.Attends published)
    (same : (holding published).sequence = f.sequence) : f.applied = f.command := by
  rw [applied, lookup, attends.mailbox, latest?_holding]
  rcases published.getLast? with _ | last
  · rfl
  · simp only [Option.map_some, accept, if_pos same]

/-- A new sequence number makes the loop take the newest command over. -/
theorem applied_of_ne (attends : f.Attends published)
    (fresh : (holding published).sequence ≠ f.sequence) : f.applied = newest published := by
  rw [applied, lookup, attends.mailbox, latest?_holding, newest]
  rcases found : published.getLast? with _ | last
  · -- nothing was published, so the sequence number at hand is 0 as well
    have silent := List.getLast?_eq_none_iff.mp found
    rw [silent, attends.sequence silent] at fresh
    exact absurd rfl fresh
  · simp only [Option.map_some, accept, if_neg fresh]

/-- A loop that has seen nothing starts with the newest command. -/
theorem applied_of_fresh (attends : f.Attends published) (unseen : f.sequence = 0)
    (idle : f.command = .idle) : f.applied = newest published := by
  by_cases silent : published = []
  · have same : (holding published).sequence = f.sequence := by
      rw [unseen, sequence_holding_eq_zero_iff, silent]
    rw [attends.applied_of_eq same, idle, silent]
    rfl
  · apply attends.applied_of_ne
    rwa [unseen, Ne, sequence_holding_eq_zero_iff]

/-- After a cycle that goes on, the loop has seen the last publication and will find what arrives
then. -/
theorem receive (attends : f.Attends published) {elapsed : Nat}
    (goes_on : f.cycle options elapsed = (none, g)) (batch : List Input) :
    (g.receive batch).Attends (published ++ publicationsOf batch) ∧
      (g.receive batch).sequence = (holding published).sequence ∧
      (g.receive batch).command = f.applied := by
  obtain ⟨h, keeps, rfl⟩ := cycle_of_goes_on goes_on
  obtain ⟨pauses, waited⟩ := (h.countCycle elapsed).wait_eq options elapsed
  obtain ⟨sequence, looked⟩ := f.lookup_eq
  have seen : h.sequence = (holding published).sequence :=
    keeps.sequence.trans attends.lookup_sequence
  rw [waited]
  refine ⟨⟨?_, fun silent => ?_⟩, seen, keeps.command⟩
  · have mailbox : h.vehicle.mailbox = holding published := by
      rw [keeps.mailbox, looked, attends.mailbox]
    rw [← publishAll_holding, ← mailbox]
    exact (h.countCycle elapsed).vehicle.receiveAll_mailbox batch
  · rw [(List.append_eq_nil_iff.mp silent).1] at seen
    exact seen

end Attends

/-! ## Along a run -/

/-- Everything that was published before cycle `k` looked into the mailbox. -/
def history (published : List (Command × Flags)) (arrivals : List (List Input)) (k : Nat) :
    List (Command × Flags) :=
  published ++ publicationsOf (arrivals.take k).flatten

theorem history_zero (published : List (Command × Flags)) (arrivals : List (List Input)) :
    history published arrivals 0 = published := by
  rw [history, List.take_zero]
  exact List.append_nil published

theorem history_succ {published : List (Command × Flags)} {arrivals : List (List Input)} {k : Nat}
    {batch : List Input} (found : arrivals[k]? = some batch) :
    history published arrivals (k + 1) = history published arrivals k ++ publicationsOf batch := by
  rw [history, history, List.take_add_one, found, List.flatten_append, publicationsOf_append,
    List.append_assoc]
  simp

section

variable {published : List (Command × Flags)} {elapsedUs : Nat → Nat} {arrivals : List (List Input)}

/-- At the start of every cycle the mailbox holds all that was published until then. -/
theorem attends_history (attends : f.Attends published) {k : Nat} {s : Flight}
    (found : (starts options elapsedUs arrivals f)[k]? = some s) :
    s.Attends (history published arrivals k) := by
  induction k generalizing s with
  | zero =>
    rw [getElem?_starts_zero] at found
    rw [← Option.some.inj found]
    rwa [history_zero]
  | succ k induction =>
    obtain ⟨before, g, batch, before_found, goes_on, batch_found, rfl⟩ :=
      exists_of_getElem?_starts_succ found
    rw [history_succ batch_found]
    exact ((induction before_found).receive goes_on batch).1

/-- The next look takes the newest command over unless the count has come round. -/
theorem applied_succ (attends : f.Attends published) {k : Nat} {s t : Flight} {batch : List Input}
    (found : (starts options elapsedUs arrivals f)[k]? = some s)
    (batch_found : arrivals[k]? = some batch)
    (next : (starts options elapsedUs arrivals f)[k + 1]? = some t) :
    (ComesRound (history published arrivals k) (publicationsOf batch) → t.applied = s.applied) ∧
      (¬ ComesRound (history published arrivals k) (publicationsOf batch) →
        t.applied = newest (history published arrivals (k + 1))) := by
  obtain ⟨before, g, batch', before_found, goes_on, batch_found', rfl⟩ :=
    exists_of_getElem?_starts_succ next
  obtain rfl := Option.some.inj (found.symm.trans before_found)
  obtain rfl := Option.some.inj (batch_found.symm.trans batch_found')
  obtain ⟨later, seen, command⟩ := (attends_history attends found).receive goes_on batch
  have round := sequence_holding_append_eq_iff (history published arrivals k) (publicationsOf batch)
  rw [← seen] at round
  rw [history_succ batch_found]
  exact ⟨fun comes => (later.applied_of_eq (round.mpr comes)).trans command,
    fun stays => later.applied_of_ne (mt round.mp stays)⟩

end

end Flight

open Flight

/-- A reader finds nothing exactly if nothing was published, and the bits of the last publication
otherwise, with the known ones of its switches and a sequence number that is even, is not 0 and
counts publications modulo `2 ^ 31 - 1`.  The control loop starts with the last publication.  At
every later look it takes the newest command over, unless nothing was published since its last one
or a multiple of `2 ^ 31 - 1` publications lies between the two looks. -/
theorem Registers.sequence_tells_publications_apart (published : List Frame) :
    ((holding published).latest? = none ↔ published.length = 0) ∧
    (∀ last, published.getLast? = some last →
      (holding published).latest? =
        some ({ last with flags := last.flags &&& (Flags.kill.bits ||| Flags.start.bits) },
          (holding published).sequence) ∧
      (holding published).sequence.toNat =
        2 * ((published.length - 1) % (2 ^ 31 - 1) + 1)) ∧
    (holding published).sequence % 2 = 0 ∧
    (published ≠ [] → (holding published).sequence ≠ 0) ∧
    (∀ others, published ≠ [] → others ≠ [] →
      ((holding published).sequence = (holding others).sequence ↔
        published.length ≡ others.length [MOD 2 ^ 31 - 1])) ∧
    ∀ (v : Vehicle) (options : LoopOptions) (elapsedUs : Nat → Nat) (arrivals : List (List Input)),
      v.mailbox = (holding published).mailbox →
      let seen := history (published.map Frame.publication) arrivals
      v.takeoff.applied = newest (published.map Frame.publication) ∧
      ∀ k s t batch, (starts options elapsedUs arrivals v.takeoff)[k]? = some s →
        arrivals[k]? = some batch →
        (starts options elapsedUs arrivals v.takeoff)[k + 1]? = some t →
        (ComesRound (seen k) (publicationsOf batch) → t.applied = s.applied) ∧
        (¬ ComesRound (seen k) (publicationsOf batch) → t.applied = newest (seen (k + 1))) := by
  refine ⟨?_, fun last found => ⟨?_, ?_⟩, ?_, fun begun => ?_, fun others begun begun' => ?_,
    fun v options elapsedUs arrivals mailbox => ?_⟩
  · rw [latest?_holding, Option.map_eq_none_iff, List.getLast?_eq_none_iff,
      List.length_eq_zero_iff]
  · rw [latest?_holding, found]
    rfl
  · have positive : published.length ≠ 0 := by
      intro silent
      rw [List.length_eq_zero_iff.mp silent] at found
      cases found
    rw [sequence_holding, toNat_sequence_holding, List.length_map, if_neg positive]
  · rw [sequence_holding]
    exact sequence_holding_even _
  · rwa [sequence_holding, Ne, sequence_holding_eq_zero_iff, List.map_eq_nil_iff]
  · rw [sequence_holding, sequence_holding, sequence_holding_eq_iff, List.length_map,
      List.length_map] <;> rwa [Ne, List.map_eq_nil_iff]
  · rw [mailbox_holding] at mailbox
    have attends : v.takeoff.Attends (published.map Frame.publication) := ⟨mailbox, fun _ => rfl⟩
    exact ⟨attends.applied_of_fresh rfl rfl, fun k s t batch found batch_found next =>
      applied_succ attends found batch_found next⟩

/-- A quadcopter at half thrust keeps it when `2 ^ 31 - 1` commands for full thrust arrive during
one wait: after them the sequence number is the one it has seen already. -/
theorem Registers.sequence_tells_publications_apart_full_round :
    let v : Vehicle := { Vehicle.quad with mailbox := (holding [⟨0x3f000000, 0, 0, 0, 0⟩]).mailbox }
    let batch := List.replicate (2 ^ 31 - 1) (Input.publish ⟨1, 0, 0, 0⟩ .start)
    ∃ t, (starts ⟨50, none⟩ (fun _ => 0) [batch] v.takeoff)[1]? = some t ∧
      t.applied = ⟨0.5, 0, 0, 0⟩ ∧ newest (publicationsOf batch) = ⟨1, 0, 0, 0⟩ := by
  intro v batch
  have arrived : publicationsOf batch = List.replicate (2 ^ 31 - 1) (⟨1, 0, 0, 0⟩, .start) :=
    List.filterMap_replicate_of_some rfl
  obtain ⟨applied, looks⟩ :=
    (sequence_tells_publications_apart [⟨0x3f000000, 0, 0, 0, 0⟩]).2.2.2.2.2 v ⟨50, none⟩
      (fun _ => 0) [batch] rfl
  have goes_on : (v.takeoff.cycle ⟨50, none⟩ 0).1 = none := by decide +kernel
  have next : (starts ⟨50, none⟩ (fun _ => 0) [batch] v.takeoff)[1]? =
      some ((v.takeoff.cycle ⟨50, none⟩ 0).2.receive batch) := by
    rw [starts]
    split <;> rename_i cycle_eq <;> rw [cycle_eq] at goes_on ⊢
    · cases goes_on
    · rfl
  refine ⟨_, next, ?_, ?_⟩
  · have kept := (looks 0 _ _ batch (getElem?_starts_zero _ _) rfl next).1
    rw [kept, applied]
    · decide +kernel
    · rw [history_zero, ComesRound, arrived, List.length_replicate]
      exact .inr ⟨List.cons_ne_nil _ _, dvd_rfl⟩
  · rw [newest, arrived, List.getLast?_replicate]
    rfl

end Multirotor
