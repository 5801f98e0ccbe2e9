import Multirotor.Proofs.Timer.Attempts

/-!
# Channels are isolated from each other

A write touches the register of its own channel only.  A part that keeps to its channels leaves all
other outputs alone, and so does everything else that can happen to the device, unless it is a write
on the channel in question.
-/

namespace Multirotor.Timer

/-- Writes on some of the channels lead from one timer to the other. -/
def Confined (channels : List UInt32) (t u : Timer) : Prop :=
  ∃ ws : List Write, (∀ w ∈ ws, w.channel ∈ channels) ∧ u = (t.attemptAll ws).2

namespace Confined

variable {channels others : List UInt32} {t u v : Timer}

theorem refl (channels : List UInt32) (t : Timer) : Confined channels t t := ⟨[], by simp, rfl⟩

theorem trans (first : Confined channels t u) (second : Confined channels u v) :
    Confined channels t v := by
  obtain ⟨ws, within, rfl⟩ := first
  obtain ⟨ws', within', rfl⟩ := second
  refine ⟨ws ++ ws', fun w mem => ?_, (attemptAll_append t ws ws').symm⟩
  exact (List.mem_append.mp mem).elim (within w) (within' w)

theorem mono (confined : Confined channels t u) (sub : channels ⊆ others) :
    Confined others t u := by
  obtain ⟨ws, within, rfl⟩ := confined
  exact ⟨ws, fun w mem => sub (within w mem), rfl⟩

theorem set (t : Timer) (w : Write) : Confined [w.channel] t (t.set w).2 :=
  ⟨[w], by simp, rfl⟩

theorem output?_eq (confined : Confined channels t u) {channel : UInt32}
    (elsewhere : channel ∉ channels) : u.output? channel = t.output? channel := by
  obtain ⟨ws, within, rfl⟩ := confined
  apply output?_attemptAll_of_refused
  rintro w mem rfl
  exact absurd (within w mem) elsewhere

end Confined

/-- A refused write leaves every output as it is. -/
theorem output?_set_of_refused {t : Timer} {w : Write} (refused : t.refusal? w ≠ none)
    (channel : UInt32) : (t.set w).2.output? channel = t.output? channel := by
  rw [output?_set, if_neg fun accepted => refused accepted.1]

theorem output?_set_of_accepted {t : Timer} {w : Write} (accepted : t.refusal? w = none) :
    (t.set w).2.output? w.channel = some w := by
  rw [output?_set, if_pos ⟨accepted, rfl⟩]

/-! ## Disturbances -/

/-- Something that happens to the device from outside. -/
inductive Disturbance where
  /-- Somebody else writes. -/
  | write (w : Write)
  | setReady (ready : Bool)
  | injectFault (channel : UInt32) (reason : WriteError)
  | clearFaults

def disturb (t : Timer) : Disturbance → Timer
  | .write w => (t.set w).2
  | .setReady ready => t.setReady ready
  | .injectFault channel reason => t.injectFault channel reason
  | .clearFaults => t.clearFaults

/-- Nobody else writes on the channel. -/
def Disturbance.Spares (channel : UInt32) : Disturbance → Prop
  | .write w => w.channel ≠ channel
  | _ => True

theorem output?_disturb (t : Timer) {channel : UInt32} {d : Disturbance}
    (spares : d.Spares channel) : (t.disturb d).output? channel = t.output? channel := by
  cases d with
  | write w => exact (Confined.set t w).output?_eq (by simpa using spares.symm)
  | setReady ready => rfl
  | injectFault faulty reason => rfl
  | clearFaults => rfl

end Multirotor.Timer
