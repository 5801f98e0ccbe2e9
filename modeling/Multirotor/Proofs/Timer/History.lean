import Mathlib.Data.List.DropRight
import Mathlib.Tactic.MkIffOfInductiveProp
import Multirotor.Proofs.Timer.Isolation

/-!
# A timer is what has happened to it

After any history the timer is ready as it was last told to be, has the faults injected since the
last clearing, lists every write attempted, and holds on each channel the last write accepted there.
A write is judged by conditions in a fixed order, all of them read off the make of the timer and its
history, and counted in exact numbers.
-/

namespace Multirotor.Timer

/-- What a timer is built with. -/
structure Make where
  /-- Channels 1 to this number exist. -/
  channelCount : UInt32
  /-- Ticks of the counter in a second. -/
  clockHz : UInt32
  /-- The width of the counter. -/
  bits : UInt32

def Make.timer (make : Make) : Timer := ofWidth make.channelCount make.clockHz make.bits

/-- The largest count of the counter. -/
def Make.counterMax (make : Make) : Nat := 2 ^ min make.bits.toNat 63 - 1

/-! ## Histories -/

namespace Disturbance

def write? : Disturbance → Option Write
  | .write w => some w
  | _ => none

def readiness? : Disturbance → Option Bool
  | .setReady ready => some ready
  | _ => none

def fault? : Disturbance → Option (UInt32 × WriteError)
  | .injectFault channel reason => some (channel, reason)
  | _ => none

def clears : Disturbance → Bool
  | .clearFaults => true
  | _ => false

end Disturbance

/-- The readiness set last; a new timer is ready. -/
def readyAfter (history : List Disturbance) : Bool :=
  (history.filterMap Disturbance.readiness?).getLast?.getD true

/-- The faults injected since they were last cleared, oldest first. -/
def faultsAfter (history : List Disturbance) : List (UInt32 × WriteError) :=
  (history.rtakeWhile fun d => !d.clears).filterMap Disturbance.fault?

/-- The conditions under which a write is accepted. -/
@[mk_iff] structure Accepts (make : Make) (history : List Disturbance) (w : Write) : Prop where
  /-- The device takes writes. -/
  ready : readyAfter history = true
  /-- The channel exists. -/
  in_range : 1 ≤ w.channel ∧ w.channel ≤ make.channelCount
  /-- No fault was injected on the channel. -/
  no_fault : ∀ fault ∈ faultsAfter history, fault.1 ≠ w.channel
  /-- The pulse is over before its period is. -/
  pulse_le : w.pulseNs ≤ w.periodNs
  /-- The counter has the ticks of the period. -/
  ticks_le : w.periodNs.toNat * make.clockHz.toNat / 1000000000 ≤ make.counterMax

/-- Why a write is refused: the first condition that fails, and of several faults on the channel
the earliest one. -/
inductive Refuses (make : Make) (history : List Disturbance) (w : Write) : WriteError → Prop
  | notReady (idle : readyAfter history = false) : Refuses make history w .notReady
  | unavailable (ready : readyAfter history = true)
      (out_of_range : ¬ (1 ≤ w.channel ∧ w.channel ≤ make.channelCount)) :
      Refuses make history w (.channelUnavailable w.channel)
  | fault (ready : readyAfter history = true)
      (in_range : 1 ≤ w.channel ∧ w.channel ≤ make.channelCount)
      {earlier later : List (UInt32 × WriteError)} {reason : WriteError}
      (injected : faultsAfter history = earlier ++ (w.channel, reason) :: later)
      (first : ∀ fault ∈ earlier, fault.1 ≠ w.channel) : Refuses make history w reason
  | pulse (ready : readyAfter history = true)
      (in_range : 1 ≤ w.channel ∧ w.channel ≤ make.channelCount)
      (no_fault : ∀ fault ∈ faultsAfter history, fault.1 ≠ w.channel)
      (too_long : w.periodNs < w.pulseNs) : Refuses make history w .writeFailed
  | period (ready : readyAfter history = true)
      (in_range : 1 ≤ w.channel ∧ w.channel ≤ make.channelCount)
      (no_fault : ∀ fault ∈ faultsAfter history, fault.1 ≠ w.channel)
      (pulse_le : w.pulseNs ≤ w.periodNs)
      (overflow : make.counterMax < w.periodNs.toNat * make.clockHz.toNat / 1000000000) :
      Refuses make history w .timerOverflow

instance (make : Make) (history : List Disturbance) (w : Write) :
    Decidable (Accepts make history w) :=
  decidable_of_iff' _ (accepts_iff make history w)

/-- The write that is accepted when something happens after a history. -/
def acceptance? (make : Make) (history : List Disturbance) : Disturbance → Option Write
  | .write w => if Accepts make history w then some w else none
  | _ => none

/-- The writes that are accepted when more happens after a history, oldest first. -/
def acceptedFrom (make : Make) (history : List Disturbance) : List Disturbance → List Write
  | [] => []
  | d :: later =>
    (acceptance? make history d).toList ++ acceptedFrom make (history ++ [d]) later

/-- The writes accepted in a history, oldest first. -/
def accepted (make : Make) (history : List Disturbance) : List Write := acceptedFrom make [] history

/-! ## The state of a timer -/

/-- The state of the timer is that of its make after the history. -/
structure Remembers (t : Timer) (make : Make) (history : List Disturbance) : Prop where
  clockHz : t.clockHz = make.clockHz
  counterMax : t.counterMax.toNat = make.counterMax
  channelCount : t.channelCount = make.channelCount
  ready : t.ready = readyAfter history
  faults : t.faults = faultsAfter history

variable {make : Make} {history : List Disturbance} {t : Timer} {w : Write} {e : WriteError}

theorem remembers_timer (make : Make) : make.timer.Remembers make [] := by
  refine ⟨rfl, ?_, rfl, rfl, rfl⟩
  have width : (min make.bits 63).toUInt64.toNat = min make.bits.toNat 63 := by
    change (if make.bits ≤ 63 then make.bits else 63).toNat = _
    rw [apply_ite UInt32.toNat, min_def]
    rfl
  have fits : 2 ^ min make.bits.toNat 63 < 2 ^ 64 :=
    Nat.pow_lt_pow_right (by omega) (by omega)
  have shifted : ((1 : UInt64) <<< (min make.bits 63).toUInt64).toNat =
      2 ^ min make.bits.toNat 63 := by
    have small : min make.bits.toNat 63 % 64 = min make.bits.toNat 63 := Nat.mod_eq_of_lt (by omega)
    rw [UInt64.toNat_shiftLeft, width, small, Nat.shiftLeft_eq, UInt64.toNat_one, Nat.one_mul,
      Nat.mod_eq_of_lt fits]
  have one_le : (1 : UInt64) ≤ (1 : UInt64) <<< (min make.bits 63).toUInt64 := by
    rw [UInt64.le_iff_toNat_le, shifted]
    exact Nat.two_pow_pos _
  change ((1 <<< (min make.bits 63).toUInt64) - 1 : UInt64).toNat = _
  rw [UInt64.toNat_sub_of_le _ _ one_le, shifted]
  rfl

theorem readyAfter_concat (history : List Disturbance) (d : Disturbance) :
    readyAfter (history ++ [d]) = d.readiness?.getD (readyAfter history) := by
  rw [readyAfter, List.filterMap_append]
  cases d <;> simp [readyAfter, Disturbance.readiness?]

theorem faultsAfter_concat (history : List Disturbance) (d : Disturbance) :
    faultsAfter (history ++ [d]) =
      if d.clears then [] else faultsAfter history ++ d.fault?.toList := by
  rw [faultsAfter, List.rtakeWhile_concat]
  cases d <;> simp [faultsAfter, Disturbance.clears, Disturbance.fault?]

/-- What happens to a timer is added to what it remembers. -/
theorem Remembers.disturb (remembers : t.Remembers make history) (d : Disturbance) :
    (t.disturb d).Remembers make (history ++ [d]) := by
  obtain ⟨clockHz, counterMax, channelCount, ready, faults⟩ := remembers
  have ready' : (t.disturb d).ready = readyAfter (history ++ [d]) := by
    rw [readyAfter_concat, ← ready]
    cases d with
    | write w => exact (t.set_agrees w).ready
    | setReady | injectFault | clearFaults => rfl
  have faults' : (t.disturb d).faults = faultsAfter (history ++ [d]) := by
    rw [faultsAfter_concat, ← faults]
    cases d with
    | write w => exact (t.set_agrees w).faults.trans (List.append_nil _).symm
    | setReady => exact (List.append_nil _).symm
    | injectFault | clearFaults => rfl
  cases d with
  | write w =>
    have same := t.set_agrees w
    exact ⟨same.clockHz.trans clockHz, (congrArg _ same.counterMax).trans counterMax,
      same.channelCount.trans channelCount, ready', faults'⟩
  | setReady | injectFault | clearFaults =>
    exact ⟨clockHz, counterMax, channelCount, ready', faults'⟩

/-! ## Judging a write -/

namespace Remembers

theorem in_range_iff (remembers : t.Remembers make history) :
    ¬ (w.channel = 0 ∨ t.channelCount < w.channel) ↔
      1 ≤ w.channel ∧ w.channel ≤ make.channelCount := by
  rw [remembers.channelCount, not_or, UInt32.not_lt]
  refine and_congr_left' ?_
  rw [UInt32.le_iff_toNat_le, ← UInt32.toNat_inj]
  exact Nat.pos_iff_ne_zero.symm

theorem ticks_le_iff (remembers : t.Remembers make history) (durationNs : UInt32) :
    ¬ t.counterMax < t.ticks durationNs ↔
      durationNs.toNat * make.clockHz.toNat / 1000000000 ≤ make.counterMax := by
  rw [UInt64.not_lt, UInt64.le_iff_toNat_le, toNat_ticks, remembers.counterMax, remembers.clockHz]

theorem refusal?_eq_none_iff (remembers : t.Remembers make history) :
    t.refusal? w = none ↔ Accepts make history w := by
  rw [Timer.refusal?_eq_none_iff, remembers.in_range_iff, remembers.ticks_le_iff, remembers.ready,
    remembers.faults, UInt32.not_lt, accepts_iff]

theorem refusal?_eq_some_iff (remembers : t.Remembers make history) :
    t.refusal? w = some e ↔ Refuses make history w e := by
  have in_range := remembers.in_range_iff (w := w)
  have ticks_le := remembers.ticks_le_iff w.periodNs
  rw [refusal?, remembers.ready, remembers.faults]
  constructor
  · intro refused
    split at refused
    · rename_i idle
      cases refused
      exact .notReady (by simpa using idle)
    rename_i ready
    have ready : readyAfter history = true := by simpa using ready
    split at refused
    · rename_i outside
      cases refused
      exact .unavailable ready fun inside => in_range.mpr inside outside
    rename_i inside
    have inside := in_range.mp inside
    split at refused
    · rename_i channel reason found
      cases refused
      obtain ⟨same, earlier, later, injected, first⟩ := List.find?_eq_some_iff_append.mp found
      obtain rfl : channel = w.channel := by simpa using same
      exact .fault ready inside injected (by simpa using first)
    rename_i missed
    have no_fault : ∀ fault ∈ faultsAfter history, fault.1 ≠ w.channel := by
      simpa using missed
    split at refused
    · rename_i too_long
      cases refused
      exact .pulse ready inside no_fault too_long
    rename_i ends
    split at refused
    · rename_i overflow
      cases refused
      exact .period ready inside no_fault (UInt32.not_lt.mp ends)
        (Nat.lt_of_not_ge fun le => ticks_le.mpr le overflow)
    · cases refused
  · intro refuses
    cases refuses with
    | notReady idle => simp [idle]
    | unavailable ready out_of_range => simp [ready, not_not.mp (mt in_range.mp out_of_range)]
    | fault ready inside injected first =>
      have found : (faultsAfter history).find? (fun fault => fault.1 = w.channel) =
          some (w.channel, e) :=
        List.find?_eq_some_iff_append.mpr ⟨by simp, _, _, injected, by simpa using first⟩
      simp [ready, in_range.mpr inside, found]
    | pulse ready inside no_fault too_long =>
      have missed : (faultsAfter history).find? (fun fault => fault.1 = w.channel) = none := by
        simpa using no_fault
      simp [ready, in_range.mpr inside, missed, too_long]
    | period ready inside no_fault pulse_le overflow =>
      have missed : (faultsAfter history).find? (fun fault => fault.1 = w.channel) = none := by
        simpa using no_fault
      have overflow := not_not.mp (mt ticks_le.mp (Nat.not_le.mpr overflow))
      simp [ready, in_range.mpr inside, missed, UInt32.not_lt.mpr pulse_le, overflow]

end Remembers

/-! ## Whole histories -/

/-- A timer shows what has happened to it, and judges writes by it. -/
structure Faithful (t : Timer) (make : Make) (history : List Disturbance) : Prop where
  /-- Every write was recorded, and nothing else. -/
  attempts : t.attempts.toList = history.filterMap Disturbance.write?
  /-- A channel holds the last write accepted on it. -/
  output : ∀ channel, t.output? channel =
    (accepted make history).reverse.find? fun w => w.channel = channel
  /-- A write adds itself to the attempts, whatever the answer. -/
  records : ∀ w, (t.set w).2.attempts = t.attempts.push w
  accepts : ∀ w, (t.set w).1 = .ok () ↔ Accepts make history w
  refuses : ∀ w e, (t.set w).1 = .error e ↔ Refuses make history w e
  /-- A refused write leaves every output as it is. -/
  keeps : ∀ w, ¬ Accepts make history w → ∀ channel, (t.set w).2.output? channel = t.output? channel
  /-- Ticks are counted without overflow. -/
  ticks : ∀ durationNs : UInt32, durationNs.toNat * make.clockHz.toNat < 2 ^ 64 ∧
    (t.ticks durationNs).toNat = durationNs.toNat * make.clockHz.toNat / 1000000000
  /-- A stop is accepted whatever the clock and the counter are. -/
  stops : ∀ channel, readyAfter history = true → 1 ≤ channel ∧ channel ≤ make.channelCount →
    (∀ fault ∈ faultsAfter history, fault.1 ≠ channel) → (t.set (.stop channel)).1 = .ok ()

theorem attempts_disturb (t : Timer) (d : Disturbance) :
    (t.disturb d).attempts.toList = t.attempts.toList ++ d.write?.toList := by
  cases d with
  | write w =>
    rw [disturb, attempts_set, Array.toList_push]
    rfl
  | setReady | injectFault | clearFaults => exact (List.append_nil _).symm

theorem Remembers.output?_disturb (remembers : t.Remembers make history) (d : Disturbance)
    (channel : UInt32) :
    (t.disturb d).output? channel =
      ((acceptance? make history d).toList.find? fun w => w.channel = channel).or
        (t.output? channel) := by
  cases d with
  | write w =>
    rw [Timer.disturb, output?_set, acceptance?]
    simp only [remembers.refusal?_eq_none_iff]
    by_cases accepts : Accepts make history w <;> by_cases same : w.channel = channel <;>
      simp [accepts, same, eq_comm (a := channel)]
  | setReady | injectFault | clearFaults => rfl

/-- What happens after a history adds to the state, the attempts and the outputs. -/
theorem Remembers.run (remembers : t.Remembers make history) (later : List Disturbance) :
    let t' := later.foldl Timer.disturb t
    t'.Remembers make (history ++ later) ∧
      t'.attempts.toList = t.attempts.toList ++ later.filterMap Disturbance.write? ∧
      ∀ channel, t'.output? channel =
        ((acceptedFrom make history later).reverse.find? fun w => w.channel = channel).or
          (t.output? channel) := by
  induction later generalizing history t with
  | nil => exact ⟨by simpa using remembers, by simp, fun channel => rfl⟩
  | cons d later induction =>
    obtain ⟨rest, attempts, output⟩ := induction (remembers.disturb d)
    rw [List.append_assoc, List.singleton_append] at rest
    refine ⟨rest, attempts.trans ?_, fun channel => (output channel).trans ?_⟩
    · rw [attempts_disturb, List.append_assoc]
      cases written : d.write? <;> simp [written]
    · rw [remembers.output?_disturb, acceptedFrom, List.reverse_append, List.find?_append,
        Option.or_assoc]
      cases acceptance? make history d <;> rfl

/-- A stop has no period to fit into the counter. -/
theorem accepts_stop {channel : UInt32} (ready : readyAfter history = true)
    (in_range : 1 ≤ channel ∧ channel ≤ make.channelCount)
    (no_fault : ∀ fault ∈ faultsAfter history, fault.1 ≠ channel) :
    Accepts make history (.stop channel) where
  ready := ready
  in_range := in_range
  no_fault := no_fault
  pulse_le := UInt32.le_refl 0
  ticks_le := by simp [Write.stop]

/-- Whatever is done with a timer, it shows and answers what has happened to it. -/
theorem foldl_disturb_faithful (make : Make) (history : List Disturbance) :
    (history.foldl disturb make.timer).Faithful make history := by
  obtain ⟨remembers, attempts, output⟩ := (remembers_timer make).run history
  rw [List.nil_append] at remembers
  have accepts (w : Write) : ((history.foldl disturb make.timer).set w).1 = .ok () ↔
      Accepts make history w := by
    rw [set_answer, answer_eq_ok_iff, remembers.refusal?_eq_none_iff]
  constructor
  · exact attempts
  · exact fun channel => (output channel).trans (Option.or_none)
  · exact fun w => attempts_set _ w
  · exact accepts
  · intro w e
    rw [set_answer, answer, ← remembers.refusal?_eq_some_iff]
    split <;> simp_all
  · exact fun w refused => output?_set_of_refused (mt remembers.refusal?_eq_none_iff.mp refused)
  · intro durationNs
    refine ⟨mul_clockHz_lt durationNs make.clockHz, ?_⟩
    rw [toNat_ticks, remembers.clockHz]
  · exact fun channel ready in_range no_fault =>
      (accepts _).mpr (accepts_stop ready in_range no_fault)

/-- Of two faults on a channel the earlier one is the answer, and once they are cleared the period
is, which is too long for eight bits.  A stop has none. -/
example :
    let make : Make := ⟨2, 1000000, 8⟩
    let history : List Disturbance :=
      [.injectFault 1 .writeFailed, .injectFault 2 .notReady, .injectFault 2 .writeFailed]
    let t := history.foldl disturb make.timer
    (t.set ⟨2, 500000, 0⟩).1 = .error .notReady ∧
      (t.clearFaults.set ⟨2, 500000, 0⟩).1 = .error .timerOverflow ∧
      (t.clearFaults.set (.stop 2)).1 = .ok () := by
  decide

end Multirotor.Timer
