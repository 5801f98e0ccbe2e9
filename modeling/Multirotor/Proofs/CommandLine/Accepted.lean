import Multirotor.CommandLine.Reading

/-!
# What the command line accepts

Whatever is typed, a thrust weight that is accepted is at most a hundred percent, and a policy that
is accepted is one of those with a name.  So the settings are sensible after any accepted command
line was applied to sensible settings, and the store takes them.
-/

namespace Multirotor

/-- Every geometry is usable. -/
theorem Geometry.validate_eq_ok (g : Geometry) : g.validate = .ok ()  := by cases g <;> rfl

/-- Every policy with a name is sensible. -/
theorem Normalization.validate_of_ofName {text : String} {policy : Normalization}
    (named : ofName text = .ok policy) : policy.validate = .ok () := by
  rw [ofName] at named
  split at named
  · rename_i found
    cases named
    have mem := List.mem_of_find?_eq_some found
    simp only [List.mem_cons, List.not_mem_nil, or_false] at mem
    rcases mem with rfl | rfl | rfl <;> rfl
  · cases named

theorem exists_of_map_eq_ok {ε α β : Type} {f : α → β} {result : Except ε α} {y : β}
    (mapped : result.map f = .ok y) : ∃ x, result = .ok x ∧ f x = y := by
  rcases result with e | x
  · cases mapped
  · exact ⟨x, rfl, Except.ok.inj mapped⟩

namespace Arguments

variable {a b : Arguments}

/-- The values are those that the command line lets through. -/
structure Sensible (a : Arguments) : Prop where
  /-- A weight is at most a hundred percent. -/
  weight : ∀ percent, a.thrustWeight? = some percent → percent ≤ 100
  /-- A policy can be used. -/
  normalization : ∀ policy, a.normalization? = some policy → policy.validate = .ok ()

theorem sensible_default : ({} : Arguments).Sensible := ⟨by simp, by simp⟩

theorem readBounded_le {largest n : Nat} {text : String}
    (read : readBounded largest text = .ok n) : n ≤ largest := by
  rw [readBounded] at read
  split at read
  · cases read
  · split at read
    · cases read
    · cases read
      omega

theorem Sensible.set (sensible : a.Sensible) {parameter : Parameter} {text : String}
    (given : a.set parameter text = .ok b) : b.Sensible := by
  obtain ⟨weight, normalization⟩ := sensible
  cases parameter with
  | geometry | protocol | cycles =>
    simp only [Arguments.set] at given
    split at given <;> cases given
    exact ⟨weight, normalization⟩
  | armDurationMs | sweepSteps =>
    obtain ⟨n, _, rfl⟩ := exists_of_map_eq_ok given
    exact ⟨weight, normalization⟩
  | normalization =>
    simp only [Arguments.set] at given
    split at given <;> cases given
    rename_i policy named
    refine ⟨weight, fun other same => ?_⟩
    cases same
    exact Normalization.validate_of_ofName named
  | thrustWeight =>
    obtain ⟨n, read, rfl⟩ := exists_of_map_eq_ok given
    refine ⟨fun percent same => ?_, normalization⟩
    cases same
    have bound := readBounded_le read
    rw [UInt8.le_iff_toNat_le, UInt8.toNat_ofNat']
    exact Nat.le_trans (Nat.mod_le _ _) bound

/-- A sensible weight keeps every sensible policy sensible. -/
theorem Sensible.policy (sensible : a.Sensible) {current : Normalization}
    (usable : current.validate = .ok ()) : (a.policy current).validate = .ok () := by
  have chosen : (a.normalization?.getD current).validate = .ok () := by
    rcases given : a.normalization? with _ | policy
    · exact usable
    · exact sensible.normalization policy given
  rw [Arguments.policy]
  split
  · rename_i percent _ weight
    rw [Normalization.validate, if_neg (UInt8.not_lt.mpr (sensible.weight percent weight))]
  · exact chosen

theorem Sensible.validate_apply (sensible : a.Sensible) {settings : Settings}
    (usable : settings.policy.validate = .ok ()) : (a.apply settings).validate = .ok () := by
  have policy : (a.apply settings).policy.validate = .ok () := sensible.policy usable
  rw [Settings.validate, Geometry.validate_eq_ok]
  exact policy

/-- Sensible arguments lead from settings that the store takes to settings that it takes. -/
theorem Sensible.save_apply (sensible : a.Sensible) {settings : Settings}
    (usable : settings.policy.validate = .ok ()) (store : SettingsStore) :
    store.save (a.apply settings) = (.ok (), ⟨a.apply settings⟩) := by
  rw [SettingsStore.save, sensible.validate_apply usable]

end Arguments

/-! ## Reading -/

namespace Reading

variable {r r' : Reading} {a : Arguments}

theorem assign_sensible (sensible : r.arguments.Sensible) {parameter : Parameter} {value : String}
    (assigned : r.assign parameter value = .ok r') : r'.arguments.Sensible := by
  rw [assign] at assigned
  split at assigned
  · cases assigned
  · split at assigned <;> cases assigned
    rename_i given
    exact sensible.set given

theorem settle_sensible (sensible : r.arguments.Sensible) (settled : r.settle = .ok r') :
    r'.arguments.Sensible := by
  rw [settle] at settled
  split at settled
  · cases settled
  · exact assign_sensible (r := { r with settled? := none }) sensible settled
  · cases settled
    exact sensible

theorem help_ne_flight : r.help ≠ .ok (.flight a) := by
  rw [help]
  split <;> simp

theorem finish_sensible (sensible : r.arguments.Sensible)
    (accepted : (r.settle.map fun r => Request.flight r.arguments) = .ok (.flight a)) :
    a.Sensible := by
  obtain ⟨last, settled, same⟩ := exists_of_map_eq_ok accepted
  cases same
  exact settle_sensible sensible settled

/-- Whatever is read, only sensible values are let through. -/
theorem read_sensible {arguments : List String} (sensible : r.arguments.Sensible)
    (accepted : r.read arguments = .ok (.flight a)) : a.Sensible := by
  induction arguments generalizing r with
  | nil => exact finish_sensible sensible accepted
  | cons argument rest induction =>
    rw [read.eq_def] at accepted
    dsimp only at accepted
    -- one case for each form of the argument: `--`, help without and with a value, a long option,
    -- a short one, and anything else
    split at accepted
    · split at accepted
      · exact finish_sensible sensible accepted
      · cases accepted
    · exact absurd accepted help_ne_flight
    · cases accepted
    · split at accepted
      · cases accepted
      · split at accepted
        · cases accepted
        · rename_i settled
          split at accepted
          · cases accepted
          · rename_i assigned
            have settled_sensible := settle_sensible sensible settled
            exact induction (assign_sensible settled_sensible assigned) accepted
      · split at accepted
        · cases accepted
        · rename_i settled
          have settled_sensible := settle_sensible sensible settled
          refine induction ?_ accepted
          exact settled_sensible
    · exact absurd accepted help_ne_flight
    · cases accepted
    · split at accepted
      · refine induction ?_ accepted
        exact sensible
      · cases accepted

end Reading

/-- Arguments from an accepted command line are sensible. -/
theorem Request.sensible_of_ofArguments {arguments : List String} {a : Arguments}
    (accepted : ofArguments arguments = .ok (.flight a)) : a.Sensible :=
  Reading.read_sensible Arguments.sensible_default accepted

end Multirotor
