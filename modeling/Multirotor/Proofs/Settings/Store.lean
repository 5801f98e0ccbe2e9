import Mathlib.Control.Monad.Basic
import Multirotor.Mixer
import Multirotor.Proofs.CommandLine.Accepted

/-!
# The settings store

The store checks what the mixer checks, in the same order, so it takes settings exactly if they set
up a mixer.  Whatever was refused leaves no trace: the store holds the settings accepted last, those
set up a mixer, and an accepted command line leads from them to settings that the store takes.
-/

namespace Multirotor

namespace Settings

theorem length_activeChannels (s : Settings) : s.activeChannels.length = s.geometry.motorCount := by
  rw [activeChannels, List.length_take, Vector.length_toList]
  exact Nat.min_eq_left s.geometry.motorCount_le

theorem length_activeChannels_eq (s : Settings) :
    s.activeChannels.length = s.geometry.positions.length :=
  s.length_activeChannels.trans s.geometry.length_positions.symm

/-- Valid settings set up a mixer. -/
theorem configure_mixer {s : Settings} (valid : s.validate = .ok ()) (bench : Bench) :
    Mixer.configure s.geometry s.policy bench =
      (.ok ⟨s.geometry, s.policy, [], [], .initialized⟩,
        bench.log (.mixerConfigured s.geometry s.policy)) := by
  rw [validate] at valid
  split at valid
  · cases valid
  · rename_i usable
    simp only [Mixer.configure, usable, valid]

/-- Settings set up a mixer if they are valid, and else fail for the reason that they are not. -/
theorem configure_eq_validate (s : Settings) (bench : Bench) :
    (Mixer.configure s.geometry s.policy bench).1.map (fun _ => ()) = s.validate := by
  rw [Mixer.configure, validate]
  rcases s.geometry.validate with e | _
  · rfl
  · rcases s.policy.validate with e | _ <;> rfl

end Settings

namespace SettingsStore

/-- The store after requests to replace its settings, whatever became of each. -/
def saveAll (store : SettingsStore) (requests : List Settings) : SettingsStore :=
  requests.foldl (fun store settings => (store.save settings).2) store

/-- Valid settings are taken, and others leave no trace. -/
theorem save_eq (store : SettingsStore) (s : Settings) :
    store.save s = (s.validate, if s.validate.isOk then ⟨s⟩ else store) := by
  rw [save]
  rcases s.validate with e | _ <;> rfl

/-- The store holds the request accepted last, and its own settings before any. -/
theorem load_saveAll (store : SettingsStore) (requests : List Settings) :
    (store.saveAll requests).load =
      (requests.filter (·.validate.isOk)).getLast?.getD store.load := by
  induction requests generalizing store with
  | nil => rfl
  | cons s rest induction =>
    have rest_load := induction (store.save s).2
    rw [saveAll, List.foldl_cons]
    refine rest_load.trans ?_
    rw [save_eq, List.filter_cons]
    cases s.validate.isOk with
    | true => simp only [if_true, List.getLast?_cons, Option.getD_some, load]
    | false => rfl

/-- What the store holds is valid, whatever it was asked to hold. -/
theorem validate_load_saveAll (requests : List Settings) :
    (saveAll {} requests).load.validate = .ok () := by
  rw [load_saveAll]
  rcases last : (requests.filter (·.validate.isOk)).getLast? with _ | s <;> rw [last]
  · rfl
  · have accepted := (List.mem_filter.mp (List.mem_of_getLast? last)).2
    rcases valid : s.validate with e | _
    · rw [valid] at accepted
      cases accepted
    · exact valid

end SettingsStore

/-- What an accepted command line makes of settings: a field changes only if its option is given. -/
structure Arguments.Adjusts (a : Arguments) (s s' : Settings) : Prop where
  geometry : s'.geometry = a.geometry?.getD s.geometry
  protocol : s'.protocol = a.protocol?.getD s.protocol
  armMs : s'.esc.armMs = a.armDurationMs?.getD s.esc.armMs
  /-- A weight is the percentage of a static policy, be it old or new. -/
  weighted : ∀ old percent, a.normalization?.getD s.policy = .staticWeight old →
    a.thrustWeight? = some percent → s'.policy = .staticWeight percent
  /-- On another policy a weight has no effect. -/
  unweighted : (∀ old, a.normalization?.getD s.policy ≠ .staticWeight old) ∨
    a.thrustWeight? = none → s'.policy = a.normalization?.getD s.policy
  /-- No option is for any other field. -/
  others : s'.esc.minOffset = s.esc.minOffset ∧ s'.esc.maxOffset = s.esc.maxOffset ∧
    s'.channels = s.channels ∧ s'.loopPeriodMs = s.loopPeriodMs

theorem Arguments.adjusts_apply (a : Arguments) (s : Settings) : a.Adjusts s (a.apply s) where
  geometry := rfl
  protocol := rfl
  armMs := rfl
  weighted old percent static given := by simp only [apply, policy, static, given]
  unweighted none := by
    simp only [apply, policy]
    split
    · simp_all
    · rfl
  others := ⟨rfl, rfl, rfl, rfl⟩

/-- The store takes what sensible arguments make of its settings, whatever it was asked to hold. -/
theorem Arguments.Sensible.save_saveAll {a : Arguments} (sensible : a.Sensible)
    (requests : List Settings) :
    let store : SettingsStore := SettingsStore.saveAll {} requests
    store.save (a.apply store.load) = (.ok (), ⟨a.apply store.load⟩) ∧
      a.Adjusts store.load (a.apply store.load) := by
  intro store
  have valid := SettingsStore.validate_load_saveAll requests
  rw [Settings.validate, Geometry.validate_eq_ok] at valid
  exact ⟨sensible.save_apply valid store, a.adjusts_apply store.load⟩

/-- Whatever the store was asked to hold, it agrees with the mixer on what to take, it holds the
settings accepted last, those set up a mixer with one channel for each position, and it takes what
an accepted command line makes of them. -/
theorem SettingsStore.saveAll_agrees (requests : List Settings) :
    let store : SettingsStore := saveAll {} requests
    (∀ (s : Settings) (bench : Bench), (store.save s).1 = s.validate ∧
        (store.save s).1 = (Mixer.configure s.geometry s.policy bench).1.map fun _ => ()) ∧
      (∀ s : Settings, (store.save s).2 = if (store.save s).1.isOk then ⟨s⟩ else store) ∧
      store.load = (requests.filter (·.validate.isOk)).getLast?.getD {} ∧
      (∀ bench : Bench, (Mixer.configure store.load.geometry store.load.policy bench).1 =
        .ok ⟨store.load.geometry, store.load.policy, [], [], .initialized⟩) ∧
      (store.load.activeChannels <+: store.load.channels.toList ∧
        store.load.activeChannels.length = store.load.geometry.motorCount ∧
        store.load.activeChannels.length = store.load.geometry.positions.length) ∧
      ∀ (arguments : List String) (a : Arguments),
        Request.ofArguments arguments = .ok (.flight a) →
          store.save (a.apply store.load) = (.ok (), ⟨a.apply store.load⟩) ∧
            a.Adjusts store.load (a.apply store.load) := by
  intro store
  have valid := validate_load_saveAll requests
  refine ⟨fun s bench => ?_, fun s => ?_, load_saveAll {} requests, fun bench => ?_,
    ⟨List.take_prefix _ _, store.load.length_activeChannels, store.load.length_activeChannels_eq⟩,
    fun arguments a accepted =>
      (Request.sensible_of_ofArguments accepted).save_saveAll requests⟩
  · rw [save_eq, s.configure_eq_validate bench]
    exact ⟨rfl, rfl⟩
  · rw [save_eq]
  · rw [Settings.configure_mixer valid]

/-- A weight of 150 and one of 101 percent are refused around one that is taken, and the weight of
the command line replaces the one that was taken. -/
theorem SettingsStore.saveAll_agrees_weighted :
    let kept : Settings := { geometry := .hexX, policy := .staticWeight 30 }
    let requests : List Settings :=
      [{ policy := .staticWeight 150 }, kept, { policy := .staticWeight 101 }]
    let store : SettingsStore := saveAll {} requests
    let arguments := ["--thrust-weight", "55"]
    let a : Arguments := { thrustWeight? := some 55 }
    Request.ofArguments arguments = .ok (.flight a) ∧ store.load = kept ∧
      (store.save { policy := .staticWeight 150 }).1 = .error (.invalidNormalization 150) ∧
      store.save (a.apply store.load) = (.ok (), ⟨a.apply store.load⟩) ∧
      (a.apply store.load).policy = .staticWeight 55 ∧
      a.Adjusts store.load (a.apply store.load) := by
  intro kept requests store arguments a
  have accepted : Request.ofArguments arguments = .ok (.flight a) := by decide +kernel
  obtain ⟨results, -, last, -, -, adjusts⟩ := saveAll_agrees requests
  have loaded : store.load = kept := last.trans (by decide +kernel)
  obtain ⟨taken, adjusted⟩ := adjusts arguments a accepted
  refine ⟨accepted, loaded, (results _ { timer := .bench 6 }).1.trans rfl, taken, ?_, adjusted⟩
  exact adjusted.weighted 30 55 (by rw [loaded]; rfl) rfl

end Multirotor
