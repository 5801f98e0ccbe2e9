import Multirotor.Esc
import Multirotor.Geometry
import Multirotor.Normalization

/-!
# Settings

Everything that the program has to know before it brings up the motors, and the store that keeps the
settings accepted last.
-/

namespace Multirotor

/-- The settings of a flight.  The defaults are those of the reference vehicle. -/
structure Settings where
  /-- The airframe. -/
  geometry : Geometry := .quadX
  /-- What happens to demands that do not fit. -/
  policy : Normalization := .clampAndShift
  /-- The signal protocol of the ESCs. -/
  protocol : Protocol := .oneShot125
  /-- The settings of every ESC. -/
  esc : EscSettings := {}
  /-- The output channels in slot order, as many as any geometry needs. -/
  channels : Vector UInt32 6 := #v[1, 2, 3, 4, 5, 6]
  /-- The length of a control cycle in milliseconds. -/
  loopPeriodMs : UInt32 := 50
  deriving DecidableEq

namespace Settings

/-- The channels that the geometry uses. -/
def activeChannels (s : Settings) : List UInt32 := s.channels.toList.take s.geometry.motorCount

/-- Accepts settings with a usable geometry and a sensible policy. -/
def validate (s : Settings) : Except MixerError Unit :=
  match s.geometry.validate with
  | .error e => .error e
  | .ok () => s.policy.validate

end Settings

/-- The settings accepted last. -/
structure SettingsStore where
  /-- The settings accepted last, or the defaults. -/
  current : Settings := {}
  deriving DecidableEq

namespace SettingsStore

/-- The settings accepted last. -/
def load (store : SettingsStore) : Settings := store.current

/-- Replaces the settings if the new ones are valid. -/
def save (store : SettingsStore) (settings : Settings) : Except MixerError Unit × SettingsStore :=
  match settings.validate with
  | .error e => (.error e, store)
  | .ok () => (.ok (), { current := settings })

end SettingsStore

end Multirotor
