import SlrBooking.Ports
import SlrBooking.Domain.Abuse
import SlrBooking.Domain.Fares
import SlrBooking.Domain.Numerals
import SlrBooking.Usecases.Support
import SlrBooking.Theory.Triples

/-!
# `App.Settings` — the environment, the policy defaults, and the ports wired from them

Every policy knob has an environment variable and a default, so whatever the environment sets, each key a use-case
asks the config for is there. What `float` makes of a text is a parameter.

## Contents
- `policyDefaults`, `AppSettings`, `loadSettings`, `EnvConfig`, `buildConfig`.
- `wireReal`: the answering ports of one request.
- `getInt_seeded`, `getFloat_seeded`: a seeded key is only ever unreadable, never missing.
-/

namespace SlrBooking

open Theory

/-- `os.environ`. -/
abbrev Environ := List (String × String)

/-- `os.getenv(name, default)`. -/
def getenv (environ : Environ) (name fallback : String) : String := (environ.lookup name).getD fallback

/-- `_POLICY_DEFAULTS`: the config key, the environment variable, the default. -/
def policyDefaults : List (String × String × String) :=
  [(holdTtl, "HOLD_TTL_SECONDS", "900"),
   (maxSeatsPerPassenger, "SEAT_CAP_PER_PASSENGER", "6"),
   (velocityWindow, "VELOCITY_WINDOW_SECONDS", "600"),
   (maxBookingsPerWindow, "BOOKING_VELOCITY_LIMIT", "10"),
   (abuseThreshold, "ABUSE_THRESHOLD", "0.8"),
   (standingCapacity, "STANDING_CAPACITY", "250"),
   (bookingWindowDays, "BOOKING_WINDOW_DAYS", "30"),
   (utcOffsetMinutes, "UTC_OFFSET_MINUTES", "330"),
   ("class_mult_first", "CLASS_MULT_FIRST", "2.0"),
   ("class_mult_second", "CLASS_MULT_SECOND", "1.0"),
   ("class_mult_third", "CLASS_MULT_THIRD", "0.7")]

/-- The loaded settings that reach a request or the seeder. -/
structure AppSettings where
  counterKey             : String
  currency               : String
  fareStrategy           : String
  fareRatePerKmCents     : Int
  bookingWindowDays      : Int
  utcOffsetMinutes       : Int
  policy                 : List (String × String)
deriving DecidableEq

/-- `mapping[key]`. -/
def getItem (mapping : List (String × String)) (key : String) : Except Err String :=
  match mapping.lookup key with
  | some value => .ok value
  | none => .error (.keyError key)

def loadPolicy (environ : Environ) : List (String × String) :=
  policyDefaults.map fun entry => (entry.1, getenv environ entry.2.1 entry.2.2)

def loadSettings (environ : Environ) : Except Err AppSettings := do
  let policy := loadPolicy environ
  let rate ← Numerals.int (getenv environ "FARE_RATE_PER_KM_CENTS" "685")
  let window ← Numerals.int (← getItem policy bookingWindowDays)
  let offset ← Numerals.int (← getItem policy utcOffsetMinutes)
  return {
    counterKey := getenv environ "COUNTER_KEY" "counter-dev-key"
    currency := getenv environ "CURRENCY" "LKR"
    fareStrategy := getenv environ "FARE_STRATEGY" "dynamic"
    fareRatePerKmCents := rate
    bookingWindowDays := window
    utcOffsetMinutes := offset
    policy := policy }

/-- The environment with the overrides on top. -/
structure EnvConfig where
  values : List (String × String)

namespace EnvConfig

def make (environ : Environ) (overrides : List (String × String)) : EnvConfig := ⟨overrides ++ environ⟩

def getInt (config : EnvConfig) (key : String) : Except Err Int := do Numerals.int (← getItem config.values key)

def getFloat (float : String → Except Err ℚ) (config : EnvConfig) (key : String) : Except Err ℚ := do
  float (← getItem config.values key)

end EnvConfig

def buildConfig (environ : Environ) (settings : AppSettings) : EnvConfig := EnvConfig.make environ settings.policy

/-- `DistanceFare.price`. -/
def distanceFarePrice (ratePerKm : Money) (distanceKm classMult _occupancy : ℚ) : Except Err Money :=
  .ok (distanceFare distanceKm ratePerKm classMult)

def fareStrategy (settings : AppSettings) : (distanceKm classMult occupancy : ℚ) → Except Err Money :=
  if settings.fareStrategy = "distance" then distanceFarePrice ⟨settings.fareRatePerKmCents⟩
  else DynamicFare.price { ratePerKm := ⟨settings.fareRatePerKmCents⟩ }

/-- The answering ports that `wire_real` gives one request; the clock and the two generators answer as they please. -/
def wireReal (float : String → Except Err ℚ) (environ : Environ) (settings : AppSettings) (now : Int)
    (newId newReference : String) : Deps where
  now := now
  newId := newId
  newReference := newReference
  getInt := (buildConfig environ settings).getInt
  getFloat := (buildConfig environ settings).getFloat float
  price := fareStrategy settings
  score := HeuristicAbuse.score {}

/-! ## A seeded key is there -/

section Seeded

variable {environ : Environ} {settings : AppSettings}

theorem loadSettings_policy (h : loadSettings environ = .ok settings) : settings.policy = loadPolicy environ := by
  unfold loadSettings at h
  obtain ⟨rate, -, h⟩ := bind_ok h
  obtain ⟨windowText, -, h⟩ := bind_ok h
  obtain ⟨window, -, h⟩ := bind_ok h
  obtain ⟨offsetText, -, h⟩ := bind_ok h
  obtain ⟨offset, -, h⟩ := bind_ok h
  rw [← Except.ok.inj h]

theorem lookup_isSome {mapping : List (String × String)} (rest : List (String × String)) {key : String}
    (h : key ∈ mapping.map (·.1)) : ∃ value, (mapping ++ rest).lookup key = some value := by
  induction mapping with
  | nil => cases h
  | cons entry mapping ih =>
      rw [List.cons_append, List.lookup_cons]
      by_cases hkey : key = entry.1
      · subst hkey
        exact ⟨entry.2, by simp⟩
      · have hne : (key == entry.1) = false := by simpa using hkey
        rw [hne]
        exact ih ((List.mem_cons.mp h).resolve_left hkey)

/-- **Every policy key is in the config**, whatever the environment sets. -/
theorem getItem_seeded (h : loadSettings environ = .ok settings) {key : String}
    (hkey : key ∈ policyDefaults.map (·.1)) :
    ∃ value, getItem (buildConfig environ settings).values key = .ok value := by
  have hpolicy : settings.policy.map (·.1) = policyDefaults.map (·.1) := by
    rw [loadSettings_policy h, loadPolicy, List.map_map]
    rfl
  obtain ⟨value, hvalue⟩ := lookup_isSome environ (hpolicy ▸ hkey)
  refine ⟨value, ?_⟩
  unfold getItem buildConfig EnvConfig.make
  rw [hvalue]

theorem int_raises (text : String) : Raises (fun e => ∃ detail, e = .valueError detail) (Numerals.int text) := by
  unfold Numerals.int
  dsimp only
  cases Numerals.digits _ with
  | none => exact raises_error ⟨_, rfl⟩
  | some ds =>
      dsimp only
      split
      · exact raises_error ⟨_, rfl⟩
      · exact raises_ok _

/-- **A seeded number is at worst unreadable.** -/
theorem getInt_seeded (h : loadSettings environ = .ok settings) {key : String}
    (hkey : key ∈ policyDefaults.map (·.1)) :
    Raises (fun e => ∃ detail, e = .valueError detail) ((buildConfig environ settings).getInt key) := by
  obtain ⟨value, hvalue⟩ := getItem_seeded h hkey
  unfold EnvConfig.getInt
  rw [hvalue]
  exact int_raises value

theorem getFloat_seeded {float : String → Except Err ℚ}
    (hfloat : ∀ text, Raises (fun e => ∃ detail, e = .valueError detail) (float text))
    (h : loadSettings environ = .ok settings) {key : String} (hkey : key ∈ policyDefaults.map (·.1)) :
    Raises (fun e => ∃ detail, e = .valueError detail) ((buildConfig environ settings).getFloat float key) := by
  obtain ⟨value, hvalue⟩ := getItem_seeded h hkey
  unfold EnvConfig.getFloat
  rw [hvalue]
  exact hfloat value

end Seeded

end SlrBooking
