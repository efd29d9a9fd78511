import SlrBooking.App.Seed
import SlrBooking.Runs.FreeSeats

/-!
# `Runs.DateSpellings` — one day under two spellings

A search validates the parsed date and looks trips up under the text it was given. The seeder stores every trip under
the printed date, so a search under any other accepted spelling of the day finds nothing.

## Contents
- `seedRuns`, `seedRuns_stored`: what any seed runs leave in the trip table.
- `Trip.Takes`: the journeys a search looks into. `optionOn_none_iff`, `optionsOn_nil_iff`.
- `search_printed`, `search_respelled`: the answers under the two kinds of spelling.
- `search_by_day_iff`: **when two spellings of a day are answered alike.**
-/

namespace SlrBooking

open Theory Rows Calendar

/-! ## What is stored -/

/-- The trip table after seed runs, each from the timetable of its time. -/
def seedRuns (seedings : List (Timetable × SeedRun)) : List Trip :=
  seedings.foldl (fun trips seeding => seeding.1.seeded trips seeding.2) []

/-- Stored under a printed date, and departing from somewhere. -/
structure Trip.Stored (t : Trip) : Prop where
  printed : ∃ d, t.serviceDate = isoformat d
  departs : ∃ m, departureMin t.stops = .ok m

theorem serviceDatesFrom_printed {daysOfWeek : Finset Nat} {first : Date} {offsets : List Nat} {dates : List String}
    (h : serviceDatesFrom daysOfWeek first offsets = .ok dates) : ∀ s ∈ dates, ∃ d, s = isoformat d := by
  induction offsets generalizing dates with
  | nil =>
      cases h
      simp
  | cons offset offsets ih =>
      obtain ⟨d, -, h⟩ := bind_ok h
      obtain ⟨rest, hrest, h⟩ := bind_ok h
      obtain rfl := Except.ok.inj h
      intro s hs
      split at hs
      · rcases List.mem_cons.mp hs with rfl | hs
        · exact ⟨d, rfl⟩
        · exact ih hrest s hs
      · exact ih hrest s hs

theorem serviceDates_printed {daysOfWeek : Finset Nat} {startDate : String} {windowDays : Int} {dates : List String}
    (h : serviceDates daysOfWeek startDate windowDays = .ok dates) : ∀ s ∈ dates, ∃ d, s = isoformat d := by
  unfold serviceDates at h
  split at h
  · cases h
  · obtain ⟨first, -, h⟩ := bind_ok h
    exact serviceDatesFrom_printed h

namespace Timetable

variable {tt : Timetable}

theorem tripsFor_printed {startDate : String} {windowDays : Int} {patterns : List ServicePattern} {fresh : List Trip}
    (h : tt.tripsFor startDate windowDays patterns = .ok fresh) : ∀ t ∈ fresh, ∃ d, t.serviceDate = isoformat d := by
  induction patterns generalizing fresh with
  | nil =>
      cases h
      simp
  | cons pattern patterns ih =>
      obtain ⟨dates, hdates, h⟩ := bind_ok h
      obtain ⟨rest, hrest, h⟩ := bind_ok h
      obtain rfl := Except.ok.inj h
      intro t ht
      rcases List.mem_append.mp ht with ht | ht
      · obtain ⟨s, hs, rfl⟩ := List.mem_map.mp ht
        exact serviceDates_printed hdates s hs
      · exact ih hrest t ht

end Timetable

/-- One trip is skipped, or stored once its departure is known. -/
theorem upsertAll_stored {fresh trips trips' : List Trip} {n : Nat} (h : upsertAll fresh trips = .ok (n, trips'))
    (hfresh : ∀ t ∈ fresh, ∃ d, t.serviceDate = isoformat d) (htrips : ∀ t ∈ trips, t.Stored) :
    ∀ t ∈ trips', t.Stored := by
  induction fresh generalizing trips n with
  | nil =>
      cases h
      exact htrips
  | cons t fresh ih =>
      obtain ⟨⟨inserted, middle⟩, hupsert, h⟩ := bind_ok h
      obtain ⟨⟨m, last⟩, hrest, h⟩ := bind_ok h
      cases h
      have hmiddle : ∀ b ∈ middle, b.Stored := by
        unfold upsertTrip at hupsert
        split at hupsert
        · cases hupsert
          exact htrips
        · obtain ⟨m, hm, hupsert⟩ := bind_ok hupsert
          cases hupsert
          intro b hb
          rcases List.mem_append.mp hb with hb | hb
          · exact htrips b hb
          · obtain rfl := List.mem_singleton.mp hb
            exact ⟨hfresh b List.mem_cons_self, m, hm⟩
      exact ih hrest (fun b hb => hfresh b (List.mem_cons_of_mem _ hb)) hmiddle

theorem seeded_stored {tt : Timetable} {run : SeedRun} {trips : List Trip} (htrips : ∀ t ∈ trips, t.Stored) :
    ∀ t ∈ tt.seeded trips run, t.Stored := by
  unfold Timetable.seeded
  split
  · rename_i n trips' hseed
    obtain ⟨fresh, hfresh, hupsert⟩ := bind_ok hseed
    exact upsertAll_stored hupsert (Timetable.tripsFor_printed hfresh) htrips
  · exact htrips

/-- **Whatever was seeded is stored under printed dates.** -/
theorem seedRuns_stored (seedings : List (Timetable × SeedRun)) : ∀ t ∈ seedRuns seedings, t.Stored := by
  induction seedings using List.reverseRecOn with
  | nil => simp [seedRuns]
  | append_singleton seedings seeding ih =>
      unfold seedRuns at ih ⊢
      rw [List.foldl_append]
      exact seeded_stored ih

/-- A store any seed runs and any requests lead to. -/
def reached (seedings : List (Timetable × SeedRun)) (past : List Request) : World :=
  (World.start (seedRuns seedings)).after past

theorem reached_stored (seedings : List (Timetable × SeedRun)) (past : List Request) :
    ∀ t ∈ (reached seedings past).trips, t.Stored := by
  have htrips : (reached seedings past).trips = overlay Trip.tripId [] (seedRuns seedings) := trips_after _ past
  intro t ht
  rw [htrips] at ht
  rcases mem_overlay_cases ht with ht | ht
  · cases ht
  · exact seedRuns_stored seedings t ht

/-! ## Journeys -/

/-- A search for the journey does not pass over the train: both stations are on its line, in this order, and it serves
    the leg between them. -/
def Trip.Takes (trip : Trip) (originCode destCode : String) : Prop :=
  ∃ origin dest, stationByCode trip originCode = some origin ∧ stationByCode trip destCode = some dest ∧
    origin.seq < dest.seq ∧ ∀ leg, Leg.make origin.seq dest.seq = .ok leg → serves trip.stops leg = true

section Journeys

variable {deps : Deps} {holds : List Hold}

theorem optionOn_none_iff {trip : Trip} {originCode destCode : String} :
    optionOn deps holds trip originCode destCode = .ok none ↔ ¬ trip.Takes originCode destCode := by
  unfold optionOn Trip.Takes
  cases horigin : stationByCode trip originCode with
  | none => simp
  | some origin =>
      cases hdest : stationByCode trip destCode with
      | none => simp
      | some dest =>
          dsimp only
          by_cases hback : origin.seq ≥ dest.seq
          · rw [if_pos hback]
            simp
            omega
          · rw [if_neg hback]
            have hforward : origin.seq < dest.seq := by omega
            constructor
            · -- A leg that cannot be made raises; a served one raises or has an option.
              rintro h ⟨origin', dest', horigin', hdest', -, hserves⟩
              obtain rfl := Option.some.inj horigin'
              obtain rfl := Option.some.inj hdest'
              obtain ⟨leg, hleg, h⟩ := bind_ok h
              rw [if_neg (by simp [hserves leg hleg])] at h
              obtain ⟨times, -, h⟩ := bind_ok h
              obtain ⟨classes, -, h⟩ := bind_ok h
              obtain ⟨km, -, h⟩ := bind_ok h
              cases h
            · intro hskip
              obtain ⟨leg, hleg, hno⟩ :
                  ∃ leg, Leg.make origin.seq dest.seq = .ok leg ∧ ¬ serves trip.stops leg = true := by
                by_contra hnone
                apply hskip
                refine ⟨origin, dest, rfl, rfl, hforward, fun leg hleg => ?_⟩
                by_contra hno
                exact hnone ⟨leg, hleg, hno⟩
              rw [hleg]
              simp [hno, bind, Except.bind, pure, Except.pure]

theorem optionsOn_nil_iff {originCode destCode : String} {trips : List Trip} :
    optionsOn deps holds originCode destCode trips = .ok [] ↔ ∀ t ∈ trips, ¬ t.Takes originCode destCode := by
  constructor
  · intro h t ht htakes
    obtain ⟨hmem, hall⟩ := optionsOn_ok h
    obtain ⟨option, hoption⟩ := hall t ht
    cases option with
    | none => exact optionOn_none_iff.mp hoption htakes
    | some o => cases (hmem o).mpr ⟨t, ht, hoption⟩
  · intro h
    induction trips with
    | nil => rfl
    | cons t trips ih =>
        have hskip : optionOn deps holds t originCode destCode = .ok none :=
          optionOn_none_iff.mpr (h t List.mem_cons_self)
        have hrest := ih fun t ht => h t (List.mem_cons_of_mem _ ht)
        rw [optionsOn, hskip, hrest]
        rfl

end Journeys

/-! ## The answers -/

/-- What a search answers. -/
def World.searched (w : World) (deps : Deps) (g : Gateway) (originCode destCode serviceDate : String) :
    Except Err (List TrainOption) := (w.serve ⟨.search originCode destCode serviceDate, deps, g⟩).1

/-- A search under the text passes the checks of its date. -/
def SearchAccepts (deps : Deps) (serviceDate : String) : Prop :=
  ∃ originCode destCode, checkSearch deps originCode destCode serviceDate = .ok ()

theorem checkSearch_ne {deps : Deps} {o c serviceDate : String} (h : SearchAccepts deps serviceDate) (hne : o ≠ c) :
    checkSearch deps o c serviceDate = .ok () := by
  obtain ⟨o', c', hok⟩ := h
  have hne' : o' ≠ c' := by
    rintro rfl
    obtain ⟨d, -, hok⟩ := bind_ok hok
    rw [if_pos rfl] at hok
    cases hok
  unfold checkSearch at hok ⊢
  rw [if_neg hne'] at hok
  rw [if_neg hne]
  exact hok

theorem checkSearch_same {deps : Deps} {o serviceDate : String} {d : Date} (h : parseDate serviceDate = .ok d) :
    checkSearch deps o o serviceDate = .error (.domain .invalidLeg "origin and destination are the same station") := by
  unfold checkSearch
  rw [h, if_pos rfl]
  rfl

section Answers

variable {w : World} {deps : Deps} {g : Gateway} {serviceDate : String} {d : Date}

/-- The same station twice is refused under any accepted spelling. -/
theorem search_same (o : String) (h : parseDate serviceDate = .ok d) :
    w.searched deps g o o serviceDate =
      .error (.domain .invalidLeg "origin and destination are the same station") := by
  rw [World.searched, serve_search, checkSearch_same h]
  rfl

/-- **Under the printed date** the trains of the day are looked into. -/
theorem search_printed {o c : String} (hstored : ∀ t ∈ w.trips, t.Stored) (haccepts : SearchAccepts deps (isoformat d))
    (hne : o ≠ c) : w.searched deps g o c (isoformat d) = .ok [] ↔
      ∀ t ∈ w.trips, t.serviceDate = isoformat d → ¬ t.Takes o c := by
  obtain ⟨ds, hds⟩ : ∃ ds, MemoryRepo.departures (isoformat d) w.trips = .ok ds :=
    departures_ok fun t ht _ => (hstored t ht).departs
  have hts : MemoryRepo.findByDate w.trips (isoformat d) = .ok (inDepartureOrder ds) := by
    unfold MemoryRepo.findByDate
    rw [hds]
    rfl
  rw [World.searched, serve_search, checkSearch_ne haccepts hne, hts]
  show optionsOn deps (w.swept deps.now) o c (inDepartureOrder ds) = .ok [] ↔ _
  rw [optionsOn_nil_iff]
  simp only [MemoryRepo.mem_findByDate hts, and_imp]

/-- **Under any other spelling** nothing is found. -/
theorem search_respelled {o c : String} (hstored : ∀ t ∈ w.trips, t.Stored) (hparse : parseDate serviceDate = .ok d)
    (hspelled : serviceDate ≠ isoformat d) (haccepts : SearchAccepts deps serviceDate) (hne : o ≠ c) :
    w.searched deps g o c serviceDate = .ok [] := by
  have hother : ∀ t ∈ w.trips, t.serviceDate ≠ serviceDate := by
    rintro t ht rfl
    obtain ⟨d', hd'⟩ := (hstored t ht).printed
    rw [hd', parseDate_isoformat] at hparse
    obtain rfl := Except.ok.inj hparse
    exact hspelled hd'
  obtain ⟨ds, hds⟩ : ∃ ds, MemoryRepo.departures serviceDate w.trips = .ok ds :=
    departures_ok fun t ht hdate => absurd hdate (hother t ht)
  have hnone : ds = [] := by
    have hfilter := MemoryRepo.departures_trips hds
    rw [List.filter_eq_nil_iff.mpr fun t ht => by simpa using hother t ht] at hfilter
    exact List.map_eq_nil_iff.mp hfilter
  have hts : MemoryRepo.findByDate w.trips serviceDate = .ok [] := by
    unfold MemoryRepo.findByDate
    rw [hds, hnone]
    rfl
  rw [World.searched, serve_search, checkSearch_ne haccepts hne, hts]
  rfl

theorem Trip.Takes.ne {t : Trip} {o c : String} (h : t.Takes o c) : o ≠ c := by
  obtain ⟨origin, dest, horigin, hdest, hforward, -⟩ := h
  rintro rfl
  obtain rfl := Option.some.inj (horigin.symm.trans hdest)
  omega

/-- The printed date against another spelling of it. -/
theorem printed_against_respelled (g : Gateway) (hstored : ∀ t ∈ w.trips, t.Stored)
    (hparse : parseDate serviceDate = .ok d) (hspelled : serviceDate ≠ isoformat d)
    (hprinted : SearchAccepts deps (isoformat d)) (haccepts : SearchAccepts deps serviceDate) :
    (∀ o c, w.searched deps g o c (isoformat d) = w.searched deps g o c serviceDate) ↔
      ∀ t ∈ w.trips, t.serviceDate = isoformat d → ∀ o c, ¬ t.Takes o c := by
  constructor
  · intro hsame t ht hdate o c htakes
    have hnone : w.searched deps g o c (isoformat d) = .ok [] := by
      rw [hsame o c]
      exact search_respelled hstored hparse hspelled haccepts htakes.ne
    exact (search_printed hstored hprinted htakes.ne).mp hnone t ht hdate htakes
  · intro hquiet o c
    by_cases hne : o = c
    · obtain rfl := hne
      rw [search_same o (parseDate_isoformat d), search_same o hparse]
    · rw [search_respelled hstored hparse hspelled haccepts hne]
      exact (search_printed hstored hprinted hne).mpr fun t ht hdate => hquiet t ht hdate o c

end Answers

/-- **When two spellings of a day are answered alike**, on every reachable store and at every clock: exactly when both
    or neither is the printed date, or no train of the day takes a journey. -/
theorem search_by_day_iff (seedings : List (Timetable × SeedRun)) (past : List Request) (deps : Deps) (g : Gateway)
    {first second : String} {d : Date} (hfirst : parseDate first = .ok d) (hsecond : parseDate second = .ok d)
    (haccepts : SearchAccepts deps first) (haccepts' : SearchAccepts deps second) :
    (∀ o c, (reached seedings past).searched deps g o c first =
        (reached seedings past).searched deps g o c second) ↔
      ((first = isoformat d ↔ second = isoformat d) ∨
        ∀ t ∈ (reached seedings past).trips, t.serviceDate = isoformat d → ∀ o c, ¬ t.Takes o c) := by
  have hstored := reached_stored seedings past
  generalize reached seedings past = w at hstored ⊢
  by_cases hprinted : first = isoformat d
  · subst hprinted
    by_cases hprinted' : second = isoformat d
    · subst hprinted'
      simp
    · rw [printed_against_respelled g hstored hsecond hprinted' haccepts haccepts']
      simp [hprinted']
  · by_cases hprinted' : second = isoformat d
    · subst hprinted'
      simp only [hprinted, iff_true, false_or]
      rw [← printed_against_respelled g hstored hfirst hprinted haccepts' haccepts]
      simp only [eq_comm]
    · -- Both searches find nothing.
      have hquiet : ∀ o c, w.searched deps g o c first = w.searched deps g o c second := by
        intro o c
        by_cases hne : o = c
        · obtain rfl := hne
          rw [search_same o hfirst, search_same o hsecond]
        · rw [search_respelled hstored hfirst hprinted haccepts hne,
            search_respelled hstored hsecond hprinted' haccepts' hne]
      simp only [hquiet, hprinted, hprinted', implies_true, true_or]

/-! ### Two spellings of 1 May 2024 -/

/-- A store seeded with the sample timetable for one day, nothing booked. -/
def mayDay : List (Timetable × SeedRun) := [(sampleTimetable, ⟨"2024-05-01", 1⟩)]

/-- Noon of 30 April 2024 in UTC. -/
def aprilNoon : Int := 1714478400

/-- A text that passes the checks at that noon. -/
theorem accepts_of_check {serviceDate : String}
    (h : (checkSearch (sampleDeps aprilNoon "1") "FOT" "BAD" serviceDate).toOption = some ()) :
    SearchAccepts (sampleDeps aprilNoon "1") serviceDate := by
  refine ⟨"FOT", "BAD", ?_⟩
  cases hcheck : checkSearch (sampleDeps aprilNoon "1") "FOT" "BAD" serviceDate with
  | error e =>
      rw [hcheck] at h
      cases h
  | ok u => rfl

/-- The basic form and the week form of the day pass every check and are answered alike. -/
theorem search_by_day_iff_respelled :
    (SearchAccepts (sampleDeps aprilNoon "1") "20240501" ∧ SearchAccepts (sampleDeps aprilNoon "1") "2024-W18-3") ∧
      ∀ o c, (reached mayDay []).searched (sampleDeps aprilNoon "1") acceptAll o c "20240501" =
        (reached mayDay []).searched (sampleDeps aprilNoon "1") acceptAll o c "2024-W18-3" := by
  have hbasic : parseDate "20240501" = .ok ⟨739007, by decide, by decide⟩ := by decide +kernel
  have hweek : parseDate "2024-W18-3" = .ok ⟨739007, by decide, by decide⟩ := by decide +kernel
  have haccepts : SearchAccepts (sampleDeps aprilNoon "1") "20240501" := accepts_of_check (by decide +kernel)
  have haccepts' : SearchAccepts (sampleDeps aprilNoon "1") "2024-W18-3" := accepts_of_check (by decide +kernel)
  refine ⟨⟨haccepts, haccepts'⟩, ?_⟩
  apply (search_by_day_iff mayDay [] (sampleDeps aprilNoon "1") acceptAll hbasic hweek haccepts haccepts').mpr
  left
  decide +kernel

/-- The week form of the day passes every check and finds none of the day's trains. -/
theorem week_date_finds_no_train :
    parseDate "2024-05-01" = parseDate "2024-W18-3" ∧
      SearchAccepts (sampleDeps aprilNoon "1") "2024-05-01" ∧ SearchAccepts (sampleDeps aprilNoon "1") "2024-W18-3" ∧
      (reached mayDay []).searched (sampleDeps aprilNoon "1") acceptAll "FOT" "BAD" "2024-05-01" ≠
        (reached mayDay []).searched (sampleDeps aprilNoon "1") acceptAll "FOT" "BAD" "2024-W18-3" := by
  refine ⟨by decide +kernel, accepts_of_check (by decide +kernel), accepts_of_check (by decide +kernel), ?_⟩
  intro hsame
  have hfound : ((reached mayDay []).searched (sampleDeps aprilNoon "1") acceptAll
      "FOT" "BAD" "2024-05-01").toOption.map List.length = some 1 := by decide +kernel
  have hnone : ((reached mayDay []).searched (sampleDeps aprilNoon "1") acceptAll
      "FOT" "BAD" "2024-W18-3").toOption.map List.length = some 0 := by decide +kernel
  rw [hsame, hnone] at hfound
  cases hfound

end SlrBooking
