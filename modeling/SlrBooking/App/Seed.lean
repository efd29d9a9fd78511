import SlrBooking.Adapters.SqlRepo
import SlrBooking.App.TimetableConfig
import SlrBooking.Runs.Calls

/-!
# `App.Seed` — expanding the timetable into dated trips

A seed run materializes every pattern over a window of dates and inserts the trips whose ids are not in
the table yet. A run that raises is rolled back.

## Contents
- `upsertTrip`, `Timetable.seed`, `Timetable.seedAll`: one run, and runs one after another.
- `Seeded`: what the trip table holds after any runs. `seed_ok`, `seed_error`: one run on such a table.
- `tripsOn_seeded`: the departures of a day. `calendar_agrees`.
-/

namespace SlrBooking

open Theory Rows Calendar

/-- Whether the row was inserted, and the trip table. Its departure column needs a departure. -/
def upsertTrip (trips : List Trip) (trip : Trip) : Except Err (Bool × List Trip) :=
  match lookup Trip.tripId trip.tripId trips with
  | some _ => .ok (false, trips)
  | none => do
    let _ ← departureMin trip.stops
    return (true, trips ++ [trip])

/-- How many of `fresh` were inserted, and the trip table. -/
def upsertAll : List Trip → List Trip → Except Err (Nat × List Trip)
  | [], trips => .ok (0, trips)
  | trip :: fresh, trips => do
    let (inserted, trips) ← upsertTrip trips trip
    let (n, trips) ← upsertAll fresh trips
    return ((if inserted then 1 else 0) + n, trips)

/-- One seed run: the date it starts at and the configured booking window. -/
structure SeedRun where
  today             : String
  bookingWindowDays : Int

namespace Timetable

variable (tt : Timetable)

/-- Insert every trip in the booking window. Returns how many were new. -/
def seed (run : SeedRun) (trips : List Trip) : Except Err (Nat × List Trip) := do
  let fresh ← tt.tripsForWindow run.today run.bookingWindowDays
  upsertAll fresh trips

/-- The trip table after the transaction of one seed run. -/
def seeded (trips : List Trip) (run : SeedRun) : List Trip :=
  match tt.seed run trips with
  | .ok (_, trips) => trips
  | .error _ => trips

/-- The trip table after seed runs one after another. -/
def seedAll (runs : List SeedRun) : List Trip := runs.foldl tt.seeded []

end Timetable

/-! ## What a window covers -/

/-- The window is one of dates: it starts at a date, and ends by 31 December 9999. -/
def SeedRun.InCalendar (run : SeedRun) : Prop :=
  0 ≤ run.bookingWindowDays ∧ ∃ first, parseDate run.today = .ok first ∧
    first.ordinal + run.bookingWindowDays ≤ maxOrdinal + 1

/-- `d` lies in `[today, today + bookingWindowDays)`. -/
def SeedRun.Covers (run : SeedRun) (d : Date) : Prop :=
  ∃ first, parseDate run.today = .ok first ∧
    first.ordinal ≤ d.ordinal ∧ (d.ordinal : Int) < first.ordinal + run.bookingWindowDays

/-- The pattern runs on that date. -/
def ServicePattern.RunsOn (p : ServicePattern) (d : Date) : Prop := runsOn p.daysOfWeek (isoformat d) = .ok true

instance (p : ServicePattern) (d : Date) : Decidable (p.RunsOn d) :=
  decidable_of_iff (d.weekday ∈ p.daysOfWeek) runsOn_isoformat.symm

/-- The first departs no later than the second. -/
def DepartsNoLater (a b : Trip) : Prop :=
  ∃ m n, departureMin a.stops = .ok m ∧ departureMin b.stops = .ok n ∧ m ≤ n

/-- Every pattern has a code of its own and departs from at least one stop. -/
structure Timetable.Sound (tt : Timetable) : Prop where
  codes   : (tt.patterns.map ServicePattern.code).Nodup
  departs : ∀ p ∈ tt.patterns, ∃ s ∈ p.stops, s.departMin ≠ none

namespace Timetable

variable {tt : Timetable}

/-- A trip the timetable can ask for. -/
def Dated (tt : Timetable) (t : Trip) : Prop := ∃ p ∈ tt.patterns, ∃ d, t = tt.materialize p (isoformat d)

theorem Sound.pattern_eq (h : tt.Sound) {p p' : ServicePattern} (hp : p ∈ tt.patterns) (hp' : p' ∈ tt.patterns)
    (hcode : p.code = p'.code) : p = p' := List.inj_on_of_nodup_map h.codes hp hp' hcode

theorem Sound.departure (h : tt.Sound) {p : ServicePattern} (hp : p ∈ tt.patterns) :
    ∃ m, departureMin p.stops = .ok m := by
  obtain ⟨s, hs, hdep⟩ := h.departs p hp
  obtain ⟨m, hm⟩ := Option.ne_none_iff_exists'.mp hdep
  have hmem : m ∈ p.stops.filterMap (·.departMin) := List.mem_filterMap.mpr ⟨s, hs, hm⟩
  unfold departureMin
  split
  · rename_i hnil
    rw [hnil] at hmem
    cases hmem
  · exact ⟨_, rfl⟩

/-- **Ids tell trips apart.** -/
theorem Sound.dated_inj (h : tt.Sound) {t t' : Trip} (ht : tt.Dated t) (ht' : tt.Dated t')
    (hid : t.tripId = t'.tripId) : t = t' := by
  obtain ⟨p, hp, d, rfl⟩ := ht
  obtain ⟨p', hp', d', rfl⟩ := ht'
  obtain ⟨hcode, rfl⟩ := tripIdFor_inj hid
  rw [h.pattern_eq hp hp' hcode]

/-! ## One run -/

theorem tripsFor_ok {run : SeedRun} (hrun : run.InCalendar) : ∀ (patterns : List ServicePattern),
    ∃ fresh, tt.tripsFor run.today run.bookingWindowDays patterns = .ok fresh ∧
      ∀ t, t ∈ fresh ↔ ∃ p ∈ patterns, ∃ d, p.RunsOn d ∧ run.Covers d ∧ t = tt.materialize p (isoformat d) := by
  obtain ⟨hwindow, first, hfirst, hend⟩ := hrun
  have hcovers : ∀ d, run.Covers d ↔
      first.ordinal ≤ d.ordinal ∧ (d.ordinal : Int) < first.ordinal + run.bookingWindowDays := by
    intro d
    constructor
    · rintro ⟨first', hfirst', hd⟩
      obtain rfl := Except.ok.inj (hfirst.symm.trans hfirst')
      exact hd
    · exact fun hd => ⟨first, hfirst, hd⟩
  intro patterns
  induction patterns with
  | nil => exact ⟨[], rfl, by simp⟩
  | cons p patterns ih =>
      obtain ⟨fresh, hfresh, hmem⟩ := ih
      obtain ⟨dates, hdates, hdate⟩ := serviceDates_ok p.daysOfWeek hfirst hwindow hend
      refine ⟨dates.map (tt.materialize p) ++ fresh, by rw [tripsFor, hdates, hfresh]; rfl, fun t => ?_⟩
      rw [List.mem_append, List.mem_map, hmem, List.exists_mem_cons_iff]
      refine or_congr_left ?_
      constructor
      · rintro ⟨s, hs, rfl⟩
        obtain ⟨d, hday, hin, rfl⟩ := (hdate s).mp hs
        exact ⟨d, runsOn_isoformat.mpr hday, (hcovers d).mpr hin, rfl⟩
      · rintro ⟨d, hruns, hin, rfl⟩
        exact ⟨isoformat d, (hdate _).mpr ⟨d, runsOn_isoformat.mp hruns, (hcovers d).mp hin, rfl⟩, rfl⟩

/-- What a table must meet for the run to go through: its trips are the timetable's, each once. -/
structure Seeded (tt : Timetable) (trips : List Trip) : Prop where
  keyed : Keyed Trip.tripId trips
  dated : ∀ t ∈ trips, tt.Dated t

theorem Seeded.insert {trips : List Trip} (hs : tt.Seeded trips) {t : Trip} (ht : tt.Dated t)
    (hfound : lookup Trip.tripId t.tripId trips = none) : tt.Seeded (trips ++ [t]) := by
  constructor
  · rw [Keyed, List.map_append, List.map_singleton]
    refine List.nodup_append.mpr ⟨hs.keyed, List.nodup_singleton _, fun a ha b hb hab => ?_⟩
    obtain ⟨x, hx, rfl⟩ := List.mem_map.mp ha
    exact lookup_none_iff.mp hfound x hx (hab.trans (List.mem_singleton.mp hb))
  · intro x hx
    rcases List.mem_append.mp hx with hx | hx
    · exact hs.dated x hx
    · exact List.mem_singleton.mp hx ▸ ht

theorem upsertAll_ok (h : tt.Sound) : ∀ {fresh trips : List Trip}, tt.Seeded trips → (∀ t ∈ fresh, tt.Dated t) →
    ∃ added, upsertAll fresh trips = .ok (added.length, trips ++ added) ∧ tt.Seeded (trips ++ added) ∧
      ∀ t, t ∈ trips ++ added ↔ t ∈ trips ∨ t ∈ fresh := by
  intro fresh
  induction fresh with
  | nil =>
      intro trips hs _
      exact ⟨[], by rw [List.append_nil]; rfl, by rwa [List.append_nil], by simp⟩
  | cons t fresh ih =>
      intro trips hs hfresh
      have ht := hfresh t List.mem_cons_self
      have hrest : ∀ b ∈ fresh, tt.Dated b := fun b hb => hfresh b (List.mem_cons_of_mem _ hb)
      cases hfound : lookup Trip.tripId t.tripId trips with
      | some b =>
          -- The row with this id is this trip.
          have hb : t ∈ trips :=
            h.dated_inj ht (hs.dated b (lookup_some_mem hfound)) (lookup_some_key hfound).symm ▸
              lookup_some_mem hfound
          obtain ⟨added, hadded, hseeded, hmem⟩ := ih hs hrest
          refine ⟨added, ?_, hseeded, fun x => ?_⟩
          · rw [upsertAll, upsertTrip, hfound]
            show (do let (n, trips) ← upsertAll fresh trips; pure (0 + n, trips)) = _
            rw [hadded]
            simp [pure, Except.pure, bind, Except.bind]
          · rw [hmem, List.mem_cons]
            constructor
            · exact fun hx => hx.imp_right Or.inr
            · rintro (hx | rfl | hx)
              · exact Or.inl hx
              · exact Or.inl hb
              · exact Or.inr hx
      | none =>
          have hnew := hs.insert ht hfound
          obtain ⟨p, hp, d, hdated⟩ := ht
          obtain ⟨m, hm⟩ := h.departure hp
          have hstops : departureMin t.stops = .ok m := by rw [hdated]; exact hm
          obtain ⟨added, hadded, hseeded, hmem⟩ := ih hnew hrest
          refine ⟨t :: added, ?_, by rwa [← List.append_cons] at hseeded, fun x => ?_⟩
          · rw [upsertAll, upsertTrip, hfound]
            dsimp only
            rw [hstops]
            show (do let (n, trips) ← upsertAll fresh (trips ++ [t]); pure (1 + n, trips)) = _
            rw [hadded]
            simp [pure, Except.pure, bind, Except.bind, Nat.add_comm]
          · rw [List.append_cons, hmem, List.mem_append, List.mem_singleton, List.mem_cons]
            tauto

/-- **A run that goes through.** It adds the missing trips of its window and returns how many. -/
theorem seed_ok (h : tt.Sound) {run : SeedRun} (hrun : run.InCalendar) {trips : List Trip} (hs : tt.Seeded trips) :
    ∃ added, tt.seed run trips = .ok (added.length, trips ++ added) ∧ tt.Seeded (trips ++ added) ∧
      ∀ t, t ∈ trips ++ added ↔ t ∈ trips ∨
        ∃ p ∈ tt.patterns, ∃ d, p.RunsOn d ∧ run.Covers d ∧ t = tt.materialize p (isoformat d) := by
  obtain ⟨fresh, hfresh, hmem⟩ := tripsFor_ok hrun tt.patterns
  have hdated : ∀ t ∈ fresh, tt.Dated t := by
    intro t ht
    obtain ⟨p, hp, d, -, -, rfl⟩ := (hmem t).mp ht
    exact ⟨p, hp, d, rfl⟩
  obtain ⟨added, hadded, hseeded, hall⟩ := upsertAll_ok h hs hdated
  refine ⟨added, ?_, hseeded, fun t => by rw [hall, hmem]⟩
  rw [seed, tripsForWindow, hfresh]
  exact hadded

/-- **A run that raises.** Its window is not one of dates. -/
theorem seed_error {run : SeedRun} (hrun : ¬ run.InCalendar) (hpatterns : tt.patterns ≠ []) (trips : List Trip) :
    ∃ e, tt.seed run trips = .error e := by
  obtain ⟨p, patterns, hp⟩ := List.exists_cons_of_ne_nil hpatterns
  obtain ⟨e, he⟩ := serviceDates_error p.daysOfWeek hrun
  refine ⟨e, ?_⟩
  rw [seed, tripsForWindow, hp, tripsFor, he]
  rfl

/-! ## Runs -/

/-- A pattern runs on a date that one of the runs covers. -/
def Bookable (runs : List SeedRun) (p : ServicePattern) (d : Date) : Prop :=
  p.RunsOn d ∧ ∃ run ∈ runs, run.InCalendar ∧ run.Covers d

theorem seedAll_spec (h : tt.Sound) (runs : List SeedRun) : tt.Seeded (tt.seedAll runs) ∧
    ∀ t, t ∈ tt.seedAll runs ↔ ∃ p ∈ tt.patterns, ∃ d, Bookable runs p d ∧ t = tt.materialize p (isoformat d) := by
  induction runs using List.reverseRecOn with
  | nil => exact ⟨⟨List.nodup_nil, fun t ht => absurd ht List.not_mem_nil⟩, by simp [seedAll, Bookable]⟩
  | append_singleton runs run ih =>
      obtain ⟨hs, hmem⟩ := ih
      have hlast : tt.seedAll (runs ++ [run]) = tt.seeded (tt.seedAll runs) run := by
        rw [seedAll, seedAll, List.foldl_append]
        rfl
      have hbook : ∀ p d, Bookable (runs ++ [run]) p d ↔
          Bookable runs p d ∨ (p.RunsOn d ∧ run.InCalendar ∧ run.Covers d) := by
        intro p d
        simp only [Bookable, List.mem_append, List.mem_singleton]
        constructor
        · rintro ⟨hruns, r, hr | rfl, hin, hcov⟩
          · exact Or.inl ⟨hruns, r, hr, hin, hcov⟩
          · exact Or.inr ⟨hruns, hin, hcov⟩
        · rintro (⟨hruns, r, hr, hin, hcov⟩ | ⟨hruns, hin, hcov⟩)
          · exact ⟨hruns, r, Or.inl hr, hin, hcov⟩
          · exact ⟨hruns, run, Or.inr rfl, hin, hcov⟩
      rw [hlast]
      by_cases hrun : run.InCalendar
      · -- a run inside the calendar adds what is missing of its window
        obtain ⟨added, hadded, hseeded, hall⟩ := seed_ok h hrun hs
        rw [seeded, hadded]
        refine ⟨hseeded, fun t => ?_⟩
        rw [hall, hmem]
        constructor
        · rintro (⟨p, hp, d, hb, rfl⟩ | ⟨p, hp, d, hruns, hcov, rfl⟩)
          · exact ⟨p, hp, d, (hbook p d).mpr (Or.inl hb), rfl⟩
          · exact ⟨p, hp, d, (hbook p d).mpr (Or.inr ⟨hruns, hrun, hcov⟩), rfl⟩
        · rintro ⟨p, hp, d, hb, rfl⟩
          rcases (hbook p d).mp hb with hb | ⟨hruns, -, hcov⟩
          · exact Or.inl ⟨p, hp, d, hb, rfl⟩
          · exact Or.inr ⟨p, hp, d, hruns, hcov, rfl⟩
      · -- past the last date the run raises before it stores anything
        have hsame : tt.seeded (tt.seedAll runs) run = tt.seedAll runs := by
          by_cases hpatterns : tt.patterns = []
          · rw [seeded, seed, tripsForWindow, hpatterns]
            rfl
          · obtain ⟨e, he⟩ := seed_error hrun hpatterns (tt.seedAll runs)
            rw [seeded, he]
        rw [hsame]
        refine ⟨hs, fun t => (hmem t).trans ?_⟩
        have hiff : ∀ p d, Bookable (runs ++ [run]) p d ↔ Bookable runs p d := fun p d =>
          (hbook p d).trans (or_iff_left fun hlast => hrun hlast.2.1)
        simp only [hiff]

/-! ## A day's departures -/

/-- The trips of the patterns that run on a date. -/
def running (tt : Timetable) (d : Date) : List Trip :=
  (tt.patterns.filter fun p => p.RunsOn d).map fun p => tt.materialize p (isoformat d)

theorem Sound.running_keyed (h : tt.Sound) (d : Date) : (tt.running d).Nodup := by
  have hpatterns : (tt.patterns.filter fun p => p.RunsOn d).Nodup := (h.codes.of_map _).filter _
  refine hpatterns.map_on fun p hp p' hp' hsame => ?_
  exact h.pattern_eq (List.mem_filter.mp hp).1 (List.mem_filter.mp hp').1 (tripIdFor_inj (congrArg Trip.tripId hsame)).1

/-- **A day's departures.** On a date that a run covers, each pattern that runs has one trip; they come in
    order of departure. -/
theorem tripsOn_seeded (h : tt.Sound) {runs : List SeedRun} {run : SeedRun} (hmem : run ∈ runs)
    (hrun : run.InCalendar) {d : Date} (hcov : run.Covers d) :
    (Server.tripsOn (tt.seedAll runs) (isoformat d)).Perm (tt.running d) ∧
      (Server.tripsOn (tt.seedAll runs) (isoformat d)).Pairwise DepartsNoLater := by
  obtain ⟨hs, hall⟩ := seedAll_spec h runs
  let day := (tt.seedAll runs).filter fun t => t.serviceDate = isoformat d
  let departing := day.filterMap fun t => (departureMin t.stops).toOption.map fun m => (m, t)
  have hdeparts : ∀ t ∈ day, ∃ m, departureMin t.stops = .ok m := by
    intro t ht
    obtain ⟨p, hp, d', rfl⟩ := hs.dated t (List.mem_filter.mp ht).1
    exact h.departure hp
  -- every trip of the day has a departure, so none is dropped
  have hday : departing.map Prod.snd = day := by
    have hkeeps : ∀ ts : List Trip, (∀ t ∈ ts, ∃ m, departureMin t.stops = .ok m) →
        (ts.filterMap fun t => (departureMin t.stops).toOption.map fun m => (m, t)).map Prod.snd = ts := by
      intro ts
      induction ts with
      | nil => exact fun _ => rfl
      | cons t ts ih =>
          intro hts
          obtain ⟨m, hm⟩ := hts t List.mem_cons_self
          rw [List.filterMap_cons_some (by rw [hm]; rfl), List.map_cons,
            ih fun b hb => hts b (List.mem_cons_of_mem _ hb)]
    exact hkeeps day hdeparts
  have hperm : (Server.tripsOn (tt.seedAll runs) (isoformat d)).Perm day :=
    (perm_inDepartureOrder departing).trans (List.Perm.of_eq hday)
  have hrunning : day.Perm (tt.running d) := by
    have hnodup : day.Nodup := (hs.keyed.of_map _).filter _
    refine (List.perm_ext_iff_of_nodup hnodup (h.running_keyed d)).mpr fun t => ?_
    rw [List.mem_filter, hall, running, List.mem_map, decide_eq_true_eq]
    constructor
    · rintro ⟨⟨p, hp, d', ⟨hruns, -⟩, rfl⟩, hdate⟩
      obtain rfl := isoformat_inj hdate
      exact ⟨p, List.mem_filter.mpr ⟨hp, decide_eq_true hruns⟩, rfl⟩
    · rintro ⟨p, hp, rfl⟩
      obtain ⟨hp, hruns⟩ := List.mem_filter.mp hp
      exact ⟨⟨p, hp, d, ⟨of_decide_eq_true hruns, run, hmem, hrun, hcov⟩, rfl⟩, rfl⟩
  refine ⟨hperm.trans hrunning, ?_⟩
  have hentry : ∀ x ∈ departing.foldr insertDeparture [], departureMin x.2.stops = .ok x.1 := by
    have hsame : (departing.foldr insertDeparture []).Perm departing := perm_foldr_insertDeparture departing
    intro x hx
    obtain ⟨t, -, hx⟩ := List.mem_filterMap.mp (hsame.mem_iff.mp hx)
    obtain ⟨m, hm, rfl⟩ := Option.map_eq_some_iff.mp hx
    cases hdep : departureMin t.stops with
    | error e =>
        rw [hdep] at hm
        cases hm
    | ok m' =>
        rw [hdep] at hm
        exact congrArg Except.ok (Option.some.inj hm)
  refine List.pairwise_map.mpr ((foldr_insertDeparture_sorted departing).imp_of_mem fun {x y} hx hy hle => ?_)
  exact ⟨x.1, y.1, hentry x hx, hentry y hy, hle⟩

/-- A repeated run finds every trip of its window in the table. -/
theorem seed_again (h : tt.Sound) {runs : List SeedRun} {run : SeedRun} (hmem : run ∈ runs) (hrun : run.InCalendar)
    {added : List Trip} (hs : tt.Seeded (tt.seedAll runs ++ added)) (hall : ∀ t ∈ added, t ∈ tt.seedAll runs ∨
      ∃ p ∈ tt.patterns, ∃ d, p.RunsOn d ∧ run.Covers d ∧ t = tt.materialize p (isoformat d)) : added = [] := by
  obtain ⟨-, hstored⟩ := seedAll_spec h runs
  refine List.eq_nil_iff_forall_not_mem.mpr fun t ht => ?_
  have hold : t ∈ tt.seedAll runs := by
    rcases hall t ht with hold | ⟨p, hp, d, hruns, hcov, rfl⟩
    · exact hold
    · exact (hstored _).mpr ⟨p, hp, d, ⟨hruns, run, hmem, hrun, hcov⟩, rfl⟩
  have hkeyed := hs.keyed
  rw [Keyed, List.map_append] at hkeyed
  exact (List.nodup_append.mp hkeyed).2.2 _ (List.mem_map_of_mem hold) _ (List.mem_map_of_mem ht) rfl

end Timetable

/-- **Seeding and searching agree on the calendar.** After any seed runs the table holds one trip for each
    pattern and each date that a run covers and the pattern runs on, and nothing else. The next run returns
    the number of trips it adds, none if it repeats an earlier one, and raises exactly when its window is not
    one of dates. On every date that the booking window of a run accepts, the search finds the trips of the
    patterns that run, in order of departure. -/
theorem calendar_agrees (tt : Timetable) (h : tt.Sound) (runs : List SeedRun) :
    ((tt.seedAll runs).map Trip.tripId).Nodup ∧
      (∀ t, t ∈ tt.seedAll runs ↔ ∃ p ∈ tt.patterns, ∃ d, (p.RunsOn d ∧ ∃ run ∈ runs, run.InCalendar ∧ run.Covers d) ∧
        t = tt.materialize p (isoformat d)) ∧
      (∀ run : SeedRun, (run.InCalendar → ∃ added,
          tt.seed run (tt.seedAll runs) = .ok (added.length, tt.seedAll runs ++ added) ∧ (run ∈ runs → added = [])) ∧
        (¬ run.InCalendar → tt.patterns ≠ [] → ∃ e, tt.seed run (tt.seedAll runs) = .error e)) ∧
      ∀ run ∈ runs, run.InCalendar → ∀ d : Date,
        withinWindow (isoformat d) run.today run.bookingWindowDays = .ok true →
          (Server.tripsOn (tt.seedAll runs) (isoformat d)).Perm (tt.running d) ∧
            (Server.tripsOn (tt.seedAll runs) (isoformat d)).Pairwise DepartsNoLater := by
  obtain ⟨hs, hmem⟩ := Timetable.seedAll_spec h runs
  refine ⟨hs.keyed, hmem, fun run => ⟨fun hrun => ?_, fun hrun hpatterns => ?_⟩, fun run hr hrun d hd => ?_⟩
  · obtain ⟨added, hadded, hseeded, hall⟩ := Timetable.seed_ok h hrun hs
    exact ⟨added, hadded, fun hr => Timetable.seed_again h hr hrun hseeded fun t ht =>
      (hall t).mp (List.mem_append.mpr (Or.inr ht))⟩
  · exact Timetable.seed_error hrun hpatterns _
  · obtain ⟨first, hfirst, -⟩ := hrun.2
    exact Timetable.tripsOn_seeded h hr hrun ⟨first, hfirst, (withinWindow_isoformat hfirst).mp hd⟩

/-! ## A sample timetable -/

/-- A daily train on the sample line. -/
def sampleTimetable : Timetable :=
  { routeCode := "MAIN"
    stations := sampleStations
    patterns := [{ code := "slow", trainNo := "1005", name := "Podi Menike", daysOfWeek := {0, 1, 2, 3, 4, 5, 6}
                   stops := [originStop, middleStop, terminusStop]
                   coaches := sampleCoaches, seats := sampleSeats }] }

theorem sampleTimetable_sound : sampleTimetable.Sound where
  codes := by decide
  departs p hp := by
    obtain rfl := List.mem_singleton.mp hp
    exact ⟨_, List.mem_cons_self, by decide⟩

/-- 29 February 2024. -/
def leapDay : Date := ⟨738945, by decide, by decide⟩

theorem calendar_agrees_sample :
    (Server.tripsOn (sampleTimetable.seedAll [⟨"2024-02-28", 2⟩]) (isoformat leapDay)).Perm
        (sampleTimetable.running leapDay) ∧
      (sampleTimetable.running leapDay).length = 1 :=
  have hrun : (⟨"2024-02-28", 2⟩ : SeedRun).InCalendar :=
    ⟨by decide, ⟨738944, by decide, by decide⟩, by decide +kernel, by decide⟩
  ⟨((calendar_agrees sampleTimetable sampleTimetable_sound [⟨"2024-02-28", 2⟩]).2.2.2 _ List.mem_cons_self hrun
    leapDay (by decide +kernel)).1, by decide +kernel⟩

/-- A window past the last date seeds nothing, not even the date itself; and a date in another spelling that the
    booking window accepts finds no trips. -/
theorem seeding_misses_a_date :
    (∃ e, sampleTimetable.seed ⟨"9999-12-31", 2⟩ [] = .error e) ∧
      withinWindow "9999-12-31" "9999-12-31" 2 = .ok true ∧
      Server.tripsOn (sampleTimetable.seedAll [⟨"9999-12-31", 2⟩]) "9999-12-31" = [] ∧
      withinWindow "20240228" "2024-02-28" 2 = .ok true ∧
      Server.tripsOn (sampleTimetable.seedAll [⟨"2024-02-28", 2⟩]) "20240228" = [] :=
  ⟨⟨.overflowError "date value out of range", by decide +kernel⟩, by decide +kernel, by decide +kernel,
    by decide +kernel, by decide +kernel⟩

end SlrBooking
