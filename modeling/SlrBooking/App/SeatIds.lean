import SlrBooking.App.TimetableConfig

/-!
# `App.SeatIds` — which seats of a train share an id

A seat id is the coach's code, the row number and the column letter with nothing between them. The letter is one
character and the row is printed without a leading zero, so within a coach an id names one seat. Between two coaches
the code of one may swallow the first digits of the other's row number.

## Contents
- `toList_seatId`, `mem_seatIds`: the ids of a coach. `seatIds_nodup`: no two seats of a coach share one.
- `Coach.Clashes`: the two coaches whose ids meet. `shared_seatId_iff`.
- `seat_ids_distinct_iff`: **the ids of a train are distinct exactly when no two of its coaches clash.**
-/

namespace SlrBooking

open Theory

/-- The ids of the coach's seats. -/
def Coach.seatIds (coach : Coach) : List String := (coach.seats coach.letters).map Seat.seatId

theorem mem_rowNumbers {rows row : Int} : row ∈ rowNumbers rows ↔ 1 ≤ row ∧ row ≤ rows := by
  unfold rowNumbers
  rw [List.mem_map]
  constructor
  · rintro ⟨i, hi, rfl⟩
    have hlt := List.mem_range.mp hi
    omega
  · rintro ⟨hlow, hhigh⟩
    exact ⟨(row - 1).toNat, List.mem_range.mpr (by omega), by omega⟩

theorem rowNumbers_nodup (rows : Int) : (rowNumbers rows).Nodup := by
  apply List.Nodup.map _ List.nodup_range
  intro i j h
  dsimp only at h
  omega

/-- A seat id spelled out. -/
theorem toList_seatId {coach : Coach} {width : Nat} {row : Int} {letter : String} {index : Nat} (hrow : 1 ≤ row) :
    (coach.seat width row letter index).seatId.toList =
      coach.code.toList ++ Nat.toDigits 10 row.toNat ++ letter.toList := by
  obtain ⟨n, rfl⟩ := Int.eq_ofNat_of_zero_le (show 0 ≤ row by omega)
  simp [Coach.seat, toString, Int.repr]

/-- The columns are labelled by single characters, all different. -/
theorem columnLetters_single {letter : String} (h : letter ∈ columnLetters) : ∃ c, letter.toList = [c] := by
  have hlen : ∀ l ∈ columnLetters, l.toList.length = 1 := by decide
  exact List.length_eq_one_iff.mp (hlen letter h)

theorem Coach.letters_nodup (coach : Coach) : coach.letters.Nodup :=
  coach.letters_prefix.sublist.nodup (by decide)

theorem Coach.mem_letters {coach : Coach} {letter : String} (h : letter ∈ coach.letters) : letter ∈ columnLetters :=
  coach.letters_prefix.subset h

/-- Every row that has a seat has one in column A. -/
theorem Coach.first_letter {coach : Coach} (h : coach.letters ≠ []) : "A" ∈ coach.letters := by
  obtain ⟨rest, hrest⟩ := coach.letters_prefix
  cases hletters : coach.letters with
  | nil => exact absurd hletters h
  | cons letter letters =>
      rw [hletters] at hrest
      rw [(List.cons.inj hrest).1]
      exact List.mem_cons_self

theorem Coach.mem_seats {coach : Coach} {seat : Seat} : seat ∈ coach.seats coach.letters ↔
    ∃ row letter index, (1 ≤ row ∧ row ≤ coach.rows) ∧ coach.letters[index]? = some letter ∧
      coach.seat coach.letters.length row letter index = seat := by
  unfold Coach.seats Coach.rowSeats
  simp only [List.mem_flatMap, mem_rowNumbers, List.mem_map, Prod.exists, List.mem_zipIdx_iff_getElem?]
  constructor
  · rintro ⟨row, hrow, letter, index, hletter, rfl⟩
    exact ⟨row, letter, index, hrow, hletter, rfl⟩
  · rintro ⟨row, letter, index, hrow, hletter, rfl⟩
    exact ⟨row, hrow, letter, index, hletter, rfl⟩

/-- **Within a coach**, row and column can be read off the id. -/
theorem seatId_row_letter {coach : Coach} {w w' : Nat} {row row' : Int} {letter letter' : String} {i i' : Nat}
    (hrow : 1 ≤ row) (hrow' : 1 ≤ row') (hl : letter ∈ columnLetters) (hl' : letter' ∈ columnLetters)
    (h : (coach.seat w row letter i).seatId = (coach.seat w' row' letter' i').seatId) :
    row = row' ∧ letter = letter' := by
  have hchars := congrArg String.toList h
  rw [toList_seatId hrow, toList_seatId hrow'] at hchars
  obtain ⟨c, hc⟩ := columnLetters_single hl
  obtain ⟨c', hc'⟩ := columnLetters_single hl'
  have hlen : letter.toList.length = letter'.toList.length := by
    rw [hc, hc']
    rfl
  obtain ⟨hfront, hback⟩ := List.append_inj' hchars hlen
  have hdigits := List.append_cancel_left hfront
  have hnat := Decimal.toDigits_inj hdigits
  exact ⟨by omega, String.toList_inj.mp hback⟩

/-- **No two seats of a coach share an id.** -/
theorem Coach.seatIds_nodup (coach : Coach) : coach.seatIds.Nodup := by
  unfold Coach.seatIds Coach.seats Coach.rowSeats
  rw [List.map_flatMap, List.nodup_flatMap]
  constructor
  · -- One row: the letters differ.
    intro row hrow
    have hlow := (mem_rowNumbers.mp hrow).1
    rw [List.map_map]
    apply List.Nodup.map_on _ (List.Nodup.of_map Prod.fst _)
    · rintro ⟨l, i⟩ hl ⟨l', i'⟩ hl' h
      have hmem := List.mem_zipIdx_iff_getElem?.mp hl
      have hmem' := List.mem_zipIdx_iff_getElem?.mp hl'
      have hsame := (seatId_row_letter hlow hlow (Coach.mem_letters (List.mem_of_getElem? hmem))
        (Coach.mem_letters (List.mem_of_getElem? hmem')) h).2
      dsimp only at hmem hmem' hsame
      subst hsame
      have hindex := (List.getElem?_inj (List.getElem?_eq_some_iff.mp hmem).1 coach.letters_nodup).mp
        (hmem.trans hmem'.symm)
      rw [hindex]
    · rw [List.zipIdx_map_fst]
      exact coach.letters_nodup
  · -- Two rows: the row numbers differ.
    refine (rowNumbers_nodup coach.rows).imp_of_mem fun {row row'} hrow hrow' hne id hid hid' => ?_
    obtain ⟨seat, hseat, rfl⟩ := List.mem_map.mp hid
    obtain ⟨⟨l, i⟩, hl, rfl⟩ := List.mem_map.mp hseat
    obtain ⟨seat', hseat', hsame⟩ := List.mem_map.mp hid'
    obtain ⟨⟨l', i'⟩, hl', rfl⟩ := List.mem_map.mp hseat'
    exact hne (seatId_row_letter (mem_rowNumbers.mp hrow).1 (mem_rowNumbers.mp hrow').1
      (Coach.mem_letters (List.mem_of_getElem? (List.mem_zipIdx_iff_getElem?.mp hl)))
      (Coach.mem_letters (List.mem_of_getElem? (List.mem_zipIdx_iff_getElem?.mp hl'))) hsame.symm).1

/-! ## Two coaches -/

theorem Coach.mem_seatIds {coach : Coach} {id : String} : id ∈ coach.seatIds ↔
    ∃ n : Nat, (1 ≤ n ∧ (n : Int) ≤ coach.rows) ∧ ∃ letter ∈ coach.letters,
      id.toList = coach.code.toList ++ Nat.toDigits 10 n ++ letter.toList := by
  unfold Coach.seatIds
  rw [List.mem_map]
  constructor
  · rintro ⟨seat, hseat, rfl⟩
    obtain ⟨row, letter, index, hrow, hletter, rfl⟩ := Coach.mem_seats.mp hseat
    exact ⟨row.toNat, by omega, letter, List.mem_of_getElem? hletter, toList_seatId hrow.1⟩
  · rintro ⟨n, hn, letter, hletter, hid⟩
    obtain ⟨index, hindex⟩ := List.mem_iff_getElem?.mp hletter
    have hrow : (1 : Int) ≤ n := by omega
    refine ⟨coach.seat coach.letters.length n letter index,
      Coach.mem_seats.mpr ⟨n, letter, index, ⟨hrow, hn.2⟩, hindex, rfl⟩, String.toList_inj.mp ?_⟩
    rw [toList_seatId hrow, hid, Int.toNat_natCast]

/-- The code of `b` is that of `a` with a number `k` behind it, and `a` reaches row `10 k + 1`: the digits of that row
    are those of `k` followed by the row 1 of `b`. Both coaches have seats. -/
def Coach.Clashes (a b : Coach) : Prop :=
  ∃ k : Nat, 1 ≤ k ∧ b.code = a.code ++ toString k ∧ (10 * k + 1 : Int) ≤ a.rows ∧ 1 ≤ b.rows ∧
    a.letters ≠ [] ∧ b.letters ≠ []

/-- The longer of the two codes swallows the first digits of the other's row number. -/
theorem Coach.Clashes.of_swallowed {a b : Coach} {m n : Nat} {front : List Char} (hne : a.code ≠ b.code)
    (hcode : b.code.toList = a.code.toList ++ front) (hdigits : Nat.toDigits 10 m = front ++ Nat.toDigits 10 n)
    (hm : (m : Int) ≤ a.rows) (hn : 1 ≤ n ∧ (n : Int) ≤ b.rows) (ha : a.letters ≠ []) (hb : b.letters ≠ []) :
    a.Clashes b := by
  have hfront : front ≠ [] := by
    rintro rfl
    rw [List.append_nil] at hcode
    exact hne (String.toList_inj.mp hcode.symm)
  obtain ⟨k, hk, rfl, hreach⟩ := Decimal.toDigits_eq_append hdigits hfront hn.1
  refine ⟨k, hk, String.toList_inj.mp ?_, by omega, by omega, ha, hb⟩
  simpa using hcode

/-- Row `10 k + 1` of the one coach meets row 1 of the other in column A. -/
theorem Coach.Clashes.shared {a b : Coach} (h : a.Clashes b) : ∃ id, id ∈ a.seatIds ∧ id ∈ b.seatIds := by
  obtain ⟨k, hk, hcode, hreach, hrows, ha, hb⟩ := h
  have hdigits : Nat.toDigits 10 (10 * k + 1) = Nat.toDigits 10 k ++ Nat.toDigits 10 1 :=
    (Nat.toDigits_append_toDigits (by decide) hk (by decide)).symm
  refine ⟨String.ofList (a.code.toList ++ Nat.toDigits 10 (10 * k + 1) ++ "A".toList), ?_, ?_⟩
  · exact Coach.mem_seatIds.mpr ⟨10 * k + 1, ⟨by omega, by omega⟩, "A", Coach.first_letter ha, String.toList_ofList⟩
  · refine Coach.mem_seatIds.mpr ⟨1, ⟨by omega, by omega⟩, "A", Coach.first_letter hb, ?_⟩
    have hprinted : (toString k).toList = Nat.toDigits 10 k := by simp
    rw [String.toList_ofList, hcode, String.toList_append, hprinted, hdigits]
    simp only [List.append_assoc]

/-- **When two coaches share an id.** -/
theorem shared_seatId_iff {a b : Coach} (hne : a.code ≠ b.code) :
    (∃ id, id ∈ a.seatIds ∧ id ∈ b.seatIds) ↔ a.Clashes b ∨ b.Clashes a := by
  constructor
  · rintro ⟨id, ha, hb⟩
    obtain ⟨m, hm, l, hl, hid⟩ := Coach.mem_seatIds.mp ha
    obtain ⟨n, hn, l', hl', hid'⟩ := Coach.mem_seatIds.mp hb
    obtain ⟨c, hc⟩ := columnLetters_single (Coach.mem_letters hl)
    obtain ⟨c', hc'⟩ := columnLetters_single (Coach.mem_letters hl')
    rw [hid, hc, hc'] at hid'
    have hfronts := (List.append_inj' hid' rfl).1
    -- One code is the other with something behind it.
    rcases List.append_eq_append_iff.mp hfronts with ⟨front, hcode, hdigits⟩ | ⟨front, hcode, hdigits⟩
    · left
      exact Coach.Clashes.of_swallowed hne hcode hdigits hm.2 hn (List.ne_nil_of_mem hl) (List.ne_nil_of_mem hl')
    · right
      exact Coach.Clashes.of_swallowed hne.symm hcode hdigits hn.2 hm (List.ne_nil_of_mem hl') (List.ne_nil_of_mem hl)
  · rintro (h | h)
    · exact h.shared
    · obtain ⟨id, hb, ha⟩ := h.shared
      exact ⟨id, ha, hb⟩

/-- No coach clashes with itself: a number has at least one digit. -/
theorem Coach.not_clashes_self (a : Coach) : ¬ a.Clashes a := by
  rintro ⟨k, -, hcode, -⟩
  have hchars := congrArg String.toList hcode
  rw [String.toList_append, List.self_eq_append_right] at hchars
  simp at hchars

/-! ## A train -/

theorem seatIds_flatMap (coaches : List Coach) : ((coaches.flatMap fun c => c.seats c.letters).map Seat.seatId) =
    coaches.flatMap Coach.seatIds := by
  rw [List.map_flatMap]
  rfl

/-- **The ids of a train are distinct exactly when no two of its coaches clash**, whatever the config file. -/
theorem seat_ids_distinct_iff {file : TimetableFile} {tt : Timetable} (hload : loadTimetable file = .ok tt)
    {pattern : ServicePattern} (hpattern : pattern ∈ tt.patterns) (hcodes : (pattern.coaches.map Coach.code).Nodup)
    (serviceDate : String) : ((tt.materialize pattern serviceDate).seats.map Seat.seatId).Nodup ↔
      ∀ a ∈ pattern.coaches, ∀ b ∈ pattern.coaches, ¬ a.Clashes b := by
  have hseats : (tt.materialize pattern serviceDate).seats = pattern.coaches.flatMap fun c => c.seats c.letters :=
    loadTimetable_seats hload hpattern
  have hdistinct : pattern.coaches.Pairwise fun a b => a.code ≠ b.code := List.pairwise_map.mp hcodes
  rw [hseats, seatIds_flatMap, List.nodup_flatMap]
  constructor
  · rintro ⟨-, hdisjoint⟩ a ha b hb hclash
    have hsymm : Std.Symm (Function.onFun List.Disjoint Coach.seatIds) := ⟨fun _ _ h => h.symm⟩
    have hne : a ≠ b := by
      rintro rfl
      exact a.not_clashes_self hclash
    obtain ⟨id, hida, hidb⟩ := hclash.shared
    exact hdisjoint.forall ha hb hne hida hidb
  · intro hclear
    refine ⟨fun coach _ => coach.seatIds_nodup, hdistinct.imp_of_mem fun {a b} ha hb hne id hida hidb => ?_⟩
    rcases (shared_seatId_iff hne).mp ⟨id, hida, hidb⟩ with h | h
    · exact hclear a ha b hb h
    · exact hclear b hb a ha h

/-! ### A train with two clashing coaches -/

/-- A daily train on the sample line with these coaches. -/
def coachedTrain (layouts : List (String × Layout)) (coaches : List CoachSpec) : TimetableFile :=
  { routeCode := "MAIN"
    stations := [⟨"FOT", "Colombo Fort", 0⟩, ⟨"BAD", "Badulla", 290⟩]
    coachLayouts := layouts
    servicePatterns :=
      [{ code := "1005", trainNo := "1005", name := "Podi Menike"
         daysOfWeek := ["MON", "TUE", "WED", "THU", "FRI", "SAT", "SUN"], coaches := coaches
         stops := [⟨"FOT", none, some "05:55"⟩, ⟨"BAD", some "15:55", none⟩] }] }

/-- A pattern of the file that passes a check. -/
theorem loaded_of_any {file : TimetableFile} {check : Timetable → ServicePattern → Bool}
    (h : ((loadTimetable file).toOption.any fun tt => tt.patterns.any (check tt)) = true) :
    ∃ tt pattern, loadTimetable file = .ok tt ∧ pattern ∈ tt.patterns ∧ check tt pattern = true := by
  obtain ⟨tt, htt, hany⟩ := (Option.any_eq_true _ _).mp h
  obtain ⟨pattern, hpattern, hcheck⟩ := List.any_eq_true.mp hany
  cases hload : loadTimetable file with
  | error e =>
      rw [hload] at htt
      cases htt
  | ok loaded =>
      rw [hload] at htt
      obtain rfl := Option.some.inj htt
      exact ⟨_, pattern, rfl, hpattern, hcheck⟩

/-- The codes of the coaches differ, and so do (or do not) the ids of the seats on a day. -/
def idsCheck (distinct : Bool) (tt : Timetable) (pattern : ServicePattern) : Bool :=
  decide (pattern.coaches.map Coach.code).Nodup &&
    decide ((tt.materialize pattern "2024-05-01").seats.map Seat.seatId).Nodup == distinct

theorem seat_ids_distinct_iff_two_coaches : ∃ tt pattern,
    loadTimetable (coachedTrain [("saloon", ⟨"RESERVED", "FIRST", 2, "2-2", []⟩)] [⟨"A", "saloon"⟩, ⟨"B", "saloon"⟩]) =
        .ok tt ∧
      pattern ∈ tt.patterns ∧ ∀ a ∈ pattern.coaches, ∀ b ∈ pattern.coaches, ¬ a.Clashes b := by
  obtain ⟨tt, pattern, hload, hpattern, hcheck⟩ := @loaded_of_any
    (coachedTrain [("saloon", ⟨"RESERVED", "FIRST", 2, "2-2", []⟩)] [⟨"A", "saloon"⟩, ⟨"B", "saloon"⟩])
    (idsCheck true) (by decide +kernel)
  have hchecks : (pattern.coaches.map Coach.code).Nodup ∧
      ((tt.materialize pattern "2024-05-01").seats.map Seat.seatId).Nodup := by
    simpa [idsCheck] using hcheck
  exact ⟨tt, pattern, hload, hpattern, (seat_ids_distinct_iff hload hpattern hchecks.1 "2024-05-01").mp hchecks.2⟩

/-- A coach `A` of eleven rows and a coach `A1`. -/
def clashingFile : TimetableFile :=
  coachedTrain [("long", ⟨"RESERVED", "FIRST", 11, "2-2", []⟩), ("short", ⟨"RESERVED", "SECOND", 1, "1-0", []⟩)]
    [⟨"A", "long"⟩, ⟨"A1", "short"⟩]

/-- Seat A of row 11 of coach `A` and seat A of row 1 of coach `A1` are both `A11A`. -/
theorem two_seats_named_a11a : ∃ tt pattern, loadTimetable clashingFile = .ok tt ∧ pattern ∈ tt.patterns ∧
    (pattern.coaches.map Coach.code).Nodup ∧
      ¬ ((tt.materialize pattern "2024-05-01").seats.map Seat.seatId).Nodup := by
  obtain ⟨tt, pattern, hload, hpattern, hcheck⟩ := @loaded_of_any clashingFile (idsCheck false) (by decide +kernel)
  have hchecks : (pattern.coaches.map Coach.code).Nodup ∧
      ¬ ((tt.materialize pattern "2024-05-01").seats.map Seat.seatId).Nodup := by
    simpa [idsCheck] using hcheck
  exact ⟨tt, pattern, hload, hpattern, hchecks⟩

end SlrBooking
