import SlrBooking.App.SeatIds
import SlrBooking.Usecases.Search

/-!
# `Web.SeatMap` — the seat-map grid

A trip's coach geometry, the availability of a leg and the selection become rows of a left block and a right block
of cells. The backend sums all the blocks of a columns pattern, the map draws the first two.

## Contents
- `parseInt`, `blockSizes`, `toCell`, `buildCoachGrid`, `buildSeatMap`.
- `Plain`; `blockSize_spec`: one block, read by `int` and by `parseInt`.
- `DrawnWhole`; `drawn_iff`, `drawn_blocks`: one pattern, read by the backend and by the map.
- `buildRow_cells`: what the map draws of a row. `buildSeatMap_coaches`: a train's coaches are drawn one by one.
  `Shows`: what it should show.
- `seat_map_shows_iff`: **the map shows exactly the coaches whose pattern is drawn whole.**
-/

namespace SlrBooking

open Theory Numerals

namespace SeatMap

inductive SeatStatus where
  | free | taken | selected | unreserved | unknown
deriving DecidableEq

/-- `STATUS_LABEL`. -/
def SeatStatus.label : SeatStatus → String
  | .free => "available"
  | .taken => "booked"
  | .selected => "selected"
  | .unreserved => "unreserved (assigned at counter)"
  | .unknown => "availability not loaded"

def classLabel : TravelClass → String
  | .first => "1st class"
  | .second => "2nd class"
  | .third => "3rd class"

/-! ## Columns -/

/-- The code points `parseInt` skips in front of a number. -/
def skipped : List Nat :=
  [0x9, 0xA, 0xB, 0xC, 0xD, 0x20, 0xA0, 0x1680, 0x2000, 0x2001, 0x2002, 0x2003, 0x2004, 0x2005, 0x2006, 0x2007,
   0x2008, 0x2009, 0x200A, 0x2028, 0x2029, 0x202F, 0x205F, 0x3000, 0xFEFF]

def isSkipped (c : Char) : Bool := c.toNat ∈ skipped

/-- `parseInt(text, 10)`: the ASCII digits in front, `none` for `NaN`. -/
def parseInt (text : String) : Option Int :=
  let (sign, cs) := signed (text.toList.dropWhile isSkipped)
  match cs.takeWhile Char.isDigit with
  | [] => none
  | ds => some (sign * Nat.ofDigitChars 10 ds 0)

/-- `Math.max(0, parseInt(part, 10) || 0)`. -/
def blockSize (part : String) : Nat := ((parseInt part).getD 0).toNat

/-- `"3-3"` to `[3, 3]`; `"1-0"` stands in for an empty pattern. -/
def blockSizes (columns : String) : List Nat :=
  (splitOn '-' (if columns = "" then "1-0" else columns)).map blockSize

/-! ## Cells -/

/-- What a cell's status is read from. -/
structure Context where
  free            : List String
  selectedSeatIds : List String
  hasAvailability : Bool

def seatStatus (ctx : Context) (seat : Seat) : SeatStatus :=
  if seat.coachType = .unreserved then .unreserved
  else if seat.seatId ∈ ctx.selectedSeatIds then .selected
  else if ctx.hasAvailability = false then .unknown
  else if seat.seatId ∈ ctx.free then .free else .taken

structure Cell where
  id         : String
  number     : Int
  row        : Int
  column     : String
  status     : SeatStatus
  selectable : Bool
  label      : String
deriving DecidableEq

def toCell (ctx : Context) (seat : Seat) : Cell :=
  let status := seatStatus ctx seat
  { id := seat.seatId
    number := seat.number
    row := seat.row
    column := seat.column
    status := status
    selectable := status = .free || status = .selected
    label := s!"Seat {seat.row}{seat.column}, {classLabel seat.travelClass}, {status.label}" }

/-! ## Grids -/

structure GridRow where
  row       : Int
  left      : List Cell
  right     : List Cell
  exitAfter : Bool
deriving DecidableEq

structure CoachGrid where
  code              : String
  coachType         : CoachType
  travelClass       : TravelClass
  rows              : List GridRow
  reservedTotal     : Nat
  reservedFreeCount : Nat
deriving DecidableEq

/-- `a.column.localeCompare(b.column) <= 0`, on the single capitals that label columns. -/
def columnLe (a b : Seat) : Bool := a.column ≤ b.column

/-- `rowSeats.slice(leftCount, leftCount + rightCount)`: of a pattern without a second block nothing is left. -/
def sliceRight (rowSeats : List Seat) (leftCount : Nat) : Option Nat → List Seat
  | some rightCount => (rowSeats.drop leftCount).take rightCount
  | none => []

def buildRow (ctx : Context) (coach : Coach) (seats : List Seat) (row : Int) : GridRow :=
  let sizes := blockSizes coach.columns
  let rowSeats := (seats.filter fun s => s.row = row).insertionSort fun a b => columnLe a b
  let leftCount := sizes.headD 0
  { row := row
    left := (rowSeats.take leftCount).map (toCell ctx)
    right := (sliceRight rowSeats leftCount sizes[1]?).map (toCell ctx)
    exitAfter := row ∈ coach.exitRows }

def buildCoachGrid (ctx : Context) (coach : Coach) (seats : List Seat) : CoachGrid :=
  let reservedSeats := seats.filter fun s => s.coachType = .reserved
  { code := coach.code
    coachType := coach.coachType
    travelClass := coach.travelClass
    rows := (rowNumbers coach.rows).map (buildRow ctx coach seats)
    reservedTotal := reservedSeats.length
    reservedFreeCount :=
      if ctx.hasAvailability then (reservedSeats.filter fun s => s.seatId ∈ ctx.free).length else 0 }

/-- The map of a trip. -/
structure Grids where
  coaches           : List CoachGrid
  reservedTotal     : Nat
  reservedFreeCount : Nat
  hasUnreserved     : Bool
deriving DecidableEq

def freeSeatIds (availability : Option LegAvailability) : List String :=
  ((availability.elim [] (·.seats)).filter (·.available)).map (·.seatId)

def context (availability : Option LegAvailability) (selectedSeatIds : List String) : Context :=
  { free := freeSeatIds availability
    selectedSeatIds := selectedSeatIds
    hasAvailability := availability.isSome }

/-- Of the trip only its coaches and its seats are read. -/
def buildSeatMap (coaches : List Coach) (seats : List Seat) (availability : Option LegAvailability)
    (selectedSeatIds : List String) : Grids :=
  let ctx := context availability selectedSeatIds
  let grids := coaches.map fun coach => buildCoachGrid ctx coach (seats.filter fun s => s.coach = coach.code)
  { coaches := grids
    reservedTotal := (grids.map (·.reservedTotal)).sum
    reservedFreeCount := (grids.map (·.reservedFreeCount)).sum
    hasUnreserved := coaches.any fun c => c.coachType = .unreserved }

/-! ## One block, read twice -/

/-- The block is written in ASCII digits without underscores, and no U+0085 stands among the spaces before it:
    `int` reads through these, `parseInt` stops at them. -/
def Plain (part : String) : Prop :=
  (∀ c ∈ part.toList, c ≠ '_' ∧ (decimal c = none ∨ c.isDigit = true)) ∧
    ∀ c ∈ part.toList.takeWhile isIntSpace, c.toNat ≠ 0x85

instance (part : String) : Decidable (Plain part) := inferInstanceAs (Decidable (_ ∧ _))

theorem skipped_of_space {c : Char} (h : isIntSpace c = true) (hnel : c.toNat ≠ 0x85) : isSkipped c = true := by
  have hall : ∀ n ∈ spaces, n ∉ [0x1C, 0x1D, 0x1E, 0x1F] → n ≠ 0x85 → n ∈ skipped := by decide
  simp only [isIntSpace, isSpace, Bool.and_eq_true, decide_eq_true_eq, Bool.not_eq_true', decide_eq_false_iff_not] at h
  exact decide_eq_true (hall c.toNat h.1 h.2 hnel)

theorem decimal_of_skipped {c : Char} (h : isSkipped c = true) : decimal c = none := by
  have hnone : ∀ n ∈ skipped, (decimalZeros.find? fun start => start ≤ n ∧ n < start + 10) = none := by
    decide +kernel
  unfold decimal
  rw [hnone c.toNat (of_decide_eq_true h), Option.map_none]

theorem not_digit_of_decimal {c : Char} (h : decimal c = none) : c.isDigit = false := by
  cases hdigit : c.isDigit with
  | false => rfl
  | true =>
      rw [decimal_of_isDigit hdigit] at h
      cases h

theorem signed_of_ne {c : Char} {cs : List Char} (hplus : c ≠ '+') (hminus : c ≠ '-') :
    signed (c :: cs) = (1, c :: cs) := by
  unfold signed
  split
  · rename_i heq
    exact absurd (List.cons.inj heq).1 hplus
  · rename_i heq
    exact absurd (List.cons.inj heq).1 hminus
  · rfl

/-- `parseInt` takes a front of the digits: all of them when they are plain. -/
theorem takeWhile_digits {cs after : List Char} {ds : List Nat} (h : Grouped cs ds)
    (hafter : ∀ c ∈ after, isIntSpace c = true) : ∃ rest,
      ds = ((cs ++ after).takeWhile Char.isDigit).map (fun c => c.toNat - 0x30) ++ rest ∧
        (rest = [] ↔ ∀ c ∈ cs, c ≠ '_' ∧ (decimal c = none ∨ c.isDigit = true)) := by
  induction h with
  | nil =>
      refine ⟨[], ?_, by simp⟩
      cases after with
      | nil => rfl
      | cons c after =>
          have hspace := isSpace_of_int (hafter c List.mem_cons_self)
          have hno := not_digit_of_decimal (decimal_of_space hspace)
          simp [hno]
  | @digit c d cs ds hd hds ih =>
      obtain ⟨rest, htaken, hrest⟩ := ih
      cases hdigit : c.isDigit with
      | true =>
          have hvalue := decimal_of_isDigit hdigit
          rw [hd] at hvalue
          have hunderscore : c ≠ '_' := by
            rintro rfl
            exact absurd hdigit (by decide)
          refine ⟨rest, ?_, ?_⟩
          · rw [List.cons_append, List.takeWhile_cons, if_pos hdigit, List.map_cons, List.cons_append, ← htaken,
              Option.some.inj hvalue]
          · rw [hrest]
            simp [hunderscore, hdigit]
      | false =>
          refine ⟨d :: ds, ?_, ?_⟩
          · simp [hdigit]
          · simp [hd, hdigit]
  | @underscore c d cs ds hd hds ih =>
      refine ⟨d :: ds, ?_, by simp⟩
      have hno : Char.isDigit '_' = false := by decide
      simp [hno]

/-! ### The size of a block

`parseInt` stops where the digits end and `int` refuses what stands there, so on what `int` accepts they read one
number. -/

theorem value_of_chars (cs : List Char) :
    Nat.ofDigitChars 10 cs 0 = Decimal.value (cs.map fun c => c.toNat - 0x30) := by
  rw [Nat.ofDigitChars_eq_foldl, Decimal.value, List.foldl_map]
  rfl

theorem blockSize_of_signed {part : String} {cs : List Char} (h : signed (part.toList.dropWhile isSkipped) = (1, cs)) :
    blockSize part = Decimal.value ((cs.takeWhile Char.isDigit).map fun c => c.toNat - 0x30) := by
  unfold blockSize parseInt
  rw [h, ← value_of_chars]
  dsimp only
  cases cs.takeWhile Char.isDigit with
  | nil => rfl
  | cons c digits => simp

/-- A U+0085 among the spaces stops `parseInt` before the number. -/
theorem dropWhile_stops {before : List Char} (tail : List Char) (hspaces : ∀ c ∈ before, isIntSpace c = true)
    (h : ∃ c ∈ before, c.toNat = 0x85) :
    ∃ c rest, (before ++ tail).dropWhile isSkipped = c :: rest ∧ isIntSpace c = true := by
  induction before with
  | nil =>
      obtain ⟨c, hc, -⟩ := h
      cases hc
  | cons b before ih =>
      rw [List.cons_append, List.dropWhile_cons]
      split
      · rename_i hskipped
        apply ih
        · intro c hc
          exact hspaces c (List.mem_cons_of_mem _ hc)
        · obtain ⟨c, hc, hnel⟩ := h
          rcases List.mem_cons.mp hc with rfl | hc
          · -- U+0085 itself is not skipped.
            have hno : 0x85 ∉ skipped := by decide
            exact absurd (hnel ▸ of_decide_eq_true hskipped) hno
          · exact ⟨c, hc, hnel⟩
      · exact ⟨b, before ++ tail, rfl, hspaces b List.mem_cons_self⟩

variable {part : String} {before plus body after : List Char} {ds : List Nat}

/-- What follows the spaces in front is a plus sign or a digit. -/
theorem number_head (h : Numeral part.toList before plus body after ds) : ∃ c rest,
    plus ++ (body ++ after) = c :: rest ∧ isIntSpace c = false ∧ isSkipped c = false := by
  rcases h.plus with rfl | rfl
  · obtain ⟨c, rest, rfl, hc⟩ := h.first
    refine ⟨c, rest ++ after, rfl, ?_, ?_⟩
    · rw [Bool.eq_false_iff]
      intro hspace
      rw [decimal_of_space (isSpace_of_int hspace)] at hc
      cases hc
    · rw [Bool.eq_false_iff]
      intro hskipped
      rw [decimal_of_skipped hskipped] at hc
      cases hc
  · exact ⟨'+', body ++ after, rfl, by decide, by decide⟩

theorem plain_iff (h : Numeral part.toList before plus body after ds) : Plain part ↔
    (∀ c ∈ body, c ≠ '_' ∧ (decimal c = none ∨ c.isDigit = true)) ∧ ∀ c ∈ before, c.toNat ≠ 0x85 := by
  have hspace : ∀ c, isIntSpace c = true → c ≠ '_' ∧ (decimal c = none ∨ c.isDigit = true) := by
    intro c hc
    refine ⟨?_, Or.inl (decimal_of_space (isSpace_of_int hc))⟩
    rintro rfl
    exact absurd hc (by decide)
  have hplus : ∀ c ∈ plus, c ≠ '_' ∧ (decimal c = none ∨ c.isDigit = true) := by
    intro c hc
    rcases h.plus with rfl | rfl
    · cases hc
    · obtain rfl := List.mem_singleton.mp hc
      exact ⟨by decide, Or.inl (by decide +kernel)⟩
  have hfront : part.toList.takeWhile isIntSpace = before := by
    obtain ⟨c, rest, htail, hc, -⟩ := number_head h
    rw [h.spelled, List.takeWhile_append_of_pos h.before, htail, List.takeWhile_cons, hc]
    simp
  unfold Plain
  rw [hfront, h.spelled]
  constructor
  · rintro ⟨hall, hbefore⟩
    refine ⟨fun c hc => hall c ?_, hbefore⟩
    exact List.mem_append_right _ (List.mem_append_right _ (List.mem_append_left _ hc))
  · rintro ⟨hbody, hbefore⟩
    refine ⟨fun c hc => ?_, hbefore⟩
    simp only [List.mem_append] at hc
    rcases hc with hc | hc | hc | hc
    · exact hspace c (h.before c hc)
    · exact hplus c hc
    · exact hbody c hc
    · exact hspace c (h.after c hc)

/-- **One block, read twice**: `parseInt` reads a front of the digits `int` reads, all of them when the block is
    plain. -/
theorem blockSize_of_numeral (h : Numeral part.toList before plus body after ds) :
    ∃ taken rest, ds = taken ++ rest ∧ blockSize part = Decimal.value taken ∧ (rest = [] ↔ Plain part) := by
  obtain ⟨c, tail, htail, hspace, hskipped⟩ := number_head h
  -- `int` strips a NEL character, `parseInt` does not
  by_cases hnel : ∃ c ∈ before, c.toNat = 0x85
  · -- nothing is read
    obtain ⟨b, rest, hrest, hb⟩ := dropWhile_stops (plus ++ (body ++ after)) h.before hnel
    have hsigned : signed (part.toList.dropWhile isSkipped) = (1, b :: rest) := by
      rw [h.spelled, hrest]
      apply signed_of_ne
      · rintro rfl
        exact absurd hb (by decide)
      · rintro rfl
        exact absurd hb (by decide)
    have hdigit := not_digit_of_decimal (decimal_of_space (isSpace_of_int hb))
    refine ⟨[], ds, rfl, ?_, ?_⟩
    · rw [blockSize_of_signed hsigned, List.takeWhile_cons, hdigit]
      rfl
    · rw [plain_iff h]
      obtain ⟨c, rest, rfl, -⟩ := h.first
      constructor
      · rintro rfl
        cases h.digits
      · rintro ⟨-, hbefore⟩
        obtain ⟨c, hc, hvalue⟩ := hnel
        exact absurd hvalue (hbefore c hc)
  · have hbefore : ∀ c ∈ before, c.toNat ≠ 0x85 := by
      intro c hc hvalue
      exact hnel ⟨c, hc, hvalue⟩
    have hdrop : part.toList.dropWhile isSkipped = plus ++ (body ++ after) := by
      rw [h.spelled, List.dropWhile_append_of_pos fun c hc => skipped_of_space (h.before c hc) (hbefore c hc), htail,
        List.dropWhile_cons, hskipped]
      simp
    have hsigned : signed (part.toList.dropWhile isSkipped) = (1, body ++ after) := by
      rw [hdrop]
      rcases h.plus with rfl | rfl
      · obtain ⟨c, rest, rfl, hc⟩ := h.first
        apply signed_of_ne
        · rintro rfl
          exact absurd hc (by decide +kernel)
        · rintro rfl
          exact absurd hc (by decide +kernel)
      · rfl
    obtain ⟨rest, hds, hrest⟩ := takeWhile_digits h.digits h.after
    refine ⟨_, rest, hds, blockSize_of_signed hsigned, ?_⟩
    rw [hrest, plain_iff h]
    exact (and_iff_left hbefore).symm

/-- The map never reads a block wider than the backend; of a block of one digit it reads all or nothing. -/
theorem blockSize_spec {n : Int} (h : int part = .ok n) (hminus : '-' ∉ part.toList) :
    0 ≤ n ∧ (blockSize part : Int) ≤ n ∧ (n ≤ 9 → ((blockSize part : Int) = n ↔ n = 0 ∨ Plain part)) := by
  obtain ⟨before, plus, body, after, ds, hnumeral, rfl⟩ := int_ok h hminus
  obtain ⟨taken, rest, rfl, hsize, hplain⟩ := blockSize_of_numeral hnumeral
  have hle := Decimal.value_le_of_prefix (List.prefix_append taken rest)
  rw [hsize]
  refine ⟨by omega, by omega, fun hone => ?_⟩
  rw [← hplain]
  constructor
  · intro heq
    by_cases hrest : rest = []
    · exact Or.inr hrest
    · have hten := Decimal.ten_mul_value_le taken rest hrest
      left
      omega
  · rintro (hzero | rfl)
    · omega
    · rw [List.append_nil]

/-! ## One pattern, read twice -/

/-- The blocks the backend reads from a pattern. -/
def declaredBlocks (columns : String) : List Nat :=
  ((blockWidths (splitOn '-' columns)).toOption.getD []).map Int.toNat

/-- Every block is 0, or one of the first two and plain. -/
def DrawnWhole (columns : String) : Prop :=
  ∀ (k : Nat) (part : String), (splitOn '-' columns)[k]? = some part → int part = .ok 0 ∨ k < 2 ∧ Plain part

/-- A block of `size` seats: the map reads at most as many, and as many exactly when it is 0 or plain. -/
structure Read (part : String) (size : Nat) : Prop where
  size_zero : int part = .ok 0 ↔ size = 0
  drawn_le  : blockSize part ≤ size
  drawn_eq  : blockSize part = size ↔ size = 0 ∨ Plain part

theorem blockWidths_nonneg {parts : List String} {widths : List Int} (h : blockWidths parts = .ok widths)
    (hminus : ∀ part ∈ parts, '-' ∉ part.toList) : 0 ≤ widths.sum := by
  induction parts generalizing widths with
  | nil =>
      cases h
      rfl
  | cons part parts ih =>
      obtain ⟨width, hwidth, h⟩ := bind_ok h
      obtain ⟨rest, hrest, h⟩ := bind_ok h
      cases h
      have hpos := (blockSize_spec hwidth (hminus part List.mem_cons_self)).1
      have hsum := ih hrest fun part hpart => hminus part (List.mem_cons_of_mem _ hpart)
      rw [List.sum_cons]
      omega

theorem blockWidths_read {parts : List String} {widths : List Int} (h : blockWidths parts = .ok widths)
    (hminus : ∀ part ∈ parts, '-' ∉ part.toList) (htotal : widths.sum ≤ 8) :
    List.Forall₂ Read parts (widths.map Int.toNat) ∧ widths.sum = (widths.map Int.toNat).sum := by
  induction parts generalizing widths with
  | nil =>
      cases h
      exact ⟨.nil, rfl⟩
  | cons part parts ih =>
      obtain ⟨width, hwidth, h⟩ := bind_ok h
      obtain ⟨rest, hrest, h⟩ := bind_ok h
      cases h
      have hminus' : ∀ part ∈ parts, '-' ∉ part.toList := fun part hpart => hminus part (List.mem_cons_of_mem _ hpart)
      obtain ⟨hnonneg, hle, heq⟩ := blockSize_spec hwidth (hminus part List.mem_cons_self)
      have hsum := blockWidths_nonneg hrest hminus'
      rw [List.sum_cons] at htotal
      have heq := heq (by omega)
      obtain ⟨hread, htotals⟩ := ih hrest hminus' (by omega)
      obtain ⟨size, rfl⟩ := Int.eq_ofNat_of_zero_le hnonneg
      refine ⟨.cons ⟨?_, by simpa using hle, ?_⟩ hread, ?_⟩
      · rw [hwidth]
        simp
      · simpa using heq
      · simp only [List.map_cons, List.sum_cons, Int.toNat_natCast, htotals]
        omega

/-- **What is read of an accepted pattern**, by the backend and by the map. -/
theorem columnLabels_read {columns : String} {letters : List String} (h : columnLabels columns = .ok letters) :
    List.Forall₂ Read (splitOn '-' columns) (declaredBlocks columns) ∧
      letters = columnLetters.take (declaredBlocks columns).sum ∧ letters.length = (declaredBlocks columns).sum := by
  obtain ⟨widths, hwidths, h⟩ := bind_ok h
  dsimp only at h
  split at h
  · cases h
  · rename_i hwide
    obtain rfl := Except.ok.inj h
    have hminus : ∀ part ∈ splitOn '-' columns, '-' ∉ part.toList := fun part hpart => splitOn_part hpart
    have hnonneg := blockWidths_nonneg hwidths hminus
    have htotal : widths.sum ≤ 8 := by
      have hlen : columnLetters.length = 8 := rfl
      omega
    obtain ⟨hread, hsum⟩ := blockWidths_read hwidths hminus htotal
    have hblocks : declaredBlocks columns = widths.map Int.toNat := by
      unfold declaredBlocks
      rw [hwidths]
      rfl
    have hslice : sliceTo columnLetters widths.sum = columnLetters.take (widths.map Int.toNat).sum := by
      rw [sliceTo, if_neg (by omega), hsum, Int.toNat_natCast]
    rw [hblocks, hslice]
    refine ⟨hread, rfl, ?_⟩
    have hlen : columnLetters.length = 8 := rfl
    rw [List.length_take]
    omega

/-- An empty pattern is not accepted, so the map reads the pattern itself. -/
theorem blockSizes_of_accepted {columns : String} {letters : List String} (h : columnLabels columns = .ok letters) :
    blockSizes columns = (splitOn '-' columns).map blockSize := by
  unfold blockSizes
  rw [if_neg]
  rintro rfl
  obtain ⟨widths, hwidths, -⟩ := bind_ok h
  have hempty : (blockWidths (splitOn '-' "")).toOption = none := by decide +kernel
  rw [hwidths] at hempty
  cases hempty

/-! ### The two blocks that are drawn -/

/-- How many seats of a row the map draws on the right. -/
def rightCount (columns : String) : Nat := ((blockSizes columns)[1]?).getD 0

def leftCount (columns : String) : Nat := (blockSizes columns).headD 0

theorem rest_drawn_iff {parts : List String} {sizes : List Nat} (h : List.Forall₂ Read parts sizes) :
    (∀ part ∈ parts, int part = .ok 0) ↔ ∀ size ∈ sizes, size = 0 := by
  induction h with
  | nil => simp
  | cons hread _ ih => simp only [List.forall_mem_cons, hread.size_zero, ih]

theorem Read.drawn_iff {part : String} {size : Nat} (h : Read part size) :
    int part = .ok 0 ∨ Plain part ↔ blockSize part = size := by
  rw [h.size_zero, h.drawn_eq]

theorem drawn_one (p : String) :
    (∀ (k : Nat) (part : String), [p][k]? = some part → int part = .ok 0 ∨ k < 2 ∧ Plain part) ↔
      int p = .ok 0 ∨ Plain p := by
  constructor
  · intro h
    simpa using h 0 p rfl
  · intro h k part hpart
    obtain ⟨rfl, rfl⟩ : k = 0 ∧ p = part := by simpa [List.getElem?_singleton] using hpart
    simpa using h

theorem drawn_more (p q : String) (qs : List String) :
    (∀ (k : Nat) (part : String), (p :: q :: qs)[k]? = some part → int part = .ok 0 ∨ k < 2 ∧ Plain part) ↔
      (int p = .ok 0 ∨ Plain p) ∧ (int q = .ok 0 ∨ Plain q) ∧ ∀ part ∈ qs, int part = .ok 0 := by
  constructor
  · intro h
    refine ⟨by simpa using h 0 p rfl, by simpa using h 1 q rfl, fun part hpart => ?_⟩
    obtain ⟨k, hk⟩ := List.mem_iff_getElem?.mp hpart
    have hlate := h (k + 2) part (by simpa using hk)
    simpa using hlate
  · rintro ⟨hp, hq, hqs⟩ k part hpart
    rcases k with _ | _ | k
    · obtain rfl : p = part := by simpa using hpart
      simpa using hp
    · obtain rfl : q = part := by simpa using hpart
      simpa using hq
    · left
      apply hqs
      exact List.mem_of_getElem? (show qs[k]? = some part by simpa using hpart)

/-- **The map draws all the seats of a row exactly when the pattern is drawn whole**; it then draws the blocks the
    pattern declares, and otherwise it leaves seats out. -/
theorem drawn_iff {columns : String} {letters : List String} (h : columnLabels columns = .ok letters) :
    leftCount columns + rightCount columns ≤ (declaredBlocks columns).sum ∧
      (leftCount columns + rightCount columns = (declaredBlocks columns).sum ↔ DrawnWhole columns) := by
  obtain ⟨hread, -, -⟩ := columnLabels_read h
  unfold leftCount rightCount DrawnWhole
  rw [blockSizes_of_accepted h]
  cases hparts : splitOn '-' columns with
  | nil => exact absurd hparts (splitOn_ne_nil '-' columns)
  | cons p ps =>
      rw [hparts] at hread
      generalize declaredBlocks columns = sizes at hread
      cases hread with
      | @cons _ n _ ns hp hps =>
          have hle := hp.drawn_le
          cases hps with
          | nil =>
              rw [drawn_one, hp.drawn_iff]
              simp
              omega
          | @cons q m qs ms hq hqs =>
              have hle' := hq.drawn_le
              have hzeros : (∀ size ∈ ms, size = 0) ↔ ms.sum = 0 := by
                rw [List.sum_eq_zero_iff]
              rw [drawn_more, hp.drawn_iff, hq.drawn_iff, rest_drawn_iff hqs, hzeros]
              simp
              omega

/-- The blocks of the declared sizes, cut from a row. -/
def inBlocks : List Nat → List String → List (List String)
  | [], _ => []
  | size :: sizes, letters => letters.take size :: inBlocks sizes (letters.drop size)

theorem inBlocks_empty {sizes : List Nat} (h : ∀ size ∈ sizes, size = 0) (letters : List String) (k : Nat) :
    ((inBlocks sizes letters)[k]?).getD [] = [] := by
  induction sizes generalizing letters k with
  | nil => simp [inBlocks]
  | cons size sizes ih =>
      obtain rfl := h size List.mem_cons_self
      cases k with
      | zero => simp [inBlocks]
      | succ k => simpa [inBlocks] using ih (fun size hsize => h size (List.mem_cons_of_mem _ hsize)) letters k

theorem counts_le {columns : String} {letters : List String} (h : columnLabels columns = .ok letters) :
    ∃ n ns, declaredBlocks columns = n :: ns ∧ leftCount columns ≤ n ∧ rightCount columns ≤ ns.headD 0 := by
  obtain ⟨hread, -, -⟩ := columnLabels_read h
  unfold leftCount rightCount
  rw [blockSizes_of_accepted h]
  cases hparts : splitOn '-' columns with
  | nil => exact absurd hparts (splitOn_ne_nil '-' columns)
  | cons p ps =>
      rw [hparts] at hread
      generalize declaredBlocks columns = sizes at hread
      cases hread with
      | @cons _ n _ ns hp hps =>
          refine ⟨n, ns, rfl, by simpa using hp.drawn_le, ?_⟩
          cases hps with
          | nil => simp
          | cons hq _ => simpa using hq.drawn_le

/-- A row drawn whole shows the declared blocks: the first on the left, the second on the right, no seat in the
    others. -/
theorem drawn_blocks {columns : String} {letters : List String} (h : columnLabels columns = .ok letters)
    (hwhole : leftCount columns + rightCount columns = (declaredBlocks columns).sum) (k : Nat) :
    ([letters.take (leftCount columns), (letters.drop (leftCount columns)).take (rightCount columns)][k]?).getD [] =
      ((inBlocks (declaredBlocks columns) letters)[k]?).getD [] := by
  obtain ⟨n, ns, hblocks, hleft, hright⟩ := counts_le h
  rw [hblocks] at hwhole ⊢
  cases ns with
  | nil =>
      obtain ⟨rfl, hnone⟩ : leftCount columns = n ∧ rightCount columns = 0 := by
        simp at hwhole hright
        omega
      rw [hnone]
      rcases k with _ | _ | k <;> simp [inBlocks]
  | cons m ms =>
      obtain ⟨rfl, rfl, hrest⟩ : leftCount columns = n ∧ rightCount columns = m ∧ ms.sum = 0 := by
        simp at hwhole hright
        omega
      rcases k with _ | _ | k
      · simp [inBlocks]
      · simp [inBlocks]
      · have hempty := inBlocks_empty (List.sum_eq_zero_iff.mp hrest)
        simp [inBlocks, hempty]

/-! ## The rows of a coach -/

theorem rowSeats_column (coach : Coach) (letters : List String) (row : Int) :
    (coach.rowSeats letters row).map (·.column) = letters := by
  unfold Coach.rowSeats
  rw [List.map_map]
  exact List.zipIdx_map_fst 0 letters

theorem length_rowSeats (coach : Coach) (letters : List String) (row : Int) :
    (coach.rowSeats letters row).length = letters.length := by
  rw [← List.length_map (f := (·.column)), rowSeats_column]

theorem mem_rowSeats {coach : Coach} {letters : List String} {row : Int} {seat : Seat}
    (h : seat ∈ coach.rowSeats letters row) :
    seat.row = row ∧ seat.coach = coach.code ∧ seat.coachType = coach.coachType := by
  obtain ⟨label, -, rfl⟩ := List.mem_map.mp h
  exact ⟨rfl, rfl, rfl⟩

/-- Grouping by the key gives each part back. -/
theorem filter_own {α β κ : Type} [DecidableEq κ] {xs : List α} {key : α → κ} {f : α → List β} {tag : β → κ}
    (hkeys : (xs.map key).Nodup) (htag : ∀ x, ∀ y ∈ f x, tag y = key x) {x : α} (hx : x ∈ xs) :
    (xs.flatMap f).filter (fun y => tag y = key x) = f x := by
  have hown : ∀ x' : α, (f x').filter (fun y => tag y = key x) = if key x' = key x then f x' else [] := by
    intro x'
    split
    · rename_i hkey
      rw [List.filter_eq_self]
      intro y hy
      exact decide_eq_true ((htag x' y hy).trans hkey)
    · rename_i hkey
      rw [List.filter_eq_nil_iff]
      intro y hy hsame
      exact hkey ((htag x' y hy).symm.trans (of_decide_eq_true hsame))
  induction xs with
  | nil => cases hx
  | cons x' xs ih =>
      obtain ⟨hfresh, hkeys⟩ := List.nodup_cons.mp hkeys
      rw [List.flatMap_cons, List.filter_append, hown]
      rcases List.mem_cons.mp hx with rfl | hx
      · -- The other parts have other keys.
        have hrest : (xs.flatMap f).filter (fun y => tag y = key x) = [] := by
          rw [List.filter_eq_nil_iff]
          intro y hy hsame
          obtain ⟨x', hx', hy⟩ := List.mem_flatMap.mp hy
          have hkey := (htag x' y hy).symm.trans (of_decide_eq_true hsame)
          exact hfresh (hkey ▸ List.mem_map_of_mem hx')
        rw [if_pos rfl, hrest, List.append_nil]
      · have hne : key x' ≠ key x := by
          intro hkey
          exact hfresh (hkey ▸ List.mem_map_of_mem hx)
        rw [if_neg hne, List.nil_append]
        exact ih hkeys hx

/-- The seats of a row stand in column order already. -/
theorem rowSeats_sorted (coach : Coach) (row : Int) :
    (coach.rowSeats coach.letters row).insertionSort (fun a b => columnLe a b) = coach.rowSeats coach.letters row := by
  apply List.Pairwise.insertionSort_eq
  have hsorted : coach.letters.Pairwise (· ≤ ·) := List.Pairwise.sublist coach.letters_prefix.sublist (by decide)
  rw [← rowSeats_column coach coach.letters row] at hsorted
  refine (List.pairwise_map.mp hsorted).imp ?_
  intro a b hab
  exact decide_eq_true hab

/-- **What the map draws of a row**: as many seats as the two blocks it reads have, from the left. -/
theorem buildRow_cells (ctx : Context) (coach : Coach) {row : Int} (hrow : row ∈ rowNumbers coach.rows) :
    (buildRow ctx coach (coach.seats coach.letters) row).left =
        ((coach.rowSeats coach.letters row).take (leftCount coach.columns)).map (toCell ctx) ∧
      (buildRow ctx coach (coach.seats coach.letters) row).right =
        (((coach.rowSeats coach.letters row).drop (leftCount coach.columns)).take (rightCount coach.columns)).map
          (toCell ctx) := by
  have hnodup : ((rowNumbers coach.rows).map id).Nodup := by simpa using rowNumbers_nodup coach.rows
  have hfilter : (coach.seats coach.letters).filter (fun s => s.row = row) = coach.rowSeats coach.letters row :=
    @filter_own _ _ _ _ (rowNumbers coach.rows) id _ Seat.row hnodup
      (fun r seat hseat => (mem_rowSeats hseat).1) row hrow
  unfold buildRow
  rw [hfilter, rowSeats_sorted]
  refine ⟨rfl, ?_⟩
  unfold rightCount leftCount
  dsimp only
  cases (blockSizes coach.columns)[1]? with
  | none => simp [sliceRight]
  | some right => rfl

def GridRow.cells (row : GridRow) : List Cell := row.left ++ row.right

def CoachGrid.cells (grid : CoachGrid) : List Cell := grid.rows.flatMap GridRow.cells

theorem cells_buildRow (ctx : Context) (coach : Coach) {row : Int} (hrow : row ∈ rowNumbers coach.rows) :
    (buildRow ctx coach (coach.seats coach.letters) row).cells =
      ((coach.rowSeats coach.letters row).take (leftCount coach.columns + rightCount coach.columns)).map
        (toCell ctx) := by
  obtain ⟨hleft, hright⟩ := buildRow_cells ctx coach hrow
  rw [GridRow.cells, hleft, hright, ← List.map_append, List.take_add]

theorem coach_of_mem_seats {coach : Coach} {letters : List String} {seat : Seat} (h : seat ∈ coach.seats letters) :
    seat.coach = coach.code := by
  obtain ⟨row, -, hrow⟩ := List.mem_flatMap.mp h
  exact (mem_rowSeats hrow).2.1

/-- **Coaches of different codes are drawn each on its own.** -/
theorem buildSeatMap_coaches {coaches : List Coach} (hcodes : (coaches.map Coach.code).Nodup)
    (availability : Option LegAvailability) (selectedSeatIds : List String) :
    (buildSeatMap coaches (coaches.flatMap fun c => c.seats c.letters) availability selectedSeatIds).coaches =
      coaches.map fun c => buildCoachGrid (context availability selectedSeatIds) c (c.seats c.letters) := by
  unfold buildSeatMap
  dsimp only
  apply List.map_congr_left
  intro coach hcoach
  rw [filter_own hcodes (fun c seat hseat => coach_of_mem_seats hseat) hcoach]

/-- The map of a loaded train. -/
theorem buildSeatMap_loaded {file : TimetableFile} {tt : Timetable} (hload : loadTimetable file = .ok tt)
    {pattern : ServicePattern} (hpattern : pattern ∈ tt.patterns) (hcodes : (pattern.coaches.map Coach.code).Nodup)
    (availability : Option LegAvailability) (selectedSeatIds : List String) :
    (buildSeatMap pattern.coaches pattern.seats availability selectedSeatIds).coaches =
      pattern.coaches.map fun c => buildCoachGrid (context availability selectedSeatIds) c (c.seats c.letters) := by
  rw [loadTimetable_seats hload hpattern]
  exact buildSeatMap_coaches hcodes availability selectedSeatIds

/-! ## What a map should show -/

/-- The view of the leg has the seat free. -/
def Available (availability : Option LegAvailability) (seatId : String) : Prop :=
  ∃ view, availability = some view ∧ ∃ s ∈ view.seats, s.available = true ∧ s.seatId = seatId

theorem mem_freeSeatIds {availability : Option LegAvailability} {seatId : String} :
    seatId ∈ freeSeatIds availability ↔ Available availability seatId := by
  unfold freeSeatIds Available
  cases availability with
  | none => simp
  | some view => simp [and_assoc]

/-- Every seat of the coach in one cell, in its own row, in column order and in the block the pattern puts it in;
    selectable are the reserved seats that are free or selected. -/
structure Shows (availability : Option LegAvailability) (selectedSeatIds : List String) (coach : Coach)
    (seats : List Seat) (grid : CoachGrid) : Prop where
  once       : ∀ seat ∈ seats, (grid.cells.map (·.id)).count seat.seatId = 1
  seats_only : ∀ cell ∈ grid.cells, ∃ seat ∈ seats, cell = toCell (context availability selectedSeatIds) seat
  own_row    : ∀ row ∈ grid.rows, ∀ cell ∈ row.cells, cell.row = row.row
  in_order   : ∀ row ∈ grid.rows, (row.cells.map (·.column)).Pairwise (· < ·)
  aisles     : ∀ row ∈ grid.rows, ∀ k : Nat, (([row.left, row.right][k]?).getD []).map (·.column) =
                 ((inBlocks (declaredBlocks coach.columns) coach.letters)[k]?).getD []
  selectable : ∀ seatId, (∃ cell ∈ grid.cells, cell.id = seatId ∧ cell.selectable = true) ↔
                 ∃ seat ∈ seats, seat.seatId = seatId ∧ seat.coachType = .reserved ∧
                   (seatId ∈ selectedSeatIds ∨ Available availability seatId)

theorem toCell_selectable {availability : Option LegAvailability} {selectedSeatIds : List String} {seat : Seat} :
    (toCell (context availability selectedSeatIds) seat).selectable = true ↔ seat.coachType = .reserved ∧
      (seat.seatId ∈ selectedSeatIds ∨ Available availability seat.seatId) := by
  rw [← mem_freeSeatIds]
  have hnone : availability.isSome = false → seat.seatId ∉ freeSeatIds availability := by
    intro h
    cases availability with
    | none => simp [freeSeatIds]
    | some view => cases h
  unfold toCell seatStatus context
  dsimp only
  cases htype : seat.coachType with
  | unreserved => simp
  | reserved =>
      by_cases hselected : seat.seatId ∈ selectedSeatIds
      · simp [hselected]
      · by_cases hsome : availability.isSome = false
        · simp [hselected, hsome, hnone hsome]
        · by_cases hfree : seat.seatId ∈ freeSeatIds availability
          · simp [hselected, hsome, hfree]
          · simp [hselected, hsome, hfree]

variable {availability : Option LegAvailability} {selectedSeatIds : List String} {coach : Coach} {letters : List String}

/-- Row by row the grid shows all the seats when the two blocks fill a row. -/
theorem cells_of_whole (ctx : Context)
    (hwhole : leftCount coach.columns + rightCount coach.columns = coach.letters.length) :
    (buildCoachGrid ctx coach (coach.seats coach.letters)).cells = (coach.seats coach.letters).map (toCell ctx) := by
  unfold CoachGrid.cells buildCoachGrid
  dsimp only
  rw [List.flatMap_map, Coach.seats, List.map_flatMap]
  apply List.flatMap_congr
  intro row hrow
  rw [← Coach.seats, cells_buildRow ctx coach hrow, hwhole, ← length_rowSeats coach coach.letters row, List.take_length]

theorem row_of_grid {ctx : Context} {seats : List Seat} {gridRow : GridRow}
    (h : gridRow ∈ (buildCoachGrid ctx coach seats).rows) :
    ∃ row ∈ rowNumbers coach.rows, gridRow = buildRow ctx coach seats row := by
  obtain ⟨row, hrow, rfl⟩ := List.mem_map.mp h
  exact ⟨row, hrow, rfl⟩

theorem cell_of_grid {ctx : Context} {cell : Cell}
    (h : cell ∈ (buildCoachGrid ctx coach (coach.seats coach.letters)).cells) : ∃ row ∈ rowNumbers coach.rows,
      ∃ seat ∈ (coach.rowSeats coach.letters row).take (leftCount coach.columns + rightCount coach.columns),
        cell = toCell ctx seat := by
  obtain ⟨gridRow, hgrid, hcell⟩ := List.mem_flatMap.mp h
  obtain ⟨row, hrow, rfl⟩ := row_of_grid hgrid
  rw [cells_buildRow ctx coach hrow] at hcell
  obtain ⟨seat, hseat, rfl⟩ := List.mem_map.mp hcell
  exact ⟨row, hrow, seat, hseat, rfl⟩

theorem shows_of_whole (haccepted : columnLabels coach.columns = .ok coach.letters)
    (hwhole : leftCount coach.columns + rightCount coach.columns = (declaredBlocks coach.columns).sum) :
    Shows availability selectedSeatIds coach (coach.seats coach.letters)
      (buildCoachGrid (context availability selectedSeatIds) coach (coach.seats coach.letters)) := by
  have hlength := (columnLabels_read haccepted).2.2
  have hcells := cells_of_whole (context availability selectedSeatIds) (hwhole.trans hlength.symm)
  refine ⟨?_, ?_, ?_, ?_, ?_, ?_⟩
  · intro seat hseat
    rw [hcells, List.map_map]
    exact List.count_eq_one_of_mem coach.seatIds_nodup (List.mem_map.mpr ⟨seat, hseat, rfl⟩)
  · intro cell hcell
    rw [hcells] at hcell
    obtain ⟨seat, hseat, rfl⟩ := List.mem_map.mp hcell
    exact ⟨seat, hseat, rfl⟩
  · intro gridRow hgrid cell hcell
    obtain ⟨row, hrow, rfl⟩ := row_of_grid hgrid
    rw [cells_buildRow _ coach hrow] at hcell
    obtain ⟨seat, hseat, rfl⟩ := List.mem_map.mp hcell
    exact (mem_rowSeats (List.mem_of_mem_take hseat)).1
  · intro gridRow hgrid
    obtain ⟨row, hrow, rfl⟩ := row_of_grid hgrid
    have hcolumns : ((buildRow (context availability selectedSeatIds) coach (coach.seats coach.letters) row).cells.map
        (·.column)) = coach.letters := by
      rw [cells_buildRow _ coach hrow, hwhole, ← hlength, ← length_rowSeats coach coach.letters row, List.take_length,
        List.map_map]
      exact rowSeats_column coach coach.letters row
    rw [hcolumns]
    exact List.Pairwise.sublist coach.letters_prefix.sublist (by decide)
  · -- block by block: the left one, the right one, and no third
    intro gridRow hgrid k
    obtain ⟨row, hrow, rfl⟩ := row_of_grid hgrid
    obtain ⟨hleft, hright⟩ := buildRow_cells (context availability selectedSeatIds) coach hrow
    rw [← drawn_blocks haccepted hwhole k, hleft, hright]
    have htake : ∀ seats : List Seat, (seats.map (toCell (context availability selectedSeatIds))).map (·.column) =
        seats.map (·.column) := by
      intro seats
      rw [List.map_map]
      rfl
    rcases k with _ | _ | k
    · simp only [List.getElem?_cons_zero, Option.getD_some, htake, List.map_take, rowSeats_column]
    · simp only [List.getElem?_cons_succ, List.getElem?_cons_zero, Option.getD_some, htake, List.map_take,
        List.map_drop, rowSeats_column]
    · simp
  · intro seatId
    rw [hcells]
    constructor
    · rintro ⟨cell, hcell, rfl, hselectable⟩
      obtain ⟨seat, hseat, rfl⟩ := List.mem_map.mp hcell
      exact ⟨seat, hseat, rfl, toCell_selectable.mp hselectable⟩
    · rintro ⟨seat, hseat, rfl, hselectable⟩
      exact ⟨_, List.mem_map.mpr ⟨seat, hseat, rfl⟩, rfl, toCell_selectable.mpr hselectable⟩

/-- A row too wide for the two blocks loses the first seat behind them. -/
theorem whole_of_once {ctx : Context} (hrows : 1 ≤ coach.rows)
    (h : ∀ seat ∈ coach.seats coach.letters,
      ((buildCoachGrid ctx coach (coach.seats coach.letters)).cells.map (·.id)).count seat.seatId = 1) :
    coach.letters.length ≤ leftCount coach.columns + rightCount coach.columns := by
  by_contra hshort
  have hindex : leftCount coach.columns + rightCount coach.columns < coach.letters.length := by omega
  have hlost := List.getElem?_eq_getElem hindex
  generalize coach.letters[leftCount coach.columns + rightCount coach.columns] = letter at hlost
  have hmem : coach.seat coach.letters.length 1 letter (leftCount coach.columns + rightCount coach.columns) ∈
      coach.seats coach.letters :=
    Coach.mem_seats.mpr ⟨1, letter, _, ⟨by omega, hrows⟩, hlost, rfl⟩
  -- The cell that carries its id belongs to a seat further to the left.
  have hone := h _ hmem
  have hpos := Nat.lt_of_lt_of_eq Nat.one_pos hone.symm
  obtain ⟨cell, hcell, hid⟩ := List.mem_map.mp (List.count_pos_iff.mp hpos)
  obtain ⟨row, hrow, seat, hseat, rfl⟩ := cell_of_grid hcell
  have hseats : seat ∈ coach.seats coach.letters :=
    List.mem_flatMap.mpr ⟨row, hrow, List.mem_of_mem_take hseat⟩
  have hsame := List.inj_on_of_nodup_map coach.seatIds_nodup hseats hmem hid
  obtain ⟨i, hi⟩ := List.mem_iff_getElem?.mp hseat
  have hcolumn : (((coach.rowSeats coach.letters row).take (leftCount coach.columns + rightCount coach.columns)).map
      (·.column))[i]? = some letter := by
    rw [List.getElem?_map, hi, hsame]
    rfl
  rw [List.map_take, rowSeats_column, List.getElem?_take] at hcolumn
  split at hcolumn
  · rename_i hlt
    have hinside : i < coach.letters.length := by omega
    have hsame := (List.getElem?_inj hinside coach.letters_nodup).mp (hcolumn.trans hlost.symm)
    omega
  · cases hcolumn

/-! ## The map of a coach -/

/-- **When the map shows a coach**: for every layout `buildCoach` accepts, every availability and every selection the
    map shows the coach exactly when the coach has no rows or the pattern is drawn whole. -/
theorem seat_map_shows_iff {code : String} {layout : Layout} {seats : List Seat}
    (hbuilt : buildCoach code layout = .ok (coach, seats)) (availability : Option LegAvailability)
    (selectedSeatIds : List String) :
    (∃ grid, (buildSeatMap [coach] seats availability selectedSeatIds).coaches = [grid] ∧
        Shows availability selectedSeatIds coach seats grid) ↔
      layout.rows < 1 ∨ DrawnWhole layout.columns := by
  obtain ⟨⟨-, hrows, hcolumns⟩, haccepted, rfl⟩ := buildCoach_ok hbuilt
  rw [← hrows, ← hcolumns]
  obtain ⟨hle, hwhole⟩ := drawn_iff haccepted
  have hlength := (columnLabels_read haccepted).2.2
  have hmap : (buildSeatMap [coach] (coach.seats coach.letters) availability selectedSeatIds).coaches =
      [buildCoachGrid (context availability selectedSeatIds) coach (coach.seats coach.letters)] := by
    simpa using @buildSeatMap_coaches [coach] (by simp) availability selectedSeatIds
  rw [hmap]
  constructor
  · rintro ⟨grid, hgrid, hshows⟩
    obtain rfl := (List.cons.inj hgrid).1
    by_cases hrows : coach.rows < 1
    · exact Or.inl hrows
    · right
      have hfull := whole_of_once (by omega) hshows.once
      exact hwhole.mp (by omega)
  · rintro (hrows | hdrawn)
    · -- Without rows there is neither a seat nor a cell.
      have hnone : rowNumbers coach.rows = [] := by
        unfold rowNumbers
        rw [Int.toNat_of_nonpos (by omega)]
        rfl
      refine ⟨_, rfl, ?_⟩
      constructor <;> simp [Coach.seats, CoachGrid.cells, buildCoachGrid, hnone]
    · exact ⟨_, rfl, shows_of_whole haccepted (hwhole.mpr hdrawn)⟩

/-- A coach that `buildCoach` accepts, checked by evaluation. -/
theorem built_of_isOk {code : String} {layout : Layout} (h : (buildCoach code layout).toOption.isSome = true) :
    ∃ coach seats, buildCoach code layout = .ok (coach, seats) := by
  cases hbuilt : buildCoach code layout with
  | error e =>
      rw [hbuilt] at h
      cases h
  | ok built => exact ⟨built.1, built.2, rfl⟩

theorem drawnWhole_two_one : DrawnWhole "2-1" := by
  have hparts : splitOn '-' "2-1" = ["2", "1"] := by decide +kernel
  have htwo : isIntSpace '2' = false := by decide
  have hone : isIntSpace '1' = false := by decide
  intro k part hpart
  rw [hparts] at hpart
  right
  rcases k with _ | _ | k
  · obtain rfl : "2" = part := by simpa using hpart
    exact ⟨by decide, by simp [Plain, htwo]⟩
  · obtain rfl : "1" = part := by simpa using hpart
    exact ⟨by decide, by simp [Plain, hone]⟩
  · simp at hpart

/-- A coach of two rows, two seats left and one right of the aisle. -/
theorem seat_map_shows_iff_saloon : ∃ coach seats grid,
    buildCoach "B" ⟨"RESERVED", "SECOND", 2, "2-1", []⟩ = .ok (coach, seats) ∧
      (buildSeatMap [coach] seats none ["B1A"]).coaches = [grid] ∧ Shows none ["B1A"] coach seats grid := by
  obtain ⟨coach, seats, hbuilt⟩ := @built_of_isOk "B" ⟨"RESERVED", "SECOND", 2, "2-1", []⟩ (by decide +kernel)
  obtain ⟨grid, hgrid, hshows⟩ := (seat_map_shows_iff hbuilt none ["B1A"]).mpr (Or.inr drawnWhole_two_one)
  exact ⟨coach, seats, grid, hbuilt, hgrid, hshows⟩

/-- Three blocks of two: the seats E and F of every row have no cell. -/
theorem third_block_not_drawn : ∃ coach seats,
    buildCoach "B" ⟨"RESERVED", "SECOND", 1, "2-2-2", []⟩ = .ok (coach, seats) ∧
      ¬ ∃ grid, (buildSeatMap [coach] seats none []).coaches = [grid] ∧ Shows none [] coach seats grid := by
  have hcheck : (buildCoach "B" ⟨"RESERVED", "SECOND", 1, "2-2-2", []⟩).toOption.any (fun built =>
      built.2.any (fun seat => seat.seatId = "B1E") &&
        (buildSeatMap [built.1] built.2 none []).coaches.all fun grid => "B1E" ∉ grid.cells.map (·.id)) = true := by
    decide +kernel
  obtain ⟨coach, seats, hbuilt⟩ := @built_of_isOk "B" ⟨"RESERVED", "SECOND", 1, "2-2-2", []⟩ (by decide +kernel)
  rw [hbuilt] at hcheck
  obtain ⟨hseat, hcells⟩ := Bool.and_eq_true_iff.mp hcheck
  refine ⟨coach, seats, hbuilt, ?_⟩
  rintro ⟨grid, hgrid, hshows⟩
  obtain ⟨seat, hmem, hid⟩ := List.any_eq_true.mp hseat
  have hone := hshows.once seat hmem
  rw [of_decide_eq_true hid] at hone
  have hcell := List.count_pos_iff.mp (Nat.lt_of_lt_of_eq Nat.one_pos hone.symm)
  have hnone := List.all_eq_true.mp hcells grid (by rw [hgrid]; exact List.mem_cons_self)
  exact of_decide_eq_true hnone hcell

end SeatMap

end SlrBooking
