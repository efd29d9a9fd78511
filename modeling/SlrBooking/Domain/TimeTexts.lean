import SlrBooking.Domain.Timetable

/-!
# `Domain.TimeTexts` — the times a timetable file may spell

A time is written `HH:MM`, a `+` in front for each day later. The parser hands both sides of the colon to `int`, which
also reads spaces, a sign, underscores, leading zeros and the digits of other scripts.

## Contents
- `TimeSplit`: the `+` signs, the hour and the minute of a text. `timeSplit_unique`, `parseHhmm_ok_iff`,
  `parseHhmm_nonneg`.
- `TimeText`: the grammar. `InGrammar`, `ParsesExactly`; `LooselyWritten`: the other texts that are accepted.
- `parse_formatHhmm`: printed times parse. `times_exact_iff`: when the parser keeps to the grammar.
-/

namespace SlrBooking

open Theory Numerals

/-! ## The parts of a text -/

/-- `k` signs, the hour up to the first colon, and the minute behind it. -/
structure TimeSplit (text : List Char) (k : Nat) (hour minute : List Char) : Prop where
  spelled : text = List.replicate k '+' ++ (hour ++ ':' :: minute)
  noPlus  : hour.head? ≠ some '+'
  noColon : ':' ∉ hour

theorem leadingPlus_replicate (k : Nat) {rest : List Char} (h : rest.head? ≠ some '+') :
    leadingPlus (List.replicate k '+' ++ rest) = ((k : Int), rest) := by
  induction k with
  | zero =>
    cases rest with
    | nil => rfl
    | cons c rest =>
      have hc : c ≠ '+' := fun heq => h (by rw [heq]; rfl)
      simp [leadingPlus, hc]
  | succ k ih =>
    rw [List.replicate_succ, List.cons_append, leadingPlus, ih]
    simp

theorem leadingPlus_spelled (cs : List Char) :
    ∃ k : Nat, (leadingPlus cs).1 = k ∧ cs = List.replicate k '+' ++ (leadingPlus cs).2 ∧
      (leadingPlus cs).2.head? ≠ some '+' := by
  fun_induction leadingPlus cs with
  | case1 cs ih =>
    obtain ⟨k, hk, hspelled, hhead⟩ := ih
    refine ⟨k + 1, by simp [hk], ?_, hhead⟩
    rw [List.replicate_succ, List.cons_append, ← hspelled]
  | case2 cs hno =>
    refine ⟨0, rfl, rfl, fun hhead => ?_⟩
    obtain ⟨rest, hrest⟩ := List.head?_eq_some_iff.mp hhead
    exact hno rest hrest

/-- What the parser cuts a text into. -/
theorem TimeSplit.cut {text : List Char} {k : Nat} {hour minute : List Char} (h : TimeSplit text k hour minute) :
    leadingPlus text = ((k : Int), hour ++ ':' :: minute) ∧
      (hour ++ ':' :: minute).takeWhile (· ≠ ':') = hour ∧
      (hour ++ ':' :: minute).dropWhile (· ≠ ':') = ':' :: minute := by
  have hall : ∀ c ∈ hour, decide (c ≠ ':') = true := fun c hc =>
    decide_eq_true fun heq => h.noColon (heq ▸ hc)
  refine ⟨?_, ?_, ?_⟩
  · rw [h.spelled]
    refine leadingPlus_replicate k ?_
    cases hour with
    | nil => simp
    | cons c hour => exact h.noPlus
  · rw [List.takeWhile_append_of_pos hall, List.takeWhile_cons_of_neg (by simp), List.append_nil]
  · rw [List.dropWhile_append_of_pos hall, List.dropWhile_cons_of_neg (by simp)]

/-- A text splits in one way. -/
theorem timeSplit_unique {text : List Char} {k k' : Nat} {hour hour' minute minute' : List Char}
    (h : TimeSplit text k hour minute) (h' : TimeSplit text k' hour' minute') :
    k = k' ∧ hour = hour' ∧ minute = minute' := by
  obtain ⟨hcut, htake, hdrop⟩ := h.cut
  obtain ⟨hcut', htake', hdrop'⟩ := h'.cut
  obtain ⟨hk, hrest⟩ := Prod.mk.inj (hcut.symm.trans hcut')
  refine ⟨by exact_mod_cast hk, ?_, ?_⟩
  · rw [← htake, hrest, htake']
  · rw [hrest] at hdrop
    exact (List.cons.inj (hdrop.symm.trans hdrop')).2

/-- An hour of the day and a minute of the hour. -/
def InRange (hour minute : Int) : Prop := (0 ≤ hour ∧ hour < 24) ∧ 0 ≤ minute ∧ minute < 60

/-- **Exactly what the parser accepts**, and what it returns. -/
theorem parseHhmm_ok_iff {value : String} {minutes : Int} :
    parseHhmm value = .ok minutes ↔ ∃ k hour minute h m, TimeSplit (strip value).toList k hour minute ∧
      Reads hour h ∧ Reads minute m ∧ InRange h m ∧ minutes = k * minutesPerDay + h * 60 + m := by
  constructor
  · intro hparse
    obtain ⟨k, hk, hspelled, hhead⟩ := leadingPlus_spelled (strip value).toList
    unfold parseHhmm at hparse
    revert hparse hk hspelled hhead
    generalize leadingPlus (strip value).toList = plus
    obtain ⟨dayOffset, text⟩ := plus
    intro hparse hk hspelled hhead
    dsimp only at hparse hk hspelled hhead
    split at hparse
    · rename_i h colon rest hhour hdrop
      split at hparse
      · rename_i m hminute
        split_ifs at hparse with hrange
        -- what the scan stops at is the first colon
        have hcolon : colon = ':' := by
          have hstop := List.head?_dropWhile_not (fun c => decide (c ≠ ':')) text
          rw [hdrop] at hstop
          simpa using hstop
        have hcut := List.takeWhile_append_dropWhile (p := fun c => decide (c ≠ ':')) (l := text)
        rw [hdrop, hcolon] at hcut
        refine ⟨k, text.takeWhile (· ≠ ':'), rest, h, m, ⟨?_, ?_, ?_⟩, ?_, ?_, hrange, ?_⟩
        · rw [hcut]
          exact hspelled
        · intro hplus
          apply hhead
          rw [← hcut]
          obtain ⟨front, hfront⟩ := List.head?_eq_some_iff.mp hplus
          rw [hfront]
          rfl
        · intro hmem
          have hno := List.mem_takeWhile_imp hmem
          simp at hno
        · have hreads := int_ok_iff.mp hhour
          rwa [String.toList_ofList] at hreads
        · have hreads := int_ok_iff.mp hminute
          rwa [String.toList_ofList] at hreads
        · rw [← Except.ok.inj hparse, hk]
      · cases hparse
    · cases hparse
  · rintro ⟨k, hour, minute, h, m, hsplit, hhour, hminute, hrange, rfl⟩
    obtain ⟨hplus, htake, hdrop⟩ := hsplit.cut
    have hhour' : int (String.ofList hour) = .ok h := int_ok_iff.mpr (by rwa [String.toList_ofList])
    have hminute' : int (String.ofList minute) = .ok m := int_ok_iff.mpr (by rwa [String.toList_ofList])
    unfold parseHhmm
    rw [hplus]
    dsimp only
    rw [htake, hdrop, hhour']
    dsimp only
    rw [hminute']
    exact if_pos hrange

/-- A time read from the timetable is never before midnight of the service date. -/
theorem parseHhmm_nonneg {value : String} {minutes : Int} (h : parseHhmm value = .ok minutes) : 0 ≤ minutes := by
  obtain ⟨k, -, -, h, m, -, -, -, ⟨⟨hhour, -⟩, hminute, -⟩, rfl⟩ := parseHhmm_ok_iff.mp h
  unfold minutesPerDay
  omega

/-! ## The grammar -/

/-- One or two digits `0` to `9`. -/
def Plain (cs : List Char) : Prop := (cs.length = 1 ∨ cs.length = 2) ∧ ∀ c ∈ cs, c.isDigit = true

/-- `k` signs, one or two digits that write the hour, a colon, one or two digits that write the minute. -/
structure TimeText (text : List Char) (k : Nat) (hour minute : List Char) (h m : Nat) : Prop where
  spelled     : text = List.replicate k '+' ++ (hour ++ ':' :: minute)
  hourPlain   : Plain hour
  minutePlain : Plain minute
  hourIs      : Nat.ofDigitChars 10 hour 0 = h
  minuteIs    : Nat.ofDigitChars 10 minute 0 = m
  hourIn      : h < 24
  minuteIn    : m < 60

/-- Trimmed, the text is a time, and `minutes` is the one it writes. -/
def InGrammar (value : String) (minutes : Int) : Prop :=
  ∃ k hour minute h m, TimeText (strip value).toList k hour minute h m ∧ minutes = 1440 * k + 60 * h + m

/-- The parser accepts the text exactly if it is in the grammar, and returns what the text writes. -/
def ParsesExactly (value : String) : Prop := ∀ minutes, parseHhmm value = .ok minutes ↔ InGrammar value minutes

/-- Trimmed and behind its `+` signs, the text is an hour and a minute for `int`, and one of the two is written
    otherwise than with one or two digits. -/
def LooselyWritten (value : String) : Prop :=
  ∃ k hour minute h m, TimeSplit (strip value).toList k hour minute ∧ Reads hour h ∧ Reads minute m ∧ InRange h m ∧
    ¬ (Plain hour ∧ Plain minute)

/-- Plain digits read as the number they write. -/
theorem Plain.reads {cs : List Char} (h : Plain cs) : Reads cs (Nat.ofDigitChars 10 cs 0) := by
  have hgrouped : ∀ cs : List Char, (∀ c ∈ cs, c.isDigit = true) → Grouped cs (cs.map fun c => c.toNat - 0x30) := by
    intro cs hcs
    induction cs with
    | nil => exact .nil
    | cons c cs ih =>
      exact .digit (decimal_of_isDigit (hcs c List.mem_cons_self)) (ih fun b hb => hcs b (List.mem_cons_of_mem c hb))
  have hvalue : Decimal.value (cs.map fun c => c.toNat - 0x30) = Nat.ofDigitChars 10 cs 0 := by
    rw [Decimal.value, List.foldl_map]
    rfl
  refine ⟨[], [], cs, [], 1, _, ⟨by simp, by simp, .none, hgrouped cs h.2, ?_, by simp, ?_⟩, ?_⟩
  · obtain ⟨c, rest, rfl⟩ := List.exists_cons_of_ne_nil (show cs ≠ [] from fun hnil => by simp [hnil, Plain] at h)
    exact ⟨c, rest, rfl, by rw [decimal_of_isDigit (h.2 c List.mem_cons_self)]; rfl⟩
  · rw [List.length_map]
    have hlen := h.1
    unfold maxStrDigits
    omega
  · rw [hvalue, one_mul]

theorem reads_unique {cs : List Char} {n n' : Int} (h : Reads cs n) (h' : Reads cs n') : n = n' := by
  have hread : int (String.ofList cs) = .ok n := int_ok_iff.mpr (by rwa [String.toList_ofList])
  have hread' : int (String.ofList cs) = .ok n' := int_ok_iff.mpr (by rwa [String.toList_ofList])
  exact Except.ok.inj (hread.symm.trans hread')

theorem Plain.noColon {cs : List Char} (h : Plain cs) : ':' ∉ cs := fun hmem => absurd (h.2 ':' hmem) (by decide)

theorem Plain.noPlus {cs : List Char} (h : Plain cs) : cs.head? ≠ some '+' := by
  intro hhead
  obtain ⟨rest, rfl⟩ := List.head?_eq_some_iff.mp hhead
  exact absurd (h.2 '+' List.mem_cons_self) (by decide)

theorem TimeText.split {text : List Char} {k : Nat} {hour minute : List Char} {h m : Nat}
    (ht : TimeText text k hour minute h m) : TimeSplit text k hour minute :=
  ⟨ht.spelled, ht.hourPlain.noPlus, ht.hourPlain.noColon⟩

/-- **What is in the grammar parses.** -/
theorem parse_of_inGrammar {value : String} {minutes : Int} (h : InGrammar value minutes) :
    parseHhmm value = .ok minutes := by
  obtain ⟨k, hour, minute, h, m, ht, rfl⟩ := h
  have hhour := ht.hourPlain.reads
  have hminute := ht.minutePlain.reads
  rw [ht.hourIs] at hhour
  rw [ht.minuteIs] at hminute
  have hlt := ht.hourIn
  have hlt' := ht.minuteIn
  refine parseHhmm_ok_iff.mpr ⟨k, hour, minute, h, m, ht.split, hhour, hminute, ⟨by omega, by omega⟩, ?_⟩
  unfold minutesPerDay
  ring

/-- **What parses is in the grammar, unless it is loosely written.** -/
theorem inGrammar_of_parse {value : String} {minutes : Int} (hparse : parseHhmm value = .ok minutes)
    (hstrict : ¬ LooselyWritten value) : InGrammar value minutes := by
  obtain ⟨k, hour, minute, h, m, hsplit, hhour, hminute, hrange, rfl⟩ := parseHhmm_ok_iff.mp hparse
  have hplain : Plain hour ∧ Plain minute := by
    by_contra hloose
    exact hstrict ⟨k, hour, minute, h, m, hsplit, hhour, hminute, hrange, hloose⟩
  have hh := reads_unique hhour hplain.1.reads
  have hm := reads_unique hminute hplain.2.reads
  obtain ⟨⟨-, hday⟩, -, hsixty⟩ := hrange
  refine ⟨k, hour, minute, _, _, ⟨hsplit.spelled, hplain.1, hplain.2, rfl, rfl, by omega, by omega⟩, ?_⟩
  rw [hh, hm]
  unfold minutesPerDay
  ring

/-- A loosely written time is accepted and not in the grammar. -/
theorem not_exact_of_loose {value : String} (h : LooselyWritten value) : ¬ ParsesExactly value := by
  obtain ⟨k, hour, minute, h, m, hsplit, hhour, hminute, hrange, hloose⟩ := h
  intro hexact
  have hparse := parseHhmm_ok_iff.mpr ⟨k, hour, minute, h, m, hsplit, hhour, hminute, hrange, rfl⟩
  obtain ⟨k', hour', minute', h', m', ht, -⟩ := (hexact _).mp hparse
  -- the grammar would have to cut the text where the parser does
  obtain ⟨-, rfl, rfl⟩ := timeSplit_unique hsplit ht.split
  exact hloose ⟨ht.hourPlain, ht.minutePlain⟩

/-! ## Printed times -/

theorem plain_zeroPad {n : Nat} (hn : n < 100) : Plain (Calendar.zeroPad 2 n).toList :=
  have hdigits : Calendar.Digits 2 n _ := Calendar.digits_zeroPad hn (by decide)
  ⟨Or.inr hdigits.length, hdigits.digits⟩

theorem not_isSpace_of_isDigit {c : Char} (h : c.isDigit = true) : isSpace c = false := by
  cases hspace : isSpace c with
  | false => rfl
  | true =>
    have hnone := decimal_of_space hspace
    rw [decimal_of_isDigit h] at hnone
    cases hnone

/-- Nothing in a time is trimmed. -/
theorem strip_time (k : Nat) {hour minute : List Char} (hhour : Plain hour) (hminute : Plain minute) :
    stripBy isSpace (List.replicate k '+' ++ (hour ++ ':' :: minute)) =
      List.replicate k '+' ++ (hour ++ ':' :: minute) := by
  refine stripBy_eq_self fun c hc => ?_
  rcases List.mem_append.mp hc with hplus | hc
  · rw [(List.mem_replicate.mp hplus).2]
    decide
  · rcases List.mem_append.mp hc with hdigit | hc
    · exact not_isSpace_of_isDigit (hhour.2 c hdigit)
    · rcases List.mem_cons.mp hc with rfl | hdigit
      · decide
      · exact not_isSpace_of_isDigit (hminute.2 c hdigit)

/-- **Printed times parse**, with a `+` for each day. -/
theorem parse_formatHhmm (n : Nat) :
    parseHhmm (String.ofList (List.replicate (n / 1440) '+') ++ formatHhmm n) = .ok n := by
  have hwithin : ((n : Int) % minutesPerDay).toNat = n % 1440 := by
    unfold minutesPerDay
    omega
  have hhour : n % 1440 / 60 < 24 := by omega
  have hminute : n % 1440 % 60 < 60 := by omega
  have hhourText : Calendar.Digits 2 (n % 1440 / 60) _ :=
    Calendar.digits_zeroPad (lt_trans hhour (by decide)) (by decide)
  have hminuteText : Calendar.Digits 2 (n % 1440 % 60) _ :=
    Calendar.digits_zeroPad (lt_trans hminute (by decide)) (by decide)
  have htext : (String.ofList (List.replicate (n / 1440) '+') ++ formatHhmm n).toList =
      List.replicate (n / 1440) '+' ++
        ((Calendar.zeroPad 2 (n % 1440 / 60)).toList ++ ':' :: (Calendar.zeroPad 2 (n % 1440 % 60)).toList) := by
    unfold formatHhmm
    rw [hwithin]
    simp
  refine parse_of_inGrammar ⟨n / 1440, _, _, _, _, ⟨?_, plain_zeroPad (lt_trans hhour (by decide)),
    plain_zeroPad (lt_trans hminute (by decide)), hhourText.value, hminuteText.value, hhour, hminute⟩, ?_⟩
  · rw [strip, String.toList_ofList, htext]
    exact strip_time _ (plain_zeroPad (lt_trans hhour (by decide))) (plain_zeroPad (lt_trans hminute (by decide)))
  · push_cast
    omega

/-- **When the parser keeps to the grammar**: on a text that is not loosely written, and on no other. A printed time is
    read back as printed. -/
theorem times_exact_iff (value : String) (n : Nat) :
    (ParsesExactly value ↔ ¬ LooselyWritten value) ∧
    parseHhmm (String.ofList (List.replicate (n / 1440) '+') ++ formatHhmm n) = .ok n := by
  refine ⟨⟨fun hexact hloose => not_exact_of_loose hloose hexact, fun hstrict minutes => ?_⟩, parse_formatHhmm n⟩
  exact ⟨fun hparse => inGrammar_of_parse hparse hstrict, parse_of_inGrammar⟩

/-- Half an hour before midnight is read as half an hour after. -/
theorem minus_time_accepted :
    ¬ ((∀ value, ParsesExactly value) ∧
      ∀ n : Nat, parseHhmm (String.ofList (List.replicate (n / 1440) '+') ++ formatHhmm n) = .ok n) := by
  rintro ⟨hexact, -⟩
  have hsplit : TimeSplit (strip "-0:30").toList 0 ['-', '0'] ['3', '0'] := ⟨by decide +kernel, by decide, by decide⟩
  have hhour : Reads ['-', '0'] 0 := int_ok_iff.mp (by decide +kernel : int (String.ofList ['-', '0']) = .ok 0)
  have hminute : Reads ['3', '0'] 30 := int_ok_iff.mp (by decide +kernel : int (String.ofList ['3', '0']) = .ok 30)
  have hrange : InRange 0 30 := ⟨by decide, by decide⟩
  have hsign : ¬ (Plain ['-', '0'] ∧ Plain ['3', '0']) := fun hplain =>
    absurd (hplain.1.2 '-' List.mem_cons_self) (by decide)
  exact not_exact_of_loose ⟨0, _, _, 0, 30, hsplit, hhour, hminute, hrange, hsign⟩ (hexact "-0:30")

end SlrBooking
