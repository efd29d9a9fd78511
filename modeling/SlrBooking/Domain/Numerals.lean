import SlrBooking.Theory.Decimal
import SlrBooking.Domain.Values

/-!
# `Domain.Numerals` — the part of `str` and `int` the timetable config uses

## Contents
- `reprText`, `strip`, `upper`, `splitOn`: the text methods.
- `decimal`, `isIntSpace`, `int`: reading a number.
- `Grouped`: digits with single underscores between them. `digits_grouped`.
- `splitOn_part`. `Literal`, `Reads`. `int_ok_iff`: exactly the texts that are read, with what they read as.
- `int_ok`: what an accepted text looks like, when no minus sign stands in it.
-/

namespace SlrBooking

open Theory

/-! ## Texts, spaces and digits -/

/-- `repr` of a text without quotes or control characters. -/
def reprText (s : String) : String := "'" ++ s ++ "'"

namespace Numerals

/-- The code points of `str.isspace`. -/
def spaces : List Nat :=
  [0x9, 0xA, 0xB, 0xC, 0xD, 0x1C, 0x1D, 0x1E, 0x1F, 0x20, 0x85, 0xA0, 0x1680, 0x2000, 0x2001, 0x2002, 0x2003,
   0x2004, 0x2005, 0x2006, 0x2007, 0x2008, 0x2009, 0x200A, 0x2028, 0x2029, 0x202F, 0x205F, 0x3000]

def isSpace (c : Char) : Bool := c.toNat ∈ spaces

/-- The spaces `int` skips: the information separators are not among them. -/
def isIntSpace (c : Char) : Bool := isSpace c && !(c.toNat ∈ [0x1C, 0x1D, 0x1E, 0x1F])

def stripBy (space : Char → Bool) (cs : List Char) : List Char := (cs.dropWhile space).rdropWhile space

/-- `text.strip()`. -/
def strip (text : String) : String := String.ofList (stripBy isSpace text.toList)

/-- `str.upper` of a character, as far as a capital ASCII letter can tell. -/
def upperChar (c : Char) : Char :=
  -- The dotless i and the long s.
  if c = Char.ofNat 0x131 then 'I' else if c = Char.ofNat 0x17F then 'S' else c.toUpper

def upper (text : String) : String := String.ofList (text.toList.map upperChar)

/-- `text.split(sep)` for a separator of one character. -/
def splitOn (sep : Char) (text : String) : List String := (text.toList.splitOn sep).map String.ofList

/-- The zeros of the scripts that write decimal digits, each followed by its digits up to nine. -/
def decimalZeros : List Nat :=
  [0x30, 0x660, 0x6F0, 0x7C0, 0x966, 0x9E6, 0xA66, 0xAE6, 0xB66, 0xBE6, 0xC66, 0xCE6, 0xD66, 0xDE6, 0xE50,
   0xED0, 0xF20, 0x1040, 0x1090, 0x17E0, 0x1810, 0x1946, 0x19D0, 0x1A80, 0x1A90, 0x1B50, 0x1BB0, 0x1C40,
   0x1C50, 0xA620, 0xA8D0, 0xA900, 0xA9D0, 0xA9F0, 0xAA50, 0xABF0, 0xFF10, 0x104A0, 0x10D30, 0x11066, 0x110F0,
   0x11136, 0x111D0, 0x112F0, 0x11450, 0x114D0, 0x11650, 0x116C0, 0x11730, 0x118E0, 0x11950, 0x11C50, 0x11D50,
   0x11DA0, 0x11F50, 0x16A60, 0x16AC0, 0x16B50, 0x1D7CE, 0x1D7D8, 0x1D7E2, 0x1D7EC, 0x1D7F6, 0x1E140, 0x1E2F0,
   0x1E4F0, 0x1E950, 0x1FBF0]

/-- The value of a decimal digit of any script. -/
def decimal (c : Char) : Option Nat :=
  (decimalZeros.find? fun start => start ≤ c.toNat ∧ c.toNat < start + 10).map (c.toNat - ·)

/-- The digits after the first one: single underscores may stand between digits. -/
def moreDigits : List Char → Option (List Nat)
  | [] => some []
  | '_' :: c :: cs => do return (← decimal c) :: (← moreDigits cs)
  | c :: cs => do return (← decimal c) :: (← moreDigits cs)

def digits : List Char → Option (List Nat)
  | [] => none
  | c :: cs => do return (← decimal c) :: (← moreDigits cs)

/-- `sys.get_int_max_str_digits()`. -/
def maxStrDigits : Nat := 4300

/-- The sign of a numeral and what follows it. -/
def signed : List Char → Int × List Char
  | '+' :: cs => (1, cs)
  | '-' :: cs => (-1, cs)
  | cs => (1, cs)

/-- `int(text)`. -/
def int (text : String) : Except Err Int :=
  let (sign, cs) := signed (stripBy isIntSpace text.toList)
  match digits cs with
  | none => .error (.valueError s!"invalid literal for int() with base 10: {reprText text}")
  | some ds =>
    if maxStrDigits < ds.length then
      .error (.valueError (s!"Exceeds the limit ({maxStrDigits} digits) for integer string conversion: value has " ++
        s!"{ds.length} digits; use sys.set_int_max_str_digits() to increase the limit"))
    else .ok (sign * Decimal.value ds)

example : int " +1_0 " = .ok 10 := by decide +kernel

/-! ## Accepted texts -/

/-- The digits `ds` spelled out, single underscores in front of some of them. -/
inductive Grouped : List Char → List Nat → Prop where
  | nil : Grouped [] []
  | digit {c : Char} {d : Nat} {cs : List Char} {ds : List Nat} :
      decimal c = some d → Grouped cs ds → Grouped (c :: cs) (d :: ds)
  | underscore {c : Char} {d : Nat} {cs : List Char} {ds : List Nat} :
      decimal c = some d → Grouped cs ds → Grouped ('_' :: c :: cs) (d :: ds)

theorem moreDigits_grouped {cs : List Char} {ds : List Nat} (h : moreDigits cs = some ds) : Grouped cs ds := by
  fun_induction moreDigits cs generalizing ds with
  | case1 =>
      cases h
      exact .nil
  | case2 c cs ih =>
      obtain ⟨d, hd, h⟩ := Option.bind_eq_some_iff.mp h
      obtain ⟨ds', hds', h⟩ := Option.bind_eq_some_iff.mp h
      cases h
      exact .underscore hd (ih hds')
  | case3 c cs hno ih =>
      obtain ⟨d, hd, h⟩ := Option.bind_eq_some_iff.mp h
      obtain ⟨ds', hds', h⟩ := Option.bind_eq_some_iff.mp h
      cases h
      exact .digit hd (ih hds')

theorem digits_grouped {cs : List Char} {ds : List Nat} (h : digits cs = some ds) :
    Grouped cs ds ∧ ∃ c rest, cs = c :: rest ∧ (decimal c).isSome := by
  cases cs with
  | nil => cases h
  | cons c cs =>
      obtain ⟨d, hd, h⟩ := Option.bind_eq_some_iff.mp h
      obtain ⟨ds', hds', h⟩ := Option.bind_eq_some_iff.mp h
      cases h
      exact ⟨.digit hd (moreDigits_grouped hds'), c, cs, rfl, by rw [hd]; rfl⟩

theorem decimal_of_space {c : Char} (h : isSpace c = true) : decimal c = none := by
  have hnone : ∀ n ∈ spaces, (decimalZeros.find? fun start => start ≤ n ∧ n < start + 10) = none := by
    decide +kernel
  unfold decimal
  rw [hnone c.toNat (of_decide_eq_true h), Option.map_none]

theorem decimal_of_isDigit {c : Char} (h : c.isDigit = true) : decimal c = some (c.toNat - 0x30) := by
  obtain ⟨hlow, hhigh⟩ := Char.isDigit_iff_toNat.mp h
  have hrange : 0x30 ≤ c.toNat ∧ c.toNat < 0x30 + 10 := ⟨hlow, Nat.lt_succ_of_le hhigh⟩
  have hfirst : decimalZeros = 0x30 :: decimalZeros.tail := rfl
  unfold decimal
  rw [hfirst, List.find?_cons, decide_eq_true hrange]
  simp

theorem isSpace_of_int {c : Char} (h : isIntSpace c = true) : isSpace c = true := (Bool.and_eq_true_iff.mp h).1

theorem splitOnP_piece {p : Char → Bool} {cs piece : List Char} (h : piece ∈ cs.splitOnP p) :
    ∀ c ∈ piece, p c = false := by
  induction cs generalizing piece with
  | nil =>
      obtain rfl := List.mem_singleton.mp h
      simp
  | cons x cs ih =>
      rw [List.splitOnP_cons_eq_if_modifyHead] at h
      split at h
      · rcases List.mem_cons.mp h with rfl | h
        · simp
        · exact ih h
      · rename_i hx
        obtain ⟨first, rest, hsplit⟩ := List.exists_cons_of_ne_nil (List.splitOnP_ne_nil p cs)
        rw [hsplit] at h ih
        rcases List.mem_cons.mp h with rfl | h
        · intro c hc
          rcases List.mem_cons.mp hc with rfl | hc
          · exact Bool.eq_false_iff.mpr hx
          · exact ih List.mem_cons_self c hc
        · exact ih (List.mem_cons_of_mem _ h)

/-! ### Pieces of a text -/

theorem splitOn_ne_nil (sep : Char) (text : String) : splitOn sep text ≠ [] := by
  unfold splitOn
  simp

/-- The separator stands in no part. -/
theorem splitOn_part {sep : Char} {text part : String} (h : part ∈ splitOn sep text) : sep ∉ part.toList := by
  obtain ⟨piece, hpiece, rfl⟩ := List.mem_map.mp h
  intro hsep
  rw [String.toList_ofList] at hsep
  have hno := splitOnP_piece hpiece sep hsep
  simp at hno

/-- An accepted text without a minus sign: spaces, a plus sign at most, the digits and spaces. -/
structure Numeral (text before plus body after : List Char) (ds : List Nat) : Prop where
  spelled : text = before ++ (plus ++ (body ++ after))
  before  : ∀ c ∈ before, isIntSpace c = true
  plus    : plus = [] ∨ plus = ['+']
  digits  : Grouped body ds
  first   : ∃ c rest, body = c :: rest ∧ (decimal c).isSome
  after   : ∀ c ∈ after, isIntSpace c = true

theorem stripBy_spelled (space : Char → Bool) (cs : List Char) :
    ∃ before after, cs = before ++ (stripBy space cs ++ after) ∧
      (∀ c ∈ before, space c = true) ∧ (∀ c ∈ after, space c = true) := by
  refine ⟨cs.takeWhile space, (cs.dropWhile space).rtakeWhile space, ?_, ?_, ?_⟩
  · rw [stripBy, List.rdropWhile_append_rtakeWhile, List.takeWhile_append_dropWhile]
  · intro c hc
    exact List.mem_takeWhile_imp hc
  · intro c hc
    exact List.mem_rtakeWhile_imp hc

/-! ## Exactly what `int` reads -/

/-- A sign that may stand in front of the digits, and what it multiplies them by. -/
inductive Sign : List Char → Int → Prop where
  | none  : Sign [] 1
  | plus  : Sign ['+'] 1
  | minus : Sign ['-'] (-1)

/-- A text that reads as a number: spaces, a sign at most, digits with single underscores between them, spaces. -/
structure Literal (text before sign body after : List Char) (factor : Int) (ds : List Nat) : Prop where
  spelled : text = before ++ (sign ++ (body ++ after))
  before  : ∀ c ∈ before, isIntSpace c = true
  sign    : Sign sign factor
  digits  : Grouped body ds
  first   : ∃ c rest, body = c :: rest ∧ (decimal c).isSome
  after   : ∀ c ∈ after, isIntSpace c = true
  short   : ds.length ≤ maxStrDigits

/-- The text reads as `n`. -/
def Reads (text : List Char) (n : Int) : Prop :=
  ∃ before sign body after factor ds, Literal text before sign body after factor ds ∧ n = factor * Decimal.value ds

theorem signed_sign (cs : List Char) : ∃ sign, Sign sign (signed cs).1 ∧ cs = sign ++ (signed cs).2 := by
  unfold signed
  split
  · exact ⟨['+'], .plus, rfl⟩
  · exact ⟨['-'], .minus, rfl⟩
  · exact ⟨[], .none, rfl⟩

theorem signed_of_sign {sign body : List Char} {factor : Int} (hsign : Sign sign factor)
    (hfirst : ∃ c rest, body = c :: rest ∧ (decimal c).isSome) : signed (sign ++ body) = (factor, body) := by
  cases hsign with
  | plus => rfl
  | minus => rfl
  | none =>
    obtain ⟨c, rest, rfl, hc⟩ := hfirst
    -- neither sign is a digit
    have hplus : c ≠ '+' := fun heq => absurd (heq ▸ hc) (by decide +kernel : ¬ (decimal '+').isSome = true)
    have hminus : c ≠ '-' := fun heq => absurd (heq ▸ hc) (by decide +kernel : ¬ (decimal '-').isSome = true)
    simp [signed, hplus, hminus]

theorem moreDigits_of_grouped {cs : List Char} {ds : List Nat} (h : Grouped cs ds) : moreDigits cs = some ds := by
  induction h with
  | nil => rfl
  | underscore hd _ ih =>
    rw [moreDigits, hd, ih]
    rfl
  | @digit c d cs ds hd _ ih =>
    -- the underscore is no digit, so the first branch is not taken
    have hc : c ≠ '_' := by
      rintro rfl
      exact absurd (hd ▸ rfl : (decimal '_').isSome = true) (by decide +kernel)
    have hstep : moreDigits (c :: cs) = do return (← decimal c) :: (← moreDigits cs) := by
      cases cs with
      | nil => simp [moreDigits]
      | cons c' cs => simp [moreDigits, hc]
    rw [hstep, hd, ih]
    rfl

theorem digits_of_grouped {cs : List Char} {ds : List Nat} (h : Grouped cs ds)
    (hfirst : ∃ c rest, cs = c :: rest ∧ (decimal c).isSome) : digits cs = some ds := by
  obtain ⟨c, rest, rfl, hc⟩ := hfirst
  cases h with
  | digit hd hrest =>
    rw [digits, hd, moreDigits_of_grouped hrest]
    rfl
  | underscore => exact absurd hc (by decide +kernel)

theorem Grouped.last {cs : List Char} {ds : List Nat} (h : Grouped cs ds) (hne : cs ≠ []) :
    (decimal (cs.getLast hne)).isSome := by
  induction h with
  | nil => exact absurd rfl hne
  | @digit c d cs ds hd _ ih =>
    cases cs with
    | nil => exact hd ▸ rfl
    | cons c' cs => exact ih (List.cons_ne_nil _ _)
  | @underscore c d cs ds hd _ ih =>
    cases cs with
    | nil => exact hd ▸ rfl
    | cons c' cs => exact ih (List.cons_ne_nil _ _)

/-- Stripping finds the part between the spaces, if it starts and ends with something else. -/
theorem stripBy_core {space : Char → Bool} {before core after : List Char} (hne : core ≠ [])
    (hbefore : ∀ c ∈ before, space c = true) (hhead : space (core.head hne) = false)
    (hlast : space (core.getLast hne) = false) (hafter : ∀ c ∈ after, space c = true) :
    stripBy space (before ++ (core ++ after)) = core := by
  have hfront : (before ++ (core ++ after)).dropWhile space = core ++ after := by
    rw [List.dropWhile_append_of_pos hbefore]
    obtain ⟨c, rest, rfl⟩ := List.exists_cons_of_ne_nil hne
    exact List.dropWhile_cons_of_neg (by simpa using hhead)
  have hback : (after.reverse ++ core.reverse).dropWhile space = core.reverse := by
    rw [List.dropWhile_append_of_pos fun c hc => hafter c (List.mem_reverse.mp hc)]
    obtain ⟨init, c, rfl⟩ := (List.eq_nil_or_concat' core).resolve_left hne
    rw [List.reverse_append]
    refine List.dropWhile_cons_of_neg ?_
    simpa using hlast
  rw [stripBy, hfront, List.rdropWhile, List.reverse_append, hback, List.reverse_reverse]

theorem stripBy_eq_self {space : Char → Bool} {cs : List Char} (h : ∀ c ∈ cs, space c = false) :
    stripBy space cs = cs := by
  by_cases hne : cs = []
  · rw [hne]
    rfl
  · have hcore := @stripBy_core space [] cs [] hne (by simp) (h _ (List.head_mem hne)) (h _ (List.getLast_mem hne))
      (by simp)
    simpa using hcore

theorem not_space_of_decimal {c : Char} (h : (decimal c).isSome) : isIntSpace c = false := by
  cases hspace : isIntSpace c with
  | false => rfl
  | true =>
    rw [decimal_of_space (isSpace_of_int hspace)] at h
    cases h

/-- **Exactly what `int` reads.** -/
theorem int_ok_iff {text : String} {n : Int} : int text = .ok n ↔ Reads text.toList n := by
  constructor
  · intro h
    obtain ⟨before, after, hspelled, hbefore, hafter⟩ := stripBy_spelled isIntSpace text.toList
    obtain ⟨sign, hsign, hsigned⟩ := signed_sign (stripBy isIntSpace text.toList)
    unfold int at h
    dsimp only at h
    split at h
    · cases h
    · rename_i ds hds
      split at h
      · cases h
      · rename_i hshort
        obtain ⟨hgrouped, hfirst⟩ := digits_grouped hds
        refine ⟨before, sign, _, after, _, ds, ⟨?_, hbefore, hsign, hgrouped, hfirst, hafter, not_lt.mp hshort⟩,
          (Except.ok.inj h).symm⟩
        rw [← List.append_assoc sign, ← hsigned]
        exact hspelled
  · -- neither end of sign and body is a space, so stripping leaves just these
    rintro ⟨before, sign, body, after, factor, ds, hliteral, rfl⟩
    obtain ⟨c, rest, hbody, hc⟩ := hliteral.first
    have hne : sign ++ body ≠ [] := by
      rw [hbody]
      simp
    have hlast : isIntSpace ((sign ++ body).getLast hne) = false := by
      have hbodyne : body ≠ [] := hbody ▸ List.cons_ne_nil _ _
      rw [List.getLast_append_of_right_ne_nil _ _ hbodyne]
      exact not_space_of_decimal (hliteral.digits.last hbodyne)
    have hhead : isIntSpace ((sign ++ body).head hne) = false := by
      cases hliteral.sign with
      | plus => exact (by decide : isIntSpace '+' = false)
      | minus => exact (by decide : isIntSpace '-' = false)
      | none =>
        subst hbody
        exact not_space_of_decimal hc
    have hstrip : stripBy isIntSpace text.toList = sign ++ body := by
      rw [hliteral.spelled, ← List.append_assoc sign]
      exact stripBy_core hne hliteral.before hhead hlast hliteral.after
    unfold int
    rw [hstrip, signed_of_sign hliteral.sign hliteral.first]
    dsimp only
    rw [digits_of_grouped hliteral.digits hliteral.first]
    dsimp only
    rw [if_neg (not_lt.mpr hliteral.short)]

/-- **What `int` accepts**, when no minus sign stands in the text. -/
theorem int_ok {text : String} {n : Int} (h : int text = .ok n) (hminus : '-' ∉ text.toList) :
    ∃ before plus body after ds, Numeral text.toList before plus body after ds ∧ n = Decimal.value ds := by
  obtain ⟨before, sign, body, after, factor, ds, hliteral, rfl⟩ := int_ok_iff.mp h
  have hsign : factor = 1 ∧ (sign = [] ∨ sign = ['+']) := by
    cases hliteral.sign with
    | none => exact ⟨rfl, Or.inl rfl⟩
    | plus => exact ⟨rfl, Or.inr rfl⟩
    | minus =>
      refine absurd ?_ hminus
      rw [hliteral.spelled]
      simp
  obtain ⟨rfl, hplus⟩ := hsign
  exact ⟨before, sign, body, after, ds, ⟨hliteral.spelled, hliteral.before, hplus, hliteral.digits, hliteral.first,
    hliteral.after⟩, one_mul _⟩

end Numerals

end SlrBooking
