/-
# `int()` of a text, and what the interpreter refuses for its size

`int(s)` takes any decimal digit and any white space of Unicode: the text is first turned into
ASCII, character by character, and then read as a literal with an optional sign and single
underscores between digits.  The tables are those of Unicode 14, which Python 3.11 has.

`Limits` are the bounds an interpreter sets for integers and for nesting.  Each may be switched
off; a statement about an interpreter is about every `Limits`.
-/
import AegisShield.Lib.Json
import AegisShield.Lib.CodePoint

namespace Lib

/-! ## 1. Limits -/

/-- What the interpreter refuses for its size. -/
structure Limits where
  /-- `sys.get_int_max_str_digits()`: a decimal literal of more digits is a `ValueError`. -/
  digits : Option Nat
  /-- A text with more containers inside one another is a `RecursionError` in `json.loads`. -/
  loads : Option Nat
  /-- A value with more containers inside one another is a `RecursionError` in `json.dumps`. -/
  dumps : Option Nat
  deriving DecidableEq, Repr

namespace Limits

/-- Nothing is refused. -/
def off : Limits := ⟨none, none, none⟩

/-- A size is not over a limit. -/
def Admits (limit : Option Nat) (size : Nat) : Prop := ∀ bound ∈ limit, size ≤ bound

instance (limit : Option Nat) (size : Nat) : Decidable (Admits limit size) :=
  match limit with
  | none => .isTrue nofun
  | some bound => decidable_of_iff (size ≤ bound) ⟨fun h _ hb => Option.some.inj hb ▸ h, fun h => h _ rfl⟩

@[simp] theorem admits_none (size : Nat) : Admits none size := nofun

end Limits

/-! ## 2. Digits and spaces -/

/-- The zeros of Unicode.  Behind each stand the other nine digits. -/
def decimalZeros : List Nat :=
  [0x30, 0x660, 0x6F0, 0x7C0, 0x966, 0x9E6, 0xA66, 0xAE6, 0xB66, 0xBE6, 0xC66, 0xCE6, 0xD66, 0xDE6,
    0xE50, 0xED0, 0xF20, 0x1040, 0x1090, 0x17E0, 0x1810, 0x1946, 0x19D0, 0x1A80, 0x1A90, 0x1B50,
    0x1BB0, 0x1C40, 0x1C50, 0xA620, 0xA8D0, 0xA900, 0xA9D0, 0xA9F0, 0xAA50, 0xABF0, 0xFF10, 0x104A0,
    0x10D30, 0x11066, 0x110F0, 0x11136, 0x111D0, 0x112F0, 0x11450, 0x114D0, 0x11650, 0x116C0,
    0x11730, 0x118E0, 0x11950, 0x11C50, 0x11D50, 0x11DA0, 0x16A60, 0x16AC0, 0x16B50, 0x1D7CE,
    0x1D7D8, 0x1D7E2, 0x1D7EC, 0x1D7F6, 0x1E140, 0x1E2F0, 0x1E950, 0x1FBF0]

/-- The white space past ASCII. -/
def wideSpaces : List Nat :=
  [0x85, 0xA0, 0x1680, 0x2000, 0x2001, 0x2002, 0x2003, 0x2004, 0x2005, 0x2006, 0x2007, 0x2008,
    0x2009, 0x200A, 0x2028, 0x2029, 0x202F, 0x205F, 0x3000]

namespace CodePoint

/-- `unicodedata.decimal(c)`. -/
def decimal (c : CodePoint) : Option Nat :=
  (decimalZeros.find? fun z => z ≤ c.val && c.val < z + 10).map (c.val - ·)

/-- The character that stands for a code point in a literal, if there is one. -/
def ascii (c : CodePoint) : Option Char :=
  if c.val < 127 then some (Char.ofNat c.val)
  else if c.val ∈ wideSpaces then some ' '
  else c.decimal.map Nat.digitChar

end CodePoint

/-! ## 3. Literals -/

/-- The white space around a literal, in ASCII. -/
def isPySpace (c : Char) : Bool := c = ' ' || ('\t' ≤ c && c ≤ '\x0d')

/-- The digits of a literal with single underscores between them. -/
def decimalDigits : List Char → Option (List Char)
  | [] => none
  | [c] => if isDigit c then some [c] else none
  | c :: '_' :: d :: rest =>
    if isDigit c then (decimalDigits (d :: rest)).map (c :: ·) else none
  | c :: rest => if isDigit c then (decimalDigits rest).map (c :: ·) else none

/-- The number of a literal without its sign. -/
def natOfLiteral (lim : Limits) (cs : List Char) : Option Nat := do
  let ds ← decimalDigits cs
  if Limits.Admits lim.digits ds.length then some (natOfText ds) else none

/-- `int(s)` for a `str`. -/
def intOfStr (lim : Limits) (s : PyStr) : Option Int := do
  let cs ← s.mapM CodePoint.ascii
  match ((cs.dropWhile isPySpace).reverse.dropWhile isPySpace).reverse with
  | '-' :: ds => (natOfLiteral lim ds).map fun n : Nat => -(n : Int)
  | '+' :: ds => (natOfLiteral lim ds).map fun n : Nat => (n : Int)
  | ds => (natOfLiteral lim ds).map fun n : Nat => (n : Int)

theorem not_high_of_ascii {c : CodePoint} {d : Char} (h : c.ascii = some d) :
    ¬ CodePoint.IsHigh c.val := by
  rintro ⟨hlow, hhigh⟩
  have hspace : ∀ n ∈ wideSpaces, n < 0xD800 := by decide
  have hzero : ∀ z ∈ decimalZeros, z + 10 ≤ 0xD800 ∨ 0xDC00 ≤ z := by decide
  rw [CodePoint.ascii, if_neg (by omega),
    if_neg fun hmem => absurd (hspace _ hmem) (Nat.not_lt.mpr hlow)] at h
  obtain ⟨n, hn, -⟩ := Option.map_eq_some_iff.mp h
  obtain ⟨z, hz, -⟩ := Option.map_eq_some_iff.mp hn
  have hfound := List.find?_some hz
  simp only [Bool.and_eq_true, decide_eq_true_eq] at hfound
  have := hzero z (List.mem_of_find?_eq_some hz)
  omega

/-- No literal has a surrogate in it. -/
theorem not_high_of_intOfStr {lim : Limits} {s : PyStr} {i : Int} (h : intOfStr lim s = some i) :
    ∀ c ∈ s, ¬ CodePoint.IsHigh c.val := by
  obtain ⟨cs, hcs, -⟩ := Option.bind_eq_some_iff.mp h
  have hall : ∀ {s : PyStr} {cs : List Char}, s.mapM CodePoint.ascii = some cs →
      ∀ c ∈ s, ¬ CodePoint.IsHigh c.val := by
    intro s
    induction s with
    | nil => exact fun _ c hc => absurd hc List.not_mem_nil
    | cons c s ih =>
      intro cs h e he
      rw [List.mapM_cons] at h
      obtain ⟨d, hd, h⟩ := Option.bind_eq_some_iff.mp h
      obtain ⟨ds, hds, -⟩ := Option.bind_eq_some_iff.mp h
      rcases List.mem_cons.mp he with rfl | he
      · exact not_high_of_ascii hd
      · exact ih hds e he
  exact hall hcs

theorem natOfLiteral_off_of_some {lim : Limits} {cs : List Char} {n : Nat}
    (h : natOfLiteral lim cs = some n) : natOfLiteral .off cs = some n := by
  obtain ⟨ds, hds, h⟩ := Option.bind_eq_some_iff.mp h
  refine Option.bind_eq_some_iff.mpr ⟨ds, hds, ?_⟩
  split at h
  · exact (if_pos (Limits.admits_none _)).trans h
  · cases h

/-- A literal that is read is read the same without limits. -/
theorem intOfStr_off_of_some {lim : Limits} {s : PyStr} {i : Int} (h : intOfStr lim s = some i) :
    intOfStr .off s = some i := by
  obtain ⟨cs, hcs, h⟩ := Option.bind_eq_some_iff.mp h
  refine Option.bind_eq_some_iff.mpr ⟨cs, hcs, ?_⟩
  split at h
  all_goals
    obtain ⟨n, hn, rfl⟩ := Option.map_eq_some_iff.mp h
    simp only [natOfLiteral_off_of_some hn, Option.map_some]

/-- An Arabic-Indic one and a fullwidth two, between an ideographic space and a no-break space. -/
example : intOfStr .off [0x3000, 0x661, 0xFF12, 0xA0] = some 12 := by decide

end Lib
