/-
# Text with surrogates

A Python `str` is a sequence of code points, and a surrogate is one of them: `json.loads` decodes
`bytes` with the handler `surrogatepass`, and an escape `\ud83d` alone is a character.  `String`
has no such values.  Where a statement is about EVERY text a file can hold, this is the text it
is about:

* `PyStr`, the code points;
* `PyStr.units`, its UTF-16 code units.  Two texts have the same units exactly if they differ in
  nothing but whether a pair of surrogates stands for the character past the first plane, and
  units are what `ensure_ascii` prints;
* `PyStr.decode`, `json.detect_encoding` followed by `bytes.decode(.., "surrogatepass")`.
-/
import AegisShield.Lib.Text
import Mathlib.Data.List.Lex

namespace Lib

/-- A code point, surrogates included. -/
abbrev CodePoint := Fin 0x110000

/-- A UTF-16 code unit. -/
abbrev CodeUnit := Fin 0x10000

/-- A Python `str`. -/
abbrev PyStr := List CodePoint

/-! ## 1. Characters -/

namespace CodePoint

/-- The code point of a character. -/
def ofChar (c : Char) : CodePoint := ⟨c.toNat, by
  rcases c.valid with h | ⟨-, h⟩
  · exact Nat.lt_trans h (by decide)
  · exact h⟩

/-- The character, unless the code point is a surrogate. -/
def char (c : CodePoint) : Option Char := scalar c.val

/-- A code point from a number, if there is one. -/
def ofNat (n : Nat) : Option CodePoint := if h : n < 0x110000 then some ⟨n, h⟩ else none

/-- The first half of a pair. -/
def IsHigh (n : Nat) : Prop := 0xD800 ≤ n ∧ n < 0xDC00

/-- The second half. -/
def IsLow (n : Nat) : Prop := 0xDC00 ≤ n ∧ n < 0xE000

instance (n : Nat) : Decidable (IsHigh n) := inferInstanceAs (Decidable (_ ∧ _))

instance (n : Nat) : Decidable (IsLow n) := inferInstanceAs (Decidable (_ ∧ _))

/-- The code point of one code unit. -/
def ofUnit (u : Nat) : CodePoint := Fin.ofNat 0x110000 u

/-- The code point a pair of surrogates stands for. -/
def ofPair (hi lo : Nat) : CodePoint :=
  Fin.ofNat 0x110000 (0x10000 + (hi - 0xD800) * 0x400 + (lo - 0xDC00))

/-- The code units of a code point: itself, or a pair of surrogates past the first plane. -/
def units (c : CodePoint) : List CodeUnit :=
  if h : c.val < 0x10000 then [⟨c.val, h⟩]
  else
    [⟨0xD800 + (c.val - 0x10000) / 0x400, by have := c.isLt; omega⟩,
      ⟨0xDC00 + (c.val - 0x10000) % 0x400, by have := c.isLt; omega⟩]

theorem ofChar_injective {c d : Char} (h : ofChar c = ofChar d) : c = d := by
  have hval : (ofChar c).val = (ofChar d).val := congrArg _ h
  exact Char.toNat_inj.mp hval

@[simp] theorem ofChar_inj {c d : Char} : ofChar c = ofChar d ↔ c = d :=
  ⟨ofChar_injective, congrArg _⟩

theorem ofChar_lt {c d : Char} : ofChar c < ofChar d ↔ c < d := Iff.rfl

@[simp] theorem char_ofChar (c : Char) : (ofChar c).char = some c :=
  (if_pos c.valid).trans (congrArg some (Char.ofNat_toNat c))

/-- The number of a character. -/
theorem val_of_scalar {n : Nat} {c : Char} (h : scalar n = some c) : (ofChar c).val = n := by
  rw [scalar] at h
  split at h
  · rename_i hvalid
    cases h
    change (Char.ofNat n).toNat = n
    rw [Char.ofNat, dif_pos hvalid]
    rfl
  · cases h

theorem ofNat_of_scalar {n : Nat} {c : Char} (h : scalar n = some c) : ofNat n = some (ofChar c) := by
  have hval := val_of_scalar h
  subst hval
  exact dif_pos (ofChar c).isLt

/-- A number that is reduced, and is a character. -/
theorem ofNat_mod_of_scalar {n : Nat} {c : Char} (h : scalar n = some c) :
    Fin.ofNat 0x110000 n = ofChar c := by
  have hval := val_of_scalar h
  subst hval
  exact Fin.ext (Nat.mod_eq_of_lt (ofChar c).isLt)

end CodePoint

namespace PyStr

/-- A `str` without surrogates. -/
def ofString (s : String) : PyStr := s.toList.map CodePoint.ofChar

/-- The characters of a `str`, if none is a surrogate. -/
def chars (s : PyStr) : Option (List Char) := s.mapM CodePoint.char

/-- The UTF-16 code units. -/
def units (s : PyStr) : List CodeUnit := s.flatMap CodePoint.units

/-! ## 2. Decoding -/

/-- A continuation byte. -/
def isTail (b : UInt8) : Bool := 0x80 ≤ b && b < 0xC0

/-- `bytes.decode("utf-8", "surrogatepass")`: the shortest form of every code point. -/
def decodeUtf8 : Bytes → Option PyStr
  | [] => some []
  | a :: as =>
    if a < 0x80 then (decodeUtf8 as).map (Fin.ofNat 0x110000 a.toNat :: ·)
    else match as with
      | [] => none
      | b :: bs =>
        if 0xC2 ≤ a ∧ a < 0xE0 ∧ isTail b then
          (decodeUtf8 bs).map (Fin.ofNat 0x110000 ((a.toNat - 0xC0) * 64 + (b.toNat - 0x80)) :: ·)
        else match bs with
          | [] => none
          | c :: cs =>
            let three := (a.toNat - 0xE0) * 4096 + (b.toNat - 0x80) * 64 + (c.toNat - 0x80)
            if 0xE0 ≤ a ∧ a < 0xF0 ∧ isTail b ∧ isTail c ∧ 0x800 ≤ three then
              (decodeUtf8 cs).map (Fin.ofNat 0x110000 three :: ·)
            else match cs with
              | [] => none
              | d :: ds =>
                let four := (a.toNat - 0xF0) * 262144 + (b.toNat - 0x80) * 4096 +
                  (c.toNat - 0x80) * 64 + (d.toNat - 0x80)
                if 0xF0 ≤ a ∧ a < 0xF5 ∧ isTail b ∧ isTail c ∧ isTail d ∧ 0x10000 ≤ four then
                  (CodePoint.ofNat four).bind fun p => (decodeUtf8 ds).map (p :: ·)
                else none

/-- The code points of a sequence of UTF-16 code units: an unpaired surrogate is one. -/
def ofUnits : List Nat → PyStr
  | [] => []
  | [u] => [Fin.ofNat 0x110000 u]
  | u :: v :: us =>
    if CodePoint.IsHigh u ∧ CodePoint.IsLow v then CodePoint.ofPair u v :: ofUnits us
    else Fin.ofNat 0x110000 u :: ofUnits (v :: us)

/-- `bytes.decode("utf-16-be", "surrogatepass")` and its little-endian counterpart. -/
def decodeUtf16 (big : Bool) (bs : Bytes) : Option PyStr := (units16 big bs).map ofUnits

/-- `bytes.decode("utf-32-be", "surrogatepass")` and its little-endian counterpart. -/
def decodeUtf32 (big : Bool) : Bytes → Option PyStr
  | [] => some []
  | a :: b :: c :: d :: rest => do
    let hi := (if big then a else d).toNat * 256 + (if big then b else c).toNat
    let lo := (if big then c else b).toNat * 256 + (if big then d else a).toNat
    let p ← CodePoint.ofNat (hi * 65536 + lo)
    return p :: (← decodeUtf32 big rest)
  | _ => none

/-- `json.detect_encoding` followed by `bytes.decode`. -/
def decode (bs : Bytes) : Option PyStr :=
  if bs.take 4 = [0x00, 0x00, 0xFE, 0xFF] then decodeUtf32 true (bs.drop 4)
  else if bs.take 4 = [0xFF, 0xFE, 0x00, 0x00] then decodeUtf32 false (bs.drop 4)
  else if bs.take 2 = [0xFE, 0xFF] then decodeUtf16 true (bs.drop 2)
  else if bs.take 2 = [0xFF, 0xFE] then decodeUtf16 false (bs.drop 2)
  else if bs.take 3 = [0xEF, 0xBB, 0xBF] then decodeUtf8 (bs.drop 3)
  else match bs with
    | a :: b :: c :: d :: _ =>
      if a = 0 then (if b = 0 then decodeUtf32 true bs else decodeUtf16 true bs)
      else if b = 0 then (if c = 0 ∧ d = 0 then decodeUtf32 false bs else decodeUtf16 false bs)
      else decodeUtf8 bs
    | [a, b] =>
      if a = 0 then decodeUtf16 true bs
      else if b = 0 then decodeUtf16 false bs
      else decodeUtf8 bs
    | _ => decodeUtf8 bs

example : decode [0xED, 0xA0, 0xBD] = some [0xD83D] := by decide

/-! ## 3. What the code units determine -/

theorem units_cons (c : CodePoint) (s : PyStr) : units (c :: s) = c.units ++ units s := rfl

end PyStr

namespace CodePoint

theorem units_ne_nil (c : CodePoint) : c.units ≠ [] := by
  unfold units
  split <;> simp

/-- Nothing but a high surrogate can pass for the first half of another character. -/
theorem units_append_inj {c d : CodePoint} {r r' : List CodeUnit} (hc : ¬ IsHigh c.val)
    (hd : ¬ IsHigh d.val) (h : c.units ++ r = d.units ++ r') : c = d ∧ r = r' := by
  simp only [IsHigh] at hc hd
  have hc' := c.isLt
  have hd' := d.isLt
  simp only [units] at h
  split at h <;> split at h <;> simp only [List.cons_append, List.nil_append, List.cons.injEq,
    Fin.mk.injEq] at h
  · exact ⟨Fin.ext h.1, h.2⟩
  · omega
  · omega
  · exact ⟨Fin.ext (by omega), h.2.2⟩

end CodePoint

namespace PyStr

/-- **Texts without high surrogates are their code units.** -/
theorem units_inj : ∀ {s t : PyStr}, (∀ c ∈ s, ¬ CodePoint.IsHigh c.val) →
    (∀ c ∈ t, ¬ CodePoint.IsHigh c.val) → units s = units t → s = t
  | [], [], _, _, _ => rfl
  | [], d :: t, _, _, h => by
    rw [units_cons] at h
    exact absurd (List.append_eq_nil_iff.mp h.symm).1 d.units_ne_nil
  | c :: s, [], _, _, h => by
    rw [units_cons] at h
    exact absurd (List.append_eq_nil_iff.mp h).1 c.units_ne_nil
  | c :: s, d :: t, hs, ht, h => by
    obtain ⟨rfl, hrest⟩ := CodePoint.units_append_inj (hs c List.mem_cons_self)
      (ht d List.mem_cons_self) h
    rw [units_inj (fun c hc => hs c (List.mem_cons_of_mem _ hc))
      (fun c hc => ht c (List.mem_cons_of_mem _ hc)) hrest]

/-- Every code point is below the surrogates. -/
def Plain (s : PyStr) : Prop := ∀ c ∈ s, c.val < 0xD800

instance : DecidablePred Plain := fun s => inferInstanceAs (Decidable (∀ c ∈ s, c.val < 0xD800))

theorem Plain.not_high {s : PyStr} (h : Plain s) : ∀ c ∈ s, ¬ CodePoint.IsHigh c.val :=
  fun c hc hhigh => absurd (h c hc) (Nat.not_lt.mpr hhigh.1)

theorem Plain.units_lt {s : PyStr} (h : Plain s) : ∀ u ∈ units s, u.val < 0xD800 := by
  intro u hu
  obtain ⟨c, hc, hu⟩ := List.mem_flatMap.mp hu
  have hlt := h c hc
  rw [CodePoint.units, dif_pos (by omega), List.mem_singleton] at hu
  rw [hu]
  exact hlt

/-- A plain text is the only one with its code units. -/
theorem Plain.eq_of_units {s k : PyStr} (hk : Plain k) (h : units s = units k) : s = k := by
  refine units_inj ?_ hk.not_high h
  intro c hc hhigh
  have hmem : (⟨c.val, by have := hhigh.2; omega⟩ : CodeUnit) ∈ units s := by
    refine List.mem_flatMap.mpr ⟨c, hc, ?_⟩
    rw [CodePoint.units, dif_pos (by have := hhigh.2; omega)]
    exact List.mem_singleton.mpr rfl
  rw [h] at hmem
  exact absurd (hk.units_lt _ hmem) (Nat.not_lt.mpr hhigh.1)

/-- Texts with the same code units are on the same side of a plain one. -/
theorem Plain.lt_of_units : ∀ {k s t : PyStr}, Plain k → units s = units t → s < k → t < k
  | _, [], [], _, _, h => h
  | k, [], d :: t, _, hu, _ => by
    rw [units_cons] at hu
    exact absurd (List.append_eq_nil_iff.mp hu.symm).1 d.units_ne_nil
  | _, c :: s, [], _, hu, _ => by
    rw [units_cons] at hu
    exact absurd (List.append_eq_nil_iff.mp hu).1 c.units_ne_nil
  | [], c :: s, d :: t, _, _, h => absurd h (List.not_lt_nil _)
  | e :: k, c :: s, d :: t, hk, hu, h => by
    have he := hk e List.mem_cons_self
    have hc : c.val < 0xD800 := by
      rcases List.cons_lt_cons_iff.mp h with hlt | ⟨rfl, -⟩
      · exact Nat.lt_trans hlt he
      · exact he
    -- a character below the surrogates is its only code unit
    have hcd : c = d ∧ units s = units t := by
      rw [units_cons, units_cons] at hu
      refine CodePoint.units_append_inj (fun hh => ?_) (fun hh => ?_) hu
      · have := hh.1; omega
      · rw [CodePoint.units, dif_pos (by omega), CodePoint.units,
          dif_pos (by have := hh.2; omega)] at hu
        have hval : c.val = d.val := Fin.mk.inj (List.cons.inj hu).1
        have := hh.1
        omega
    obtain ⟨rfl, hst⟩ := hcd
    rcases List.cons_lt_cons_iff.mp h with hlt | ⟨rfl, hlt⟩
    · exact List.cons_lt_cons_iff.mpr (Or.inl hlt)
    · have ih := lt_of_units (fun c hc => hk c (List.mem_cons_of_mem _ hc)) hst hlt
      exact List.cons_lt_cons_iff.mpr (Or.inr ⟨rfl, ih⟩)

/-! ## 4. Texts that are strings -/

theorem not_high_of_scalar {n : Nat} {c : Char} (h : scalar n = some c) : ¬ CodePoint.IsHigh n := by
  rintro ⟨hlo, hhi⟩
  rw [scalar, if_neg] at h
  · cases h
  · rintro (hn | ⟨hn, -⟩)
    · omega
    · omega

theorem not_high_of_chars : ∀ {s : PyStr} {cs : List Char}, chars s = some cs →
    ∀ c ∈ s, ¬ CodePoint.IsHigh c.val
  | [], _, _ => by simp
  | c :: s, cs, h => by
    rw [chars, List.mapM_cons] at h
    obtain ⟨d, hd, h⟩ := Option.bind_eq_some_iff.mp h
    obtain ⟨ds, hds, -⟩ := Option.bind_eq_some_iff.mp h
    intro e he
    rcases List.mem_cons.mp he with rfl | he
    · exact not_high_of_scalar hd
    · exact not_high_of_chars hds e he

/-- Two texts of characters with the same code units are one text. -/
theorem eq_of_chars {s t : PyStr} {cs ds : List Char} (hs : chars s = some cs)
    (ht : chars t = some ds) (h : units s = units t) : s = t :=
  units_inj (not_high_of_chars hs) (not_high_of_chars ht) h

theorem chars_ofString (s : String) : chars (ofString s) = some s.toList := by
  have hmap : ∀ cs : List Char, chars (cs.map CodePoint.ofChar) = some cs := by
    intro cs
    induction cs with
    | nil => rfl
    | cons c cs ih =>
      rw [chars] at ih
      rw [List.map_cons, chars, List.mapM_cons, CodePoint.char_ofChar, ih]
      rfl
  exact hmap s.toList

theorem plain_ofString {s : String} (h : s.toList.all fun c => c.toNat < 128) :
    Plain (ofString s) := by
  intro c hc
  obtain ⟨d, hd, rfl⟩ := List.mem_map.mp hc
  have hlt := of_decide_eq_true (List.all_eq_true.mp h d hd)
  exact Nat.lt_trans hlt (by decide)

/-- A string is determined by the code units of its text. -/
theorem ofString_inj {s t : String} (h : units (ofString s) = units (ofString t)) : s = t := by
  have heq := eq_of_chars (chars_ofString s) (chars_ofString t) h
  have hchars := chars_ofString s
  rw [heq, chars_ofString t] at hchars
  exact String.toList_inj.mp (Option.some.inj hchars).symm

/-! ## 5. Decoding them -/

theorem toNat_byte {n : Nat} (h : n < 256) : (UInt8.ofNat n).toNat = n := by
  rw [UInt8.toNat_ofNat', Nat.mod_eq_of_lt h]

theorem isTail_byte {n : Nat} (h : n < 64) : isTail (UInt8.ofNat (n + 0x80)) = true := by
  have hn := toNat_byte (n := n + 0x80) (by omega)
  simp only [isTail, Bool.and_eq_true, decide_eq_true_eq, UInt8.le_iff_toNat_le,
    UInt8.lt_iff_toNat_lt, hn]
  constructor
  · exact Nat.le_add_left _ _
  · exact Nat.lt_of_lt_of_eq (Nat.add_lt_add_right h _) rfl

theorem decodeUtf8_two {a b : UInt8} (ha : 0xC2 ≤ a ∧ a < 0xE0) (hb : isTail b = true) (bs : Bytes) :
    decodeUtf8 (a :: b :: bs) = (decodeUtf8 bs).map
      (Fin.ofNat 0x110000 ((a.toNat - 0xC0) * 64 + (b.toNat - 0x80)) :: ·) := by
  have hlow : ¬ a < 0x80 := UInt8.not_lt.mpr (UInt8.le_trans (by decide) ha.1)
  rw [decodeUtf8.eq_def]
  simp only [hlow, if_false, ha.1, ha.2, hb, and_self, if_true]

theorem decodeUtf8_three {a b c : UInt8} (ha : 0xE0 ≤ a ∧ a < 0xF0) (hb : isTail b = true)
    (hc : isTail c = true) {n : Nat}
    (hn : n = (a.toNat - 0xE0) * 4096 + (b.toNat - 0x80) * 64 + (c.toNat - 0x80)) (h : 0x800 ≤ n)
    (bs : Bytes) :
    decodeUtf8 (a :: b :: c :: bs) = (decodeUtf8 bs).map (Fin.ofNat 0x110000 n :: ·) := by
  have hlow : ¬ a < 0x80 := UInt8.not_lt.mpr (UInt8.le_trans (by decide) ha.1)
  have htwo : ¬ a < 0xE0 := UInt8.not_lt.mpr ha.1
  rw [decodeUtf8.eq_def]
  simp only [hlow, htwo, false_and, and_false, if_false, ← hn, ha.1, ha.2, hb, hc, h, and_self,
    if_true]

theorem decodeUtf8_four {a b c d : UInt8} (ha : 0xF0 ≤ a ∧ a < 0xF5) (hb : isTail b = true)
    (hc : isTail c = true) (hd : isTail d = true) {n : Nat}
    (hn : n = (a.toNat - 0xF0) * 262144 + (b.toNat - 0x80) * 4096 + (c.toNat - 0x80) * 64 +
      (d.toNat - 0x80)) (h : 0x10000 ≤ n) (bs : Bytes) :
    decodeUtf8 (a :: b :: c :: d :: bs) =
      (CodePoint.ofNat n).bind fun p => (decodeUtf8 bs).map (p :: ·) := by
  have hlow : ¬ a < 0x80 := UInt8.not_lt.mpr (UInt8.le_trans (by decide) ha.1)
  have htwo : ¬ a < 0xE0 := UInt8.not_lt.mpr (UInt8.le_trans (by decide) ha.1)
  have hthree : ¬ a < 0xF0 := UInt8.not_lt.mpr ha.1
  rw [decodeUtf8.eq_def]
  simp only [hlow, htwo, hthree, false_and, and_false, if_false, ← hn, ha.1, ha.2, hb, hc, hd, h, and_self,
    if_true]

theorem between_byte {n : Nat} (lo hi : Nat) (h : n < 256) (hlo : lo ≤ n) (hhi : n < hi) (hh : hi < 256) :
    UInt8.ofNat lo ≤ UInt8.ofNat n ∧ UInt8.ofNat n < UInt8.ofNat hi := by
  rw [UInt8.le_iff_toNat_le, UInt8.lt_iff_toNat_lt, toNat_byte h, toNat_byte (by omega),
    toNat_byte hh]
  exact ⟨hlo, hhi⟩

/-- One encoded character, in front of anything. -/
theorem decodeUtf8_cons (c : Char) (bs : Bytes) :
    decodeUtf8 (String.utf8EncodeChar c ++ bs) =
      (decodeUtf8 bs).map (CodePoint.ofChar c :: ·) := by
  have hlt : c.val.toNat < 0x110000 := (CodePoint.ofChar c).isLt
  have hpoint : ∀ n, n = c.val.toNat → Fin.ofNat 0x110000 n = CodePoint.ofChar c := by
    rintro n rfl
    exact Fin.ext (Nat.mod_eq_of_lt hlt)
  simp only [String.utf8EncodeChar]
  split_ifs with h1 h2 h3
  · have hbyte : UInt8.ofNat c.val.toNat < 0x80 := by
      rw [UInt8.lt_iff_toNat_lt, toNat_byte (by omega)]
      exact Nat.lt_succ_of_le h1
    rw [List.cons_append, List.nil_append, decodeUtf8.eq_def]
    simp only [hbyte, if_true, toNat_byte (show c.val.toNat < 256 by omega), hpoint _ rfl]
  · rw [List.cons_append, List.cons_append, List.nil_append,
      decodeUtf8_two (between_byte 0xC2 0xE0 (by omega) (by omega) (by omega) (by decide))
        (isTail_byte (by omega)), toNat_byte (by omega), toNat_byte (by omega), hpoint _ (by omega)]
  · rw [List.cons_append, List.cons_append, List.cons_append, List.nil_append,
      decodeUtf8_three (between_byte 0xE0 0xF0 (by omega) (by omega) (by omega) (by decide))
        (isTail_byte (by omega)) (isTail_byte (by omega)) (n := c.val.toNat) ?_ (by omega),
      hpoint _ rfl]
    rw [toNat_byte (by omega), toNat_byte (by omega), toNat_byte (by omega)]
    omega
  · rw [List.cons_append, List.cons_append, List.cons_append, List.cons_append, List.nil_append,
      decodeUtf8_four (between_byte 0xF0 0xF5 (by omega) (by omega) (by omega) (by decide))
        (isTail_byte (by omega)) (isTail_byte (by omega)) (isTail_byte (by omega))
        (n := c.val.toNat) ?_ (by omega), CodePoint.ofNat, dif_pos hlt]
    · rfl
    · rw [toNat_byte (by omega), toNat_byte (by omega), toNat_byte (by omega),
        toNat_byte (by omega)]
      omega

theorem decodeUtf8_utf8 (cs : List Char) : decodeUtf8 (utf8 cs) = some (cs.map CodePoint.ofChar) := by
  induction cs with
  | nil => rfl
  | cons c cs ih =>
    rw [utf8, List.flatMap_cons, ← utf8, decodeUtf8_cons, ih]
    rfl

theorem eq_utf8_of_decodeUtf8 {bs : Bytes} {cs : List Char} (h : Lib.decodeUtf8 bs = some cs) :
    bs = utf8 cs := by
  obtain ⟨chars, hchars, rfl⟩ := Option.map_eq_some_iff.mp h
  have hencode := ByteArray.utf8Encode_get_utf8Decode? (h := Option.isSome_of_mem hchars)
  rw [Option.get_of_mem _ hchars] at hencode
  have hlist := congrArg (fun b : ByteArray => b.data.toList) hencode
  rw [List.utf8Encode, List.data_toByteArray, List.toList_toArray] at hlist
  exact hlist.symm

theorem decodeUtf8_of_decodeUtf8 {bs : Bytes} {cs : List Char} (h : Lib.decodeUtf8 bs = some cs) :
    decodeUtf8 bs = some (cs.map CodePoint.ofChar) := by
  rw [eq_utf8_of_decodeUtf8 h, decodeUtf8_utf8]

theorem ofUnits_of_decodeUnits16 : ∀ {us : List Nat} {cs : List Char}, decodeUnits16 us = some cs →
    ofUnits us = cs.map CodePoint.ofChar
  | [], cs, h => by
    cases h
    rfl
  | [u], cs, h => by
    rw [decodeUnits16] at h
    split at h
    · cases h
    · obtain ⟨c, hc, h⟩ := Option.bind_eq_some_iff.mp h
      cases h
      rw [ofUnits, CodePoint.ofNat_mod_of_scalar hc]
      rfl
  | u :: v :: us, cs, h => by
    rw [decodeUnits16] at h
    split at h
    · rename_i hhigh
      split at h
      · rename_i hlow
        obtain ⟨c, hc, h⟩ := Option.bind_eq_some_iff.mp h
        obtain ⟨cs', hcs', h⟩ := Option.bind_eq_some_iff.mp h
        cases h
        have hpair : CodePoint.IsHigh u ∧ CodePoint.IsLow v := by
          simpa [CodePoint.IsHigh, CodePoint.IsLow] using And.intro hhigh hlow
        rw [ofUnits, if_pos hpair, CodePoint.ofPair, CodePoint.ofNat_mod_of_scalar hc,
          ofUnits_of_decodeUnits16 hcs']
        rfl
      · cases h
    · rename_i hhigh
      obtain ⟨c, hc, h⟩ := Option.bind_eq_some_iff.mp h
      obtain ⟨cs', hcs', h⟩ := Option.bind_eq_some_iff.mp h
      cases h
      have hpair : ¬ (CodePoint.IsHigh u ∧ CodePoint.IsLow v) := by
        rintro ⟨hu, -⟩
        exact hhigh (by simpa [CodePoint.IsHigh] using hu)
      rw [ofUnits, if_neg hpair, CodePoint.ofNat_mod_of_scalar hc, ofUnits_of_decodeUnits16 hcs']
      rfl

theorem decodeUtf16_of_decodeUtf16 {big : Bool} {bs : Bytes} {cs : List Char}
    (h : Lib.decodeUtf16 big bs = some cs) : decodeUtf16 big bs = some (cs.map CodePoint.ofChar) := by
  obtain ⟨us, hus, h⟩ := Option.bind_eq_some_iff.mp h
  rw [decodeUtf16, hus, Option.map_some, ofUnits_of_decodeUnits16 h]

theorem decodeUtf32_of_decodeUtf32 {big : Bool} : ∀ {bs : Bytes} {cs : List Char},
    Lib.decodeUtf32 big bs = some cs → decodeUtf32 big bs = some (cs.map CodePoint.ofChar)
  | [], cs, h => by
    cases h
    rfl
  | [_], cs, h | [_, _], cs, h | [_, _, _], cs, h => by cases h
  | a :: b :: c :: d :: rest, cs, h => by
    obtain ⟨ch, hch, h⟩ := Option.bind_eq_some_iff.mp h
    obtain ⟨cs', hcs', h⟩ := Option.bind_eq_some_iff.mp h
    cases h
    exact Option.bind_eq_some_iff.mpr ⟨_, CodePoint.ofNat_of_scalar hch,
      Option.bind_eq_some_iff.mpr ⟨_, decodeUtf32_of_decodeUtf32 hcs', rfl⟩⟩

theorem ite_eq_some_of {α β : Type} {p : Prop} [Decidable p] {a b : Option α} {a' b' : Option β}
    {x : α} {y : β} (ha : a = some x → a' = some y) (hb : b = some x → b' = some y)
    (h : (if p then a else b) = some x) : (if p then a' else b') = some y := by
  by_cases hp : p
  · rw [if_pos hp] at h ⊢
    exact ha h
  · rw [if_neg hp] at h ⊢
    exact hb h

/-- **Bytes that decode to characters decode to the same code points.** -/
theorem decode_of_decodeText {bs : Bytes} {cs : List Char} (h : decodeText bs = some cs) :
    decode bs = some (cs.map CodePoint.ofChar) := by
  have h8 : ∀ {bs : Bytes}, Lib.decodeUtf8 bs = some cs →
      decodeUtf8 bs = some (cs.map CodePoint.ofChar) := decodeUtf8_of_decodeUtf8
  have h16 : ∀ {big : Bool} {bs : Bytes}, Lib.decodeUtf16 big bs = some cs →
      decodeUtf16 big bs = some (cs.map CodePoint.ofChar) := decodeUtf16_of_decodeUtf16
  have h32 : ∀ {big : Bool} {bs : Bytes}, Lib.decodeUtf32 big bs = some cs →
      decodeUtf32 big bs = some (cs.map CodePoint.ofChar) := decodeUtf32_of_decodeUtf32
  revert h
  unfold decodeText decode
  -- both look for the same byte order marks, then at the same zero bytes
  refine ite_eq_some_of h32 (ite_eq_some_of h32 (ite_eq_some_of h16 (ite_eq_some_of h16
    (ite_eq_some_of h8 ?_))))
  match bs with
  | a :: b :: c :: d :: _ =>
    exact ite_eq_some_of (ite_eq_some_of h32 h16)
      (ite_eq_some_of (ite_eq_some_of h32 h16) h8)
  | [a, b] => exact ite_eq_some_of h16 (ite_eq_some_of h16 h8)
  | [] | [_] | [_, _, _] => exact h8
end PyStr

end Lib
