/-
# Bytes, lines and text

The files of the modelled program are byte strings that it reads back LINE BY LINE: a record is
one line, its newline is the last byte written, and everything that can go wrong after a power
cut is a statement about where the bytes stop relative to that newline.  This file has the
byte-level vocabulary:

* `splitLines` / `readline`: what Python's binary `readline()` returns, newline included;
* `utf8` and `decodeText`: `str.encode("utf-8")`, and the decoding `json.loads` applies to
  `bytes` (`json.detect_encoding`: UTF-8, UTF-16 or UTF-32, with or without a mark);
* `hex` / `fromHex`: `bytes.hex()` and `bytes.fromhex()`.

A text here is a Lean `String`, i.e. a sequence of Unicode scalar values, and the decoders refuse an
unpaired surrogate.  Python's do not: where a file may hold one, the text is a `PyStr` and the decoder
`PyStr.decode` (`CodePoint.lean`), which agrees with `decodeText` wherever that returns.
-/
import Mathlib.Data.List.Basic

namespace Lib

/-- A byte string. -/
abbrev Bytes := List UInt8

/-! ## 1. Lines -/

/-- The byte `\n`. -/
def newline : UInt8 := 10

/-- The lines of a file, each with its newline; the last one may lack it. -/
def splitLines : Bytes → List Bytes
  | [] => []
  | b :: bs =>
    if b = newline then [b] :: splitLines bs
    else match splitLines bs with
      | [] => [[b]]
      | l :: ls => (b :: l) :: ls

/-- The first line of what is left of a file: `handle.readline()`. -/
def readline (bs : Bytes) : Bytes := (splitLines bs).headD []

/-- A complete line: no newline but the last byte. -/
def IsLine (l : Bytes) : Prop := ∃ body, newline ∉ body ∧ l = body ++ [newline]

theorem splitLines_line : ∀ {body : Bytes} (rest : Bytes), newline ∉ body →
    splitLines (body ++ newline :: rest) = (body ++ [newline]) :: splitLines rest
  | [], rest, _ => by simp [splitLines]
  | b :: body, rest, h => by
    simp only [List.mem_cons, not_or] at h
    have ih := splitLines_line rest h.2
    simp [splitLines, Ne.symm h.1, ih]

/-- A file whose first bytes are a complete line starts with that line. -/
theorem IsLine.splitLines_append {l : Bytes} (h : IsLine l) (rest : Bytes) :
    splitLines (l ++ rest) = l :: splitLines rest := by
  obtain ⟨body, hb, rfl⟩ := h
  simpa using splitLines_line rest hb

/-- Bytes without a newline are one (unterminated) line. -/
theorem splitLines_tail : ∀ {t : Bytes}, newline ∉ t → t ≠ [] → splitLines t = [t]
  | [], _, h => absurd rfl h
  | [b], h, _ => by
    simp only [List.mem_singleton] at h
    simp [splitLines, Ne.symm h]
  | b :: c :: t, h, _ => by
    simp only [List.mem_cons, not_or] at h
    have ih : splitLines (c :: t) = [c :: t] :=
      splitLines_tail (by simp [h.2.1, h.2.2]) (by simp)
    rw [splitLines, if_neg (Ne.symm h.1), ih]

theorem IsLine.ne_nil {l : Bytes} (h : IsLine l) : l ≠ [] := by
  obtain ⟨body, _, rfl⟩ := h
  simp

/-- Reading a line back from the start of a complete one. -/
theorem IsLine.readline_append {l : Bytes} (h : IsLine l) (rest : Bytes) :
    readline (l ++ rest) = l := by
  simp [readline, h.splitLines_append]

theorem readline_tail {t : Bytes} (h : newline ∉ t) : readline t = t := by
  by_cases ht : t = []
  · subst ht; rfl
  · simp [readline, splitLines_tail h ht]

/-- An unterminated tail and the complete line written after it are read as ONE line. -/
theorem isLine_append_line {t l : Bytes} (ht : newline ∉ t) (hl : IsLine l) : IsLine (t ++ l) := by
  obtain ⟨body, hb, rfl⟩ := hl
  exact ⟨t ++ body, by simp [ht, hb], by simp⟩

/-- A strict prefix of a complete line has no newline. -/
theorem IsLine.not_mem_take {l : Bytes} (h : IsLine l) {k : Nat} (hk : k < l.length) :
    newline ∉ l.take k := by
  obtain ⟨body, hb, rfl⟩ := h
  have hle : k ≤ body.length := by simpa using Nat.lt_succ_iff.mp (by simpa using hk)
  rw [List.take_append_of_le_length hle]
  exact fun hm => hb (List.mem_of_mem_take hm)

/-- The lines are the file. -/
theorem flatten_splitLines : ∀ bs : Bytes, (splitLines bs).flatten = bs
  | [] => rfl
  | b :: bs => by
    have ih := flatten_splitLines bs
    rw [splitLines]
    split
    · simp [ih]
    · cases h : splitLines bs with
      | nil =>
        rw [h] at ih
        simpa using ih
      | cons l ls =>
        rw [h] at ih
        simpa using ih

/-- Behind its first line, a file has the other lines. -/
theorem splitLines_drop : ∀ {bs l : Bytes} {ls : List Bytes}, splitLines bs = l :: ls →
    splitLines (bs.drop l.length) = ls
  | b :: bs, l, ls, h => by
    rw [splitLines] at h
    split at h
    · cases h
      rfl
    · cases hs : splitLines bs with
      | nil =>
        rw [hs] at h
        cases h
        have hnil : bs = [] := by
          have hflat := flatten_splitLines bs
          rw [hs] at hflat
          exact hflat.symm
        rw [hnil]
        rfl
      | cons l' ls' =>
        rw [hs] at h
        cases h
        change splitLines (bs.drop l'.length) = ls
        exact splitLines_drop hs

theorem ne_nil_of_mem_splitLines : ∀ {bs l : Bytes}, l ∈ splitLines bs → l ≠ []
  | b :: bs, l, h => by
    rw [splitLines] at h
    split at h
    · rcases List.mem_cons.mp h with rfl | h
      · simp
      · exact ne_nil_of_mem_splitLines h
    · cases hs : splitLines bs with
      | nil =>
        rw [hs, List.mem_singleton] at h
        simp [h]
      | cons l' ls =>
        rw [hs] at h
        rcases List.mem_cons.mp h with rfl | h
        · simp
        · exact ne_nil_of_mem_splitLines (hs ▸ List.mem_cons_of_mem _ h)

/-- Every line but the last is complete. -/
theorem isLine_of_splitLines : ∀ {bs : Bytes} {pre : List Bytes} {last : Bytes},
    splitLines bs = pre ++ [last] → ∀ l ∈ pre, IsLine l
  | [], pre, last, h => by simp [splitLines] at h
  | b :: bs, pre, last, h => by
    intro l hl
    obtain ⟨p, pre, rfl⟩ := List.exists_cons_of_ne_nil (List.ne_nil_of_mem hl)
    rw [splitLines] at h
    split at h
    · rename_i hb
      obtain ⟨hp, hrest⟩ := List.cons.inj h
      rcases List.mem_cons.mp hl with rfl | hl
      · exact ⟨[], by simp, by rw [← hp, hb]; rfl⟩
      · exact isLine_of_splitLines hrest l hl
    · rename_i hb
      cases hs : splitLines bs with
      | nil =>
        rw [hs] at h
        simp at h
      | cons q qs =>
        rw [hs] at h
        obtain ⟨hp, hrest⟩ := List.cons.inj h
        have hbs : splitLines bs = (q :: pre) ++ [last] := by rw [hs, hrest]; rfl
        rcases List.mem_cons.mp hl with rfl | hl
        · obtain ⟨body, hbody, rfl⟩ := isLine_of_splitLines hbs q List.mem_cons_self
          refine ⟨b :: body, ?_, by rw [← hp]; rfl⟩
          simp [hbody, Ne.symm hb]
        · exact isLine_of_splitLines hbs l (List.mem_cons_of_mem _ hl)

/-- Complete lines are read back as they are, whatever follows them. -/
theorem splitLines_lines : ∀ {ls : List Bytes} (rest : Bytes), (∀ l ∈ ls, IsLine l) →
    splitLines (ls.flatten ++ rest) = ls ++ splitLines rest
  | [], _, _ => rfl
  | l :: ls, rest, h => by
    have ih := splitLines_lines rest fun l' hl' => h l' (List.mem_cons_of_mem _ hl')
    rw [List.flatten_cons, List.append_assoc, (h l List.mem_cons_self).splitLines_append, ih]
    rfl

/-- A complete line stays one, whatever is written behind the file. -/
theorem mem_splitLines_append {bs l : Bytes} (hl : IsLine l) (h : l ∈ splitLines bs)
    (rest : Bytes) : l ∈ splitLines (bs ++ rest) := by
  obtain ⟨pre, post, hsplit⟩ := List.append_of_mem h
  have hpre : ∀ l' ∈ pre, IsLine l' := by
    rcases List.eq_nil_or_concat post with rfl | ⟨post', last, rfl⟩
    · exact isLine_of_splitLines hsplit
    · have hsplit' : splitLines bs = (pre ++ l :: post') ++ [last] := by simp [hsplit]
      exact fun l' hl' => isLine_of_splitLines hsplit' l' (List.mem_append_left _ hl')
  have hlines : ∀ l' ∈ pre ++ [l], IsLine l' := by
    intro l' hl'
    rcases List.mem_append.mp hl' with hm | hm
    · exact hpre l' hm
    · rw [List.mem_singleton.mp hm]
      exact hl
  have hbs : bs ++ rest = (pre ++ [l]).flatten ++ (post.flatten ++ rest) := by
    have hflat := flatten_splitLines bs
    rw [hsplit] at hflat
    rw [← hflat]
    simp
  rw [hbs, splitLines_lines _ hlines]
  simp

/-- `bytes.isspace` characters: what `bytes.strip()` removes. -/
def isSpace (b : UInt8) : Bool := b = 32 || (9 ≤ b && b ≤ 13)

/-- `not raw.strip()`. -/
def blank (bs : Bytes) : Bool := bs.all isSpace

/-! ## 2. Encoding and decoding text -/

/-- `str.encode("utf-8")`. -/
def utf8 (cs : List Char) : Bytes := cs.flatMap String.utf8EncodeChar

/-- `bytes.decode("utf-8")`. -/
def decodeUtf8 (bs : Bytes) : Option (List Char) :=
  (ByteArray.mk bs.toArray).utf8Decode?.map Array.toList

/-- A Unicode scalar value, or nothing for a surrogate or a number past the last plane. -/
def scalar (n : Nat) : Option Char := if n.isValidChar then some (Char.ofNat n) else none

/-- The characters of a sequence of UTF-16 code units. -/
def decodeUnits16 : List Nat → Option (List Char)
  | [] => some []
  | u :: us =>
    if 0xD800 ≤ u && u < 0xDC00 then
      match us with
      | [] => none
      | v :: vs =>
        if 0xDC00 ≤ v && v < 0xE000 then do
          let c ← scalar (0x10000 + (u - 0xD800) * 0x400 + (v - 0xDC00))
          return c :: (← decodeUnits16 vs)
        else none
    else do
      let c ← scalar u
      return c :: (← decodeUnits16 us)

/-- Two-byte units, most significant byte first when `big`. -/
def units16 (big : Bool) : Bytes → Option (List Nat)
  | [] => some []
  | [_] => none
  | a :: b :: rest => do
    let u := if big then a.toNat * 256 + b.toNat else b.toNat * 256 + a.toNat
    return u :: (← units16 big rest)

/-- `bytes.decode("utf-16-be")` and `bytes.decode("utf-16-le")`. -/
def decodeUtf16 (big : Bool) (bs : Bytes) : Option (List Char) := do
  decodeUnits16 (← units16 big bs)

/-- `bytes.decode("utf-32-be")` and `bytes.decode("utf-32-le")`. -/
def decodeUtf32 (big : Bool) : Bytes → Option (List Char)
  | [] => some []
  | a :: b :: c :: d :: rest => do
    let hi := (if big then a else d).toNat * 256 + (if big then b else c).toNat
    let lo := (if big then c else b).toNat * 256 + (if big then d else a).toNat
    let ch ← scalar (hi * 65536 + lo)
    return ch :: (← decodeUtf32 big rest)
  | _ => none

/-- `json.detect_encoding` followed by `bytes.decode`, for texts without surrogates: a byte-order mark
decides, and failing that the pattern of zero bytes in the first four (or only two) bytes. -/
def decodeText (bs : Bytes) : Option (List Char) :=
  if bs.take 4 = [0x00, 0x00, 0xFE, 0xFF] then decodeUtf32 true (bs.drop 4)
  else if bs.take 4 = [0xFF, 0xFE, 0x00, 0x00] then decodeUtf32 false (bs.drop 4)
  else if bs.take 2 = [0xFE, 0xFF] then decodeUtf16 true (bs.drop 2)
  else if bs.take 2 = [0xFF, 0xFE] then decodeUtf16 false (bs.drop 2)
  else if bs.take 3 = [0xEF, 0xBB, 0xBF] then decodeUtf8 (bs.drop 3)
  else match bs with
    | a :: b :: c :: d :: _ =>
      if a = 0 then (if b = 0 then decodeUtf32 true bs else decodeUtf16 true bs)
      else if b = 0 then (if c = 0 ∧ d = 0 then decodeUtf32 false bs else decodeUtf16 false bs)
      else decodeUtf8 bs
    | [a, b] =>
      if a = 0 then decodeUtf16 true bs
      else if b = 0 then decodeUtf16 false bs
      else decodeUtf8 bs
    | _ => decodeUtf8 bs

/-- The ASCII characters other than NUL. -/
def IsAscii (c : Char) : Prop := 0 < c.toNat ∧ c.toNat < 128

/-- The printable ASCII characters, which is all `json.dumps` ever emits on one line. -/
def IsPrintable (c : Char) : Prop := 32 ≤ c.toNat ∧ c.toNat < 127

theorem IsPrintable.isAscii {c : Char} (h : IsPrintable c) : IsAscii c := by
  have := h.1
  have := h.2
  constructor <;> omega

theorem utf8EncodeChar_ascii {c : Char} (h : IsAscii c) :
    String.utf8EncodeChar c = [c.toNat.toUInt8] := by
  have hc : c.utf8Size = 1 := by
    rw [Char.utf8Size_eq_one_iff, UInt32.le_iff_toNat_le]
    have h1 : c.val.toNat < 128 := h.2
    have h2 : (127 : UInt32).toNat = 127 := rfl
    omega
  rw [String.utf8EncodeChar_eq_singleton hc]
  rfl

/-- ASCII text is encoded one byte a character. -/
theorem utf8_ascii : ∀ {cs : List Char}, (∀ c ∈ cs, IsAscii c) →
    utf8 cs = cs.map (fun c => c.toNat.toUInt8)
  | [], _ => rfl
  | c :: cs, h => by
    have ih : utf8 cs = cs.map (fun c => c.toNat.toUInt8) :=
      utf8_ascii fun d hd => h d (List.mem_cons_of_mem _ hd)
    have hc := utf8EncodeChar_ascii (h c List.mem_cons_self)
    rw [utf8, List.flatMap_cons, hc, ← utf8, ih]
    rfl

theorem toNat_toUInt8_ascii {c : Char} (h : IsAscii c) : c.toNat.toUInt8.toNat = c.toNat := by
  have := h.2
  simp only [Nat.toUInt8, UInt8.toNat_ofNat']
  omega

theorem utf8_append (cs ds : List Char) : utf8 (cs ++ ds) = utf8 cs ++ utf8 ds := by
  simp [utf8]

theorem length_utf8 {cs : List Char} (h : ∀ c ∈ cs, IsAscii c) : (utf8 cs).length = cs.length := by
  simp [utf8_ascii h]

/-- A byte prefix of ASCII text is the text's own prefix. -/
theorem take_utf8 {cs : List Char} (h : ∀ c ∈ cs, IsAscii c) (k : Nat) :
    (utf8 cs).take k = utf8 (cs.take k) := by
  rw [utf8_ascii h, utf8_ascii fun c hc => h c (List.mem_of_mem_take hc), List.map_take]

/-- Printable text holds no newline. -/
theorem newline_not_mem_utf8 {cs : List Char} (h : ∀ c ∈ cs, IsPrintable c) :
    newline ∉ utf8 cs := by
  rw [utf8_ascii fun c hc => (h c hc).isAscii]
  intro hm
  obtain ⟨c, hc, he⟩ := List.mem_map.mp hm
  have h1 := (h c hc).1
  have h2 := toNat_toUInt8_ascii (h c hc).isAscii
  rw [he] at h2
  have h3 : newline.toNat = 10 := rfl
  omega

theorem decodeUtf8_utf8 (cs : List Char) : decodeUtf8 (utf8 cs) = some cs := by
  have hb : ByteArray.mk (utf8 cs).toArray = cs.utf8Encode := by
    ext1
    simp [List.utf8Encode, utf8]
  rw [decodeUtf8, hb, List.utf8Decode?_utf8Encode]
  simp

/-- Bytes in the ASCII range, NUL excluded, are decoded as UTF-8: no mark and no zero byte. -/
theorem decodeText_eq_decodeUtf8 {bs : Bytes} (h : ∀ b ∈ bs, b ≠ 0 ∧ b < 0x80) :
    decodeText bs = decodeUtf8 bs := by
  -- a mark would put a byte of its own, zero or out of range, among the first ones
  have hmark : ∀ (n : Nat) (m : Bytes), (∃ b ∈ m, b = 0 ∨ 0x80 ≤ b) → bs.take n ≠ m := by
    rintro n m ⟨b, hb, hbad⟩ rfl
    have hg := h b (List.mem_of_mem_take hb)
    rcases hbad with h0 | h0
    · exact hg.1 h0
    · exact absurd hg.2 (UInt8.not_lt.mpr h0)
  unfold decodeText
  rw [if_neg (hmark _ _ ⟨0, by decide⟩), if_neg (hmark _ _ ⟨0, by decide⟩),
    if_neg (hmark _ _ ⟨0xFE, by decide⟩), if_neg (hmark _ _ ⟨0xFE, by decide⟩),
    if_neg (hmark _ _ ⟨0xEF, by decide⟩)]
  match bs, h with
  | a :: b :: c :: d :: rest, h =>
    have ha := (h a (by simp)).1
    have hb := (h b (by simp)).1
    simp [ha, hb]
  | [a, b], h =>
    have ha := (h a (by simp)).1
    have hb := (h b (by simp)).1
    simp [ha, hb]
  | [], _ => rfl
  | [a], _ => rfl
  | [a, b, c], _ => rfl

theorem decodeText_utf8 {cs : List Char} (h : ∀ c ∈ cs, IsAscii c) :
    decodeText (utf8 cs) = some cs := by
  rw [decodeText_eq_decodeUtf8, decodeUtf8_utf8]
  rw [utf8_ascii h]
  intro b hb
  obtain ⟨c, hc, rfl⟩ := List.mem_map.mp hb
  have h1 := toNat_toUInt8_ascii (h c hc)
  have h2 := h c hc
  refine ⟨fun h0 => ?_, ?_⟩
  · rw [h0] at h1
    have : (0 : UInt8).toNat = 0 := rfl
    have := h2.1
    omega
  · rw [UInt8.lt_iff_toNat_lt, h1]
    exact h2.2

/-! ## 3. Hexadecimal -/

/-- The value of a hexadecimal digit. -/
def hexVal (c : Char) : Option Nat :=
  if '0' ≤ c ∧ c ≤ '9' then some (c.toNat - 48)
  else if 'a' ≤ c ∧ c ≤ 'f' then some (c.toNat - 87)
  else if 'A' ≤ c ∧ c ≤ 'F' then some (c.toNat - 55)
  else none

theorem hexVal_digitChar : ∀ d < 16, hexVal (Nat.digitChar d) = some d := by decide

/-- `bytes.hex()`: two lower-case digits a byte. -/
def hexChars (bs : Bytes) : List Char :=
  bs.flatMap fun b => [Nat.digitChar (b.toNat / 16), Nat.digitChar (b.toNat % 16)]

/-- `bytes.hex()` as a `str`. -/
def hex (bs : Bytes) : String := String.ofList (hexChars bs)

/-- `bytes.fromhex()` on text without spaces. -/
def fromHexChars : List Char → Option Bytes
  | [] => some []
  | [_] => none
  | c :: d :: rest => do
    let hi ← hexVal c
    let lo ← hexVal d
    return UInt8.ofNat (16 * hi + lo) :: (← fromHexChars rest)

/-- `bytes.fromhex()`. -/
def fromHex (s : String) : Option Bytes := fromHexChars s.toList

theorem fromHexChars_hexChars : ∀ bs : Bytes, fromHexChars (hexChars bs) = some bs
  | [] => rfl
  | b :: bs => by
    have h1 : b.toNat / 16 < 16 := by have := b.toNat_lt; omega
    have h2 : b.toNat % 16 < 16 := Nat.mod_lt _ (by decide)
    have hb : UInt8.ofNat (16 * (b.toNat / 16) + b.toNat % 16) = b := by
      rw [Nat.div_add_mod]
      exact UInt8.ofNat_toNat
    have ih := fromHexChars_hexChars bs
    simp only [hexChars] at ih
    simp only [hexChars, List.flatMap_cons, List.cons_append, List.nil_append, fromHexChars,
      hexVal_digitChar _ h1, hexVal_digitChar _ h2, ih]
    exact congrArg (fun x => some (x :: bs)) hb

/-- `bytes.fromhex` inverts `bytes.hex`. -/
theorem fromHex_hex (bs : Bytes) : fromHex (hex bs) = some bs := by
  simp [fromHex, hex, fromHexChars_hexChars]

end Lib
