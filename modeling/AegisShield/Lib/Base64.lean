/-
# Base64, as `binascii` computes it

`base64.b64encode`, and the decoder behind both `b64decode(.., validate=True)` and
`urlsafe_b64decode`: one loop over the characters (`binascii.a2b_base64`) with a `strict_mode`
flag.  The loop keeps the position inside the current group of four, the bits left over from the
last character, and whether padding has begun; the flag only decides which oddities raise.

The one fact the rest of the development uses is that decoding inverts encoding, in either mode
(`b64decode_b64encode`).
-/
import AegisShield.Lib.Text

namespace Lib

/-! ## 1. The alphabet -/

/-- The character of a six-bit value. -/
def b64Char (n : Nat) : Char :=
  if n < 26 then Char.ofNat (65 + n)
  else if n < 52 then Char.ofNat (71 + n)
  else if n < 62 then Char.ofNat (n - 4)
  else if n = 62 then '+' else '/'

/-- The six-bit value of a character of the alphabet. -/
def b64Value (c : Char) : Option Nat :=
  if 'A' ≤ c ∧ c ≤ 'Z' then some (c.toNat - 65)
  else if 'a' ≤ c ∧ c ≤ 'z' then some (c.toNat - 71)
  else if '0' ≤ c ∧ c ≤ '9' then some (c.toNat + 4)
  else if c = '+' then some 62
  else if c = '/' then some 63
  else none

theorem b64Value_b64Char : ∀ n < 64, b64Value (b64Char n) = some n := by decide

theorem b64Char_ne_pad : ∀ n < 64, b64Char n ≠ '=' := by decide

theorem b64Char_bounds : ∀ n < 64, 32 ≤ (b64Char n).toNat ∧ (b64Char n).toNat < 127 := by decide

/-! ## 2. Encoding and decoding -/

/-- `base64.b64encode`. -/
def b64encode : Bytes → List Char
  | [] => []
  | [a] => [b64Char (a.toNat / 4), b64Char (a.toNat % 4 * 16), '=', '=']
  | [a, b] =>
    [b64Char (a.toNat / 4), b64Char (a.toNat % 4 * 16 + b.toNat / 16),
      b64Char (b.toNat % 16 * 4), '=']
  | a :: b :: c :: rest =>
    b64Char (a.toNat / 4) :: b64Char (a.toNat % 4 * 16 + b.toNat / 16) ::
      b64Char (b.toNat % 16 * 4 + c.toNat / 64) :: b64Char (c.toNat % 64) :: b64encode rest

/-- The loop variables of `a2b_base64`. -/
structure A2b where
  /-- Position inside the group of four. -/
  quad : Nat
  /-- Bits of the last character not yet written out. -/
  left : Nat
  pads : Nat
  padding : Bool
  out : Bytes
  deriving DecidableEq, Repr

/-- The state at the start of a group. -/
def A2b.start (out : Bytes) : A2b := ⟨0, 0, 0, false, out⟩

/-- One character of the alphabet. -/
def A2b.push (s : A2b) (v : Nat) : A2b :=
  match s.quad with
  | 0 => { s with quad := 1, left := v, pads := 0 }
  | 1 => { s with quad := 2, left := v % 16, pads := 0,
                  out := s.out ++ [UInt8.ofNat (s.left * 4 + v / 16)] }
  | 2 => { s with quad := 3, left := v % 4, pads := 0,
                  out := s.out ++ [UInt8.ofNat (s.left * 16 + v / 4)] }
  | _ => { s with quad := 0, left := 0, pads := 0,
                  out := s.out ++ [UInt8.ofNat (s.left * 64 + v)] }

/-- `binascii.a2b_base64(.., strict_mode=strict)`. -/
def a2bBase64 (strict : Bool) (s : A2b) : List Char → Option Bytes
  | [] => if s.quad = 0 then some s.out else none
  | c :: cs =>
    if c = '=' then
      if 2 ≤ s.quad then
        -- a completed pad sequence ends the input; strictly, nothing may follow it
        if 4 ≤ s.quad + (s.pads + 1) then
          (if strict && !cs.isEmpty then none else some s.out)
        else a2bBase64 strict { s with padding := true, pads := s.pads + 1 } cs
      else a2bBase64 strict { s with padding := true } cs
    else match b64Value c with
      | none => if strict then none else a2bBase64 strict s cs
      | some v => if strict && s.padding then none else a2bBase64 strict (s.push v) cs

/-- `base64.b64decode(.., validate=validate)` on a `str`. -/
def b64decode (validate : Bool) (cs : List Char) : Option Bytes :=
  if cs.all (fun c => c.toNat < 128) then
    if validate && cs.head? == some '=' then none else a2bBase64 validate (.start []) cs
  else none

/-! ## 3. Decoding inverts encoding -/

theorem a2bBase64_char {strict : Bool} {s : A2b} {n : Nat} (hn : n < 64) (hp : s.padding = false)
    (cs : List Char) :
    a2bBase64 strict s (b64Char n :: cs) = a2bBase64 strict (s.push n) cs := by
  rw [a2bBase64, if_neg (b64Char_ne_pad n hn), b64Value_b64Char n hn]
  simp [hp]

/-- **The loop inverts `b64encode`**, from the start of any group, in either mode. -/
theorem a2bBase64_b64encode (strict : Bool) (data out : Bytes) :
    a2bBase64 strict (.start out) (b64encode data) = some (out ++ data) := by
  induction data using b64encode.induct generalizing out with
  | case1 => simp [b64encode, a2bBase64, A2b.start]
  | case2 a =>
    have ha := a.toNat_lt
    have h1 : UInt8.ofNat (a.toNat / 4 * 4 + a.toNat % 4 * 16 / 16) = a := by
      rw [show a.toNat / 4 * 4 + a.toNat % 4 * 16 / 16 = a.toNat by omega, UInt8.ofNat_toNat]
    rw [b64encode, a2bBase64_char (by omega) rfl, a2bBase64_char (by omega) rfl]
    simp only [A2b.push, A2b.start, h1, a2bBase64]
    simp
  | case3 a b =>
    have ha := a.toNat_lt
    have hb := b.toNat_lt
    have h1 : UInt8.ofNat (a.toNat / 4 * 4 + (a.toNat % 4 * 16 + b.toNat / 16) / 16) = a := by
      rw [show a.toNat / 4 * 4 + (a.toNat % 4 * 16 + b.toNat / 16) / 16 = a.toNat by omega,
        UInt8.ofNat_toNat]
    have h2 : UInt8.ofNat ((a.toNat % 4 * 16 + b.toNat / 16) % 16 * 16 + b.toNat % 16 * 4 / 4) = b := by
      rw [show (a.toNat % 4 * 16 + b.toNat / 16) % 16 * 16 + b.toNat % 16 * 4 / 4 = b.toNat by omega,
        UInt8.ofNat_toNat]
    rw [b64encode, a2bBase64_char (by omega) rfl, a2bBase64_char (by omega) rfl,
      a2bBase64_char (by omega) rfl]
    simp only [A2b.push, A2b.start, h1, h2, a2bBase64]
    simp
  | case4 a b c rest ih =>
    have ha := a.toNat_lt
    have hb := b.toNat_lt
    have hc := c.toNat_lt
    have h1 : UInt8.ofNat (a.toNat / 4 * 4 + (a.toNat % 4 * 16 + b.toNat / 16) / 16) = a := by
      rw [show a.toNat / 4 * 4 + (a.toNat % 4 * 16 + b.toNat / 16) / 16 = a.toNat by omega,
        UInt8.ofNat_toNat]
    have h2 : UInt8.ofNat ((a.toNat % 4 * 16 + b.toNat / 16) % 16 * 16
        + (b.toNat % 16 * 4 + c.toNat / 64) / 4) = b := by
      rw [show (a.toNat % 4 * 16 + b.toNat / 16) % 16 * 16
        + (b.toNat % 16 * 4 + c.toNat / 64) / 4 = b.toNat by omega, UInt8.ofNat_toNat]
    have h3 : UInt8.ofNat ((b.toNat % 16 * 4 + c.toNat / 64) % 4 * 64 + c.toNat % 64) = c := by
      rw [show (b.toNat % 16 * 4 + c.toNat / 64) % 4 * 64 + c.toNat % 64 = c.toNat by omega,
        UInt8.ofNat_toNat]
    rw [b64encode, a2bBase64_char (by omega) rfl, a2bBase64_char (by omega) rfl,
      a2bBase64_char (by omega) rfl, a2bBase64_char (by omega) rfl]
    simp only [A2b.push, A2b.start, h1, h2, h3]
    have h := ih (((out ++ [a]) ++ [b]) ++ [c])
    rw [A2b.start] at h
    rw [h]
    simp

/-- What the encoder emits is printable ASCII, and never starts with padding. -/
theorem b64encode_printable (data : Bytes) : ∀ c ∈ b64encode data, IsPrintable c := by
  have hpad : IsPrintable '=' := by constructor <;> decide
  induction data using b64encode.induct with
  | case1 => simp [b64encode]
  | case2 a =>
    have ha := a.toNat_lt
    simp only [b64encode, List.mem_cons, List.not_mem_nil, or_false]
    rintro c (rfl | rfl | rfl | rfl)
    · exact b64Char_bounds _ (by omega)
    · exact b64Char_bounds _ (by omega)
    · exact hpad
    · exact hpad
  | case3 a b =>
    have ha := a.toNat_lt
    have hb := b.toNat_lt
    simp only [b64encode, List.mem_cons, List.not_mem_nil, or_false]
    rintro c (rfl | rfl | rfl | rfl)
    · exact b64Char_bounds _ (by omega)
    · exact b64Char_bounds _ (by omega)
    · exact b64Char_bounds _ (by omega)
    · exact hpad
  | case4 a b c rest ih =>
    have ha := a.toNat_lt
    have hb := b.toNat_lt
    have hc := c.toNat_lt
    simp only [b64encode, List.mem_cons]
    rintro d (rfl | rfl | rfl | rfl | hd)
    · exact b64Char_bounds _ (by omega)
    · exact b64Char_bounds _ (by omega)
    · exact b64Char_bounds _ (by omega)
    · exact b64Char_bounds _ (by omega)
    · exact ih d hd

theorem b64encode_head (data : Bytes) : (b64encode data).head? ≠ some '=' := by
  match data with
  | [] => simp [b64encode]
  | [a] =>
    have := b64Char_ne_pad (a.toNat / 4) (by have := a.toNat_lt; omega)
    simpa [b64encode] using this
  | [a, b] =>
    have := b64Char_ne_pad (a.toNat / 4) (by have := a.toNat_lt; omega)
    simpa [b64encode] using this
  | a :: b :: c :: rest =>
    have := b64Char_ne_pad (a.toNat / 4) (by have := a.toNat_lt; omega)
    simpa [b64encode] using this

/-- **Decoding inverts encoding**, with or without `validate`. -/
theorem b64decode_b64encode (validate : Bool) (data : Bytes) :
    b64decode validate (b64encode data) = some data := by
  have hall : (b64encode data).all (fun c => c.toNat < 128) = true := by
    rw [List.all_eq_true]
    intro c hc
    simpa using (b64encode_printable data c hc).isAscii.2
  have hhead := b64encode_head data
  simp [b64decode, hall, hhead, a2bBase64_b64encode]

/-! ## 4. The URL-safe alphabet without padding -/

/-- `+/` to `-_`. -/
def toUrlsafe (c : Char) : Char := if c = '+' then '-' else if c = '/' then '_' else c

/-- `-_` to `+/`. -/
def fromUrlsafe (c : Char) : Char := if c = '-' then '+' else if c = '_' then '/' else c

/-- `base64.urlsafe_b64encode(..).rstrip(b"=")`. -/
def urlsafeEncode (data : Bytes) : List Char :=
  (((b64encode data).map toUrlsafe).reverse.dropWhile (· = '=')).reverse

/-- `base64.urlsafe_b64decode(value + "=" * (-len(value) % 4))`. -/
def urlsafeDecode (cs : List Char) : Option Bytes :=
  b64decode false ((cs ++ List.replicate ((4 - cs.length % 4) % 4) '=').map fromUrlsafe)

theorem toUrlsafe_b64Char : ∀ n < 64, toUrlsafe (b64Char n) ≠ '=' ∧ toUrlsafe (b64Char n) ≠ '.' ∧
    fromUrlsafe (toUrlsafe (b64Char n)) = b64Char n ∧ 32 ≤ (toUrlsafe (b64Char n)).toNat ∧
    (toUrlsafe (b64Char n)).toNat < 127 := by decide

/-- The encoder emits characters of the alphabet, then padding to a multiple of four. -/
theorem b64encode_shape (data : Bytes) : ∃ core p, b64encode data = core ++ List.replicate p '=' ∧
    p ≤ 2 ∧ (core.length + p) % 4 = 0 ∧ ∀ c ∈ core, ∃ n < 64, c = b64Char n := by
  induction data using b64encode.induct with
  | case1 => exact ⟨[], 0, rfl, by decide, rfl, by simp⟩
  | case2 a =>
    have ha := a.toNat_lt
    refine ⟨[b64Char (a.toNat / 4), b64Char (a.toNat % 4 * 16)], 2, rfl, by decide, by simp, ?_⟩
    simp only [List.mem_cons, List.not_mem_nil, or_false]
    rintro c (rfl | rfl)
    · exact ⟨_, by omega, rfl⟩
    · exact ⟨_, by omega, rfl⟩
  | case3 a b =>
    have ha := a.toNat_lt
    have hb := b.toNat_lt
    refine ⟨[b64Char (a.toNat / 4), b64Char (a.toNat % 4 * 16 + b.toNat / 16),
      b64Char (b.toNat % 16 * 4)], 1, rfl, by decide, by simp, ?_⟩
    simp only [List.mem_cons, List.not_mem_nil, or_false]
    rintro c (rfl | rfl | rfl)
    · exact ⟨_, by omega, rfl⟩
    · exact ⟨_, by omega, rfl⟩
    · exact ⟨_, by omega, rfl⟩
  | case4 a b c rest ih =>
    have ha := a.toNat_lt
    have hb := b.toNat_lt
    have hc := c.toNat_lt
    obtain ⟨core, p, heq, hp, hlen, hcore⟩ := ih
    refine ⟨b64Char (a.toNat / 4) :: b64Char (a.toNat % 4 * 16 + b.toNat / 16) ::
      b64Char (b.toNat % 16 * 4 + c.toNat / 64) :: b64Char (c.toNat % 64) :: core, p, ?_, hp, ?_, ?_⟩
    · rw [b64encode, heq]
      rfl
    · simp only [List.length_cons]
      omega
    · simp only [List.mem_cons]
      rintro d (rfl | rfl | rfl | rfl | hd)
      · exact ⟨_, by omega, rfl⟩
      · exact ⟨_, by omega, rfl⟩
      · exact ⟨_, by omega, rfl⟩
      · exact ⟨_, by omega, rfl⟩
      · exact hcore d hd

/-- Stripping the padding leaves the characters of the alphabet. -/
theorem urlsafeEncode_eq {data : Bytes} {core : List Char} {p : Nat}
    (h : b64encode data = core ++ List.replicate p '=') (hcore : ∀ c ∈ core, ∃ n < 64, c = b64Char n) :
    urlsafeEncode data = core.map toUrlsafe := by
  have hstop : ∀ l : List Char, (∀ c ∈ l, c ≠ '=') → l.dropWhile (· = '=') = l := by
    intro l hl
    cases l with
    | nil => rfl
    | cons c l => rw [List.dropWhile_cons_of_neg (by simpa using hl c List.mem_cons_self)]
  have hpads : ∀ (n : Nat) (l : List Char), (∀ c ∈ l, c ≠ '=') →
      (List.replicate n '=' ++ l).dropWhile (· = '=') = l := by
    intro n l hl
    induction n with
    | zero => exact hstop l hl
    | succ n ih =>
      rw [List.replicate_succ, List.cons_append, List.dropWhile_cons_of_pos (by simp), ih]
  have hpad : toUrlsafe '=' = '=' := rfl
  rw [urlsafeEncode, h, List.map_append, List.reverse_append, List.map_replicate, hpad,
    List.reverse_replicate, hpads, List.reverse_reverse]
  intro c hc
  obtain ⟨d, hd, rfl⟩ := List.mem_map.mp (List.mem_reverse.mp hc)
  obtain ⟨n, hn, rfl⟩ := hcore d hd
  exact (toUrlsafe_b64Char n hn).1

/-- **The URL-safe decoder inverts the encoder.** -/
theorem urlsafeDecode_urlsafeEncode (data : Bytes) :
    urlsafeDecode (urlsafeEncode data) = some data := by
  obtain ⟨core, p, heq, hp, hlen, hcore⟩ := b64encode_shape data
  have hback : (core.map toUrlsafe).map fromUrlsafe = core := by
    rw [List.map_map]
    refine (List.map_congr_left fun c hc => ?_).trans (List.map_id core)
    obtain ⟨n, hn, rfl⟩ := hcore c hc
    exact (toUrlsafe_b64Char n hn).2.2.1
  have hpad : (4 - (core.map toUrlsafe).length % 4) % 4 = p := by
    rw [List.length_map]
    omega
  have hfrom : fromUrlsafe '=' = '=' := rfl
  rw [urlsafeDecode, urlsafeEncode_eq heq hcore, hpad, List.map_append, hback, List.map_replicate,
    hfrom, ← heq]
  exact b64decode_b64encode false data

/-- The characters of the encoding. -/
theorem mem_urlsafeEncode {data : Bytes} {c : Char} (h : c ∈ urlsafeEncode data) :
    ∃ n < 64, c = toUrlsafe (b64Char n) := by
  obtain ⟨core, p, heq, hp, hlen, hcore⟩ := b64encode_shape data
  rw [urlsafeEncode_eq heq hcore] at h
  obtain ⟨d, hd, rfl⟩ := List.mem_map.mp h
  obtain ⟨n, hn, rfl⟩ := hcore d hd
  exact ⟨n, hn, rfl⟩

/-- What the URL-safe encoder emits is printable and holds no dot. -/
theorem urlsafeEncode_chars (data : Bytes) : ∀ c ∈ urlsafeEncode data, IsPrintable c ∧ c ≠ '.' := by
  intro c hc
  obtain ⟨n, hn, rfl⟩ := mem_urlsafeEncode hc
  obtain ⟨-, hdot, -, hlo, hhi⟩ := toUrlsafe_b64Char n hn
  exact ⟨⟨hlo, hhi⟩, hdot⟩

end Lib
