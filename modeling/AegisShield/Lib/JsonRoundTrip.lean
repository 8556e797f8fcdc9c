/-
# Reading back what was printed, and refusing what was cut

Two facts about `Json.loads`, and they are all the rest of the development needs:

* `loadsText_dump`: a dump, in either layout and with any whitespace after it, reads back as the
  value that was dumped.  This is "the JSON library round-trips".
* `loadsText_take_obj`: a STRICT PREFIX of an object's dump does not read at all.  This is what
  makes a torn record recognisable.

The second rests on one observation about the machine: once it has read the opening brace it
leaves the containers only by finishing the value (`Moves.inside`), and a finished machine moves
on whitespace alone.
-/
import AegisShield.Lib.Json
import Mathlib.Data.Nat.Digits.Lemmas

namespace Lib

/-! ## 1. Numbers -/

theorem isDigit_digitChar : ∀ d < 10, isDigit (Nat.digitChar d) = true := by decide

theorem digitChar_ne_zero_char : ∀ d < 10, d ≠ 0 → Nat.digitChar d ≠ '0' := by decide

theorem digitChar_toNat : ∀ d < 10, (Nat.digitChar d).toNat - 48 = d := by decide

namespace NumState

/-- Digits keep an integer going. -/
theorem scanFrom_int : ∀ {cs : List Char}, (∀ c ∈ cs, isDigit c = true) → scanFrom int cs = some int
  | [], _ => rfl
  | c :: cs, h => by
    have ih : scanFrom int cs = some int :=
      scanFrom_int fun d hd => h d (List.mem_cons_of_mem _ hd)
    simp [scanFrom, next, h c List.mem_cons_self, ih]

/-- No number goes on with a separator, a closing bracket or whitespace. -/
theorem next_eq_none (ns : NumState) {c : Char}
    (h : c = ',' ∨ c = ']' ∨ c = '}' ∨ c = ' ' ∨ c = '\n' ∨ c = '\r' ∨ c = '\t') :
    ns.next c = none := by
  rcases h with rfl | rfl | rfl | rfl | rfl | rfl | rfl <;> cases ns <;> decide

/-- Every character of a number's text is a digit or one of `-+.eE`. -/
theorem printable_of_next {ns ns' : NumState} {c : Char} (h : ns.next c = some ns') :
    IsPrintable c := by
  by_cases hd : isDigit c = true
  · simp only [isDigit, Bool.and_eq_true, decide_eq_true_eq] at hd
    have h1 : 48 ≤ c.toNat := hd.1
    have h2 : c.toNat ≤ 57 := hd.2
    constructor <;> omega
  · have hc : c = '0' ∨ c = '.' ∨ c = 'e' ∨ c = 'E' ∨ c = '+' ∨ c = '-' := by
      cases ns <;> simp only [next, hd] at h <;> grind
    rcases hc with rfl | rfl | rfl | rfl | rfl | rfl <;> constructor <;> decide

theorem printable_of_start {ns : NumState} {c : Char} (h : start c = some ns) : IsPrintable c := by
  by_cases hm : c = '-'
  · subst hm; constructor <;> decide
  · have hn : minus.next c = some ns := by simpa [start, next, hm] using h
    exact printable_of_next hn

theorem printable_of_scanFrom : ∀ {cs : List Char} {ns ns' : NumState},
    scanFrom ns cs = some ns' → ∀ c ∈ cs, IsPrintable c
  | [], _, _, _ => by simp
  | c :: cs, ns, ns', h => by
    simp only [scanFrom, Option.bind_eq_some_iff] at h
    obtain ⟨ns₁, h1, h2⟩ := h
    intro d hd
    rcases List.mem_cons.mp hd with rfl | hd
    · exact printable_of_next h1
    · exact printable_of_scanFrom h2 d hd

theorem printable_of_scan {cs : List Char} {ns : NumState} (h : scan cs = some ns) :
    ∀ c ∈ cs, IsPrintable c := by
  match cs, h with
  | c :: cs, h =>
    simp only [scan, Option.bind_eq_some_iff] at h
    obtain ⟨ns₁, h1, h2⟩ := h
    intro d hd
    rcases List.mem_cons.mp hd with rfl | hd
    · exact printable_of_start h1
    · exact printable_of_scanFrom h2 d hd

end NumState

theorem natText_pos {n : Nat} (h : n ≠ 0) :
    natText n = (Nat.digits 10 n).reverse.map Nat.digitChar := by
  rw [natText, if_neg h]

theorem natText_digits (n : Nat) : ∀ c ∈ natText n, isDigit c = true := by
  intro c hc
  by_cases h : n = 0
  · subst h
    simp only [natText, if_true, List.mem_singleton] at hc
    subst hc
    decide
  · rw [natText_pos h] at hc
    obtain ⟨d, hd, rfl⟩ := List.mem_map.mp hc
    exact isDigit_digitChar d (Nat.digits_lt_base (by decide) (List.mem_reverse.mp hd))

/-- The text of a natural number reads back as that number. -/
theorem natOfText_natText (n : Nat) : natOfText (natText n) = n := by
  by_cases h : n = 0
  · subst h; decide
  · have hmap : ((natText n).reverse.map fun c => c.toNat - 48) = Nat.digits 10 n := by
      rw [natText_pos h, ← List.map_reverse, List.reverse_reverse, List.map_map]
      conv_rhs => rw [← List.map_id (Nat.digits 10 n)]
      refine List.map_congr_left ?_
      intro d hd
      exact digitChar_toNat d (Nat.digits_lt_base (by decide) hd)
    rw [natOfText, hmap, Nat.ofDigits_digits]

/-- The leading digit of a positive number is not zero, so its text is an integer's. -/
theorem scan_natText_from (start : Char → Option NumState)
    (h0 : start '0' = some .zero)
    (hd : ∀ c, isDigit c = true → c ≠ '0' → start c = some .int) (n : Nat) :
    ∃ c cs ns, natText n = c :: cs ∧ start c = some ns ∧
      NumState.scanFrom ns cs = some ns ∧ ns.accepts = true ∧ ns.integral = true := by
  by_cases h : n = 0
  · subst h
    exact ⟨'0', [], .zero, rfl, h0, rfl, rfl, rfl⟩
  · have hne : Nat.digits 10 n ≠ [] := Nat.digits_ne_nil_iff_ne_zero.mpr h
    obtain ⟨ds, d, hds⟩ : ∃ ds d, Nat.digits 10 n = ds ++ [d] :=
      ⟨_, _, (List.dropLast_append_getLast hne).symm⟩
    have hlt : d < 10 := Nat.digits_lt_base (by decide) (show d ∈ Nat.digits 10 n by simp [hds])
    have hd0 : d ≠ 0 := by
      have := Nat.getLast_digit_ne_zero 10 h
      simpa [hds] using this
    have htext : natText n = Nat.digitChar d :: ds.reverse.map Nat.digitChar := by
      rw [natText_pos h, hds]; simp
    refine ⟨_, _, .int, htext, hd _ (isDigit_digitChar d hlt) (digitChar_ne_zero_char d hlt hd0),
      NumState.scanFrom_int fun c hc => ?_, rfl, rfl⟩
    exact natText_digits n c (by rw [htext]; exact List.mem_cons_of_mem _ hc)

/-- The text of an integer scans as an integer. -/
theorem scan_intText (i : Int) :
    ∃ ns, NumState.scan (intText i) = some ns ∧ ns.accepts = true ∧ ns.integral = true := by
  cases i with
  | ofNat n =>
    obtain ⟨c, cs, ns, ht, hs, hf, ha, hi⟩ := scan_natText_from NumState.start
      rfl (fun c hc h0 => by
        have hm : c ≠ '-' := by rintro rfl; exact absurd hc (by decide)
        simp [NumState.start, hm, h0, hc]) n
    exact ⟨ns, by simp [intText, ht, NumState.scan, hs, hf], ha, hi⟩
  | negSucc n =>
    obtain ⟨c, cs, ns, ht, hs, hf, ha, hi⟩ := scan_natText_from NumState.minus.next
      rfl (fun c hc h0 => by simp [NumState.next, h0, hc]) (n + 1)
    refine ⟨ns, ?_, ha, hi⟩
    simp [intText, ht, NumState.scan, NumState.start, NumState.scanFrom, hs, hf]

/-- `int(str(i)) = i`. -/
theorem intOfText_intText (i : Int) : intOfText (intText i) = i := by
  cases i with
  | ofNat n =>
    have hne : ∀ cs, natText n ≠ '-' :: cs := by
      intro cs hcs
      have := natText_digits n '-' (by rw [hcs]; simp)
      exact absurd this (by decide)
    have h : intOfText (natText n) = (natOfText (natText n) : Int) := by
      unfold intOfText
      split
      · rename_i cs heq
        exact absurd heq (hne cs)
      · rfl
    rw [intText, h, natOfText_natText]
    rfl
  | negSucc n =>
    simp only [intText, intOfText, natOfText_natText]
    omega

namespace Json

/-! ## 2. The machine, piece by piece -/

variable {F : Type}

theorem scalar_toNat (c : Char) : scalar c.toNat = some c := by
  have hv : c.toNat.isValidChar := c.valid
  rw [scalar, if_pos hv, Char.ofNat_toNat]

/-- A scalar value of the first plane is not half of a pair: one escape reads back as it. -/
theorem finishUni_unit (slot : Slot F) (acc : List Char) (st : List (Frame F)) {c : Char}
    (hlt : c.toNat < 0x10000) :
    finishUni slot acc none c.toNat st = some ⟨.text slot (acc ++ [c]), st⟩ := by
  have hsur : ¬ (0xD800 ≤ c.toNat ∧ c.toNat < 0xDC00) := by
    have hv : c.toNat.isValidChar := c.valid
    simp only [Nat.isValidChar] at hv
    omega
  rw [finishUni, if_neg hsur, scalar_toNat]
  rfl

/-- Past the first plane, the first escape of the pair is remembered. -/
theorem finishUni_high (slot : Slot F) (acc : List Char) (st : List (Frame F)) {k : Nat}
    (hk : k < 0x400) :
    finishUni slot acc none (0xD800 + k) st = some ⟨.pair slot acc (0xD800 + k), st⟩ := by
  rw [finishUni, if_pos ⟨by omega, by omega⟩]

/-- The second escape of the pair completes the character. -/
theorem finishUni_low (slot : Slot F) (acc : List Char) (st : List (Frame F)) {c : Char}
    (hge : 0x10000 ≤ c.toNat) :
    finishUni slot acc (some (0xD800 + (c.toNat - 0x10000) / 0x400))
      (0xDC00 + (c.toNat - 0x10000) % 0x400) st = some ⟨.text slot (acc ++ [c]), st⟩ := by
  have hval : 0x10000 + (0xD800 + (c.toNat - 0x10000) / 0x400 - 0xD800) * 0x400
      + (0xDC00 + (c.toNat - 0x10000) % 0x400 - 0xDC00) = c.toNat := by omega
  rw [finishUni, if_pos ⟨by omega, by omega⟩, hval, scalar_toNat]
  rfl

variable [PyFloat F]

@[simp] theorem run_nil (m : Machine F) : run m [] = some m := rfl

@[simp] theorem run_cons (m : Machine F) (c : Char) (cs : List Char) :
    run m (c :: cs) = (step m c).bind fun m' => run m' cs := rfl

theorem run_append (m : Machine F) (cs ds : List Char) :
    run m (cs ++ ds) = (run m cs).bind fun m' => run m' ds := by
  induction cs generalizing m with
  | nil => rfl
  | cons c cs ih =>
    simp only [List.cons_append, run_cons]
    cases step m c with
    | none => rfl
    | some m' => simpa using ih m'

/-- The modes in which whitespace is skipped. -/
def Spaced : Mode F → Prop
  | .value | .arrOpen | .objOpen | .key _ | .colon _ _ | .afterElem _ | .afterMember _ | .done _ =>
    True
  | _ => False

theorem step_ws {m : Machine F} (hm : Spaced m.mode) {c : Char} (hc : isWs c = true) :
    step m c = some m := by
  obtain ⟨mode, st⟩ := m
  cases mode <;> simp_all [Spaced, step, stepClosed]

/-- Whitespace is skipped. -/
theorem run_ws {m : Machine F} (hm : Spaced m.mode) : ∀ {ws : List Char} (cs : List Char),
    (∀ c ∈ ws, isWs c = true) → run m (ws ++ cs) = run m cs
  | [], _, _ => rfl
  | c :: ws, cs, h => by
    have ih : run m (ws ++ cs) = run m cs :=
      run_ws hm cs fun d hd => h d (List.mem_cons_of_mem _ hd)
    simp [step_ws hm (h c List.mem_cons_self), ih]

theorem brk_ws (ly : Layout) (lvl : Nat) : ∀ c ∈ ly.brk lvl, isWs c = true := by
  cases ly with
  | compact => simp [Layout.brk]
  | indented n =>
    intro c hc
    simp only [Layout.brk, List.mem_cons, List.mem_replicate] at hc
    rcases hc with rfl | ⟨_, rfl⟩ <;> rfl

theorem gap_ws (ly : Layout) : ∀ c ∈ ly.gap, isWs c = true := by
  cases ly with
  | compact => simp [Layout.gap]
  | indented n =>
    intro c hc
    simp only [Layout.gap, List.mem_singleton] at hc
    subst hc
    rfl

/-- The four digits of a `\u` escape. -/
theorem run_hex4 (slot : Slot F) (acc : List Char) (hi : Option Nat) (st : List (Frame F))
    {n : Nat} (hn : n < 65536) (cs : List Char) :
    run ⟨.uni slot acc hi 0 0, st⟩ (hex4 n ++ cs) =
      (finishUni slot acc hi n st).bind fun m => run m cs := by
  have h1 := hexVal_digitChar (n / 4096 % 16) (Nat.mod_lt _ (by decide))
  have h2 := hexVal_digitChar (n / 256 % 16) (Nat.mod_lt _ (by decide))
  have h3 := hexVal_digitChar (n / 16 % 16) (Nat.mod_lt _ (by decide))
  have h4 := hexVal_digitChar (n % 16) (Nat.mod_lt _ (by decide))
  have hval : 16 * (16 * (16 * (n / 4096 % 16) + n / 256 % 16) + n / 16 % 16) + n % 16 = n := by
    omega
  simp only [hex4, List.cons_append, List.nil_append, run_cons, step, h1, h2, h3, h4,
    Option.bind_some]
  simp [hval]

/-- Reading the backslash and the `u` of an escape. -/
theorem run_backslash_u (slot : Slot F) (acc : List Char) (st : List (Frame F)) (cs : List Char) :
    run ⟨.text slot acc, st⟩ ('\\' :: 'u' :: cs) = run ⟨.uni slot acc none 0 0, st⟩ cs := by
  simp [step]

theorem run_pair_backslash_u (slot : Slot F) (acc : List Char) (hi : Nat) (st : List (Frame F))
    (cs : List Char) :
    run ⟨.pair slot acc hi, st⟩ ('\\' :: 'u' :: cs) = run ⟨.uni slot acc (some hi) 0 0, st⟩ cs := by
  simp [step]

/-- **The four forms of an escaped character.** -/
theorem escape_cases (c : Char) :
    (∃ e, IsPrintable e ∧ e ≠ 'u' ∧ unescape e = some c ∧ escape c = ['\\', e]) ∨
      (IsPrintable c ∧ ¬ c < ' ' ∧ c ≠ '"' ∧ c ≠ '\\' ∧ escape c = [c]) ∨
      (c.toNat < 0x10000 ∧ escape c = '\\' :: 'u' :: hex4 c.toNat) ∨
      (0x10000 ≤ c.toNat ∧
        escape c = '\\' :: 'u' :: hex4 (0xD800 + (c.toNat - 0x10000) / 0x400) ++
          '\\' :: 'u' :: hex4 (0xDC00 + (c.toNat - 0x10000) % 0x400)) := by
  have hshort : ∀ d e : Char, IsPrintable e → e ≠ 'u' → unescape e = some d →
      escape d = ['\\', e] → c = d →
      ∃ e, IsPrintable e ∧ e ≠ 'u' ∧ unescape e = some c ∧ escape c = ['\\', e] := by
    rintro d e hp hu hd he rfl
    exact ⟨e, hp, hu, hd, he⟩
  by_cases h1 : c = '"'
  · exact Or.inl (hshort '"' '"' (by constructor <;> decide) (by decide) rfl rfl h1)
  by_cases h2 : c = '\\'
  · exact Or.inl (hshort '\\' '\\' (by constructor <;> decide) (by decide) rfl rfl h2)
  by_cases h3 : c = '\n'
  · exact Or.inl (hshort '\n' 'n' (by constructor <;> decide) (by decide) rfl rfl h3)
  by_cases h4 : c = '\r'
  · exact Or.inl (hshort '\r' 'r' (by constructor <;> decide) (by decide) rfl rfl h4)
  by_cases h5 : c = '\t'
  · exact Or.inl (hshort '\t' 't' (by constructor <;> decide) (by decide) rfl rfl h5)
  by_cases h6 : c = '\x08'
  · exact Or.inl (hshort '\x08' 'b' (by constructor <;> decide) (by decide) rfl rfl h6)
  by_cases h7 : c = '\x0c'
  · exact Or.inl (hshort '\x0c' 'f' (by constructor <;> decide) (by decide) rfl rfl h7)
  refine Or.inr ?_
  rw [escape, if_neg h1, if_neg h2, if_neg h3, if_neg h4, if_neg h5, if_neg h6, if_neg h7]
  by_cases hp : ' ' ≤ c ∧ c ≤ '~'
  · rw [if_pos hp]
    have hlow : 32 ≤ c.toNat := hp.1
    have hhigh : c.toNat ≤ 126 := hp.2
    exact Or.inl ⟨⟨hlow, by omega⟩, Char.not_lt.mpr hp.1, h1, h2, rfl⟩
  · rw [if_neg hp]
    by_cases hlt : c.toNat < 0x10000
    · rw [if_pos hlt]
      exact Or.inr (Or.inl ⟨hlt, rfl⟩)
    · rw [if_neg hlt]
      exact Or.inr (Or.inr ⟨Nat.le_of_not_lt hlt, rfl⟩)

/-- Reading an escape of one letter. -/
theorem run_unescape (slot : Slot F) (acc : List Char) (st : List (Frame F)) {e d : Char}
    (hu : e ≠ 'u') (he : unescape e = some d) (cs : List Char) :
    run ⟨.text slot acc, st⟩ ('\\' :: e :: cs) = run ⟨.text slot (acc ++ [d]), st⟩ cs := by
  have hslash : step (⟨.text slot acc, st⟩ : Machine F) '\\' = some ⟨.esc slot acc, st⟩ := rfl
  have hletter : step (⟨.esc slot acc, st⟩ : Machine F) e =
      some ⟨.text slot (acc ++ [d]), st⟩ := by
    simp only [step, if_neg hu, he, Option.map_some]
  rw [run_cons, hslash, Option.bind_some, run_cons, hletter, Option.bind_some]

/-- **One escaped character is read back as that character.** -/
theorem run_escape (slot : Slot F) (acc : List Char) (st : List (Frame F)) (c : Char)
    (cs : List Char) :
    run ⟨.text slot acc, st⟩ (escape c ++ cs) = run ⟨.text slot (acc ++ [c]), st⟩ cs := by
  rcases escape_cases c with ⟨e, -, hu, he, h⟩ | ⟨-, hlt, hq, hb, h⟩ | ⟨hlt, h⟩ | ⟨hge, h⟩
  · rw [h]
    exact run_unescape slot acc st hu he cs
  · have hstep : step (⟨.text slot acc, st⟩ : Machine F) c =
        some ⟨.text slot (acc ++ [c]), st⟩ := by
      simp only [step, if_neg hq, if_neg hb, if_neg hlt]
    rw [h, List.cons_append, run_cons, hstep, Option.bind_some, List.nil_append]
  · rw [h, List.cons_append, List.cons_append, run_backslash_u, run_hex4 _ _ _ _ hlt,
      finishUni_unit slot acc st hlt, Option.bind_some]
  · have hv : c.toNat < 0x110000 := by
      have hv : c.toNat.isValidChar := c.valid
      simp only [Nat.isValidChar] at hv
      omega
    have h1 : (c.toNat - 0x10000) / 0x400 < 0x400 := by omega
    have h2 : 0xD800 + (c.toNat - 0x10000) / 0x400 < 65536 := by omega
    have h3 : 0xDC00 + (c.toNat - 0x10000) % 0x400 < 65536 := by omega
    rw [h]
    simp only [List.cons_append, List.append_assoc]
    rw [run_backslash_u, run_hex4 _ _ _ _ h2, finishUni_high slot acc st h1, Option.bind_some,
      run_pair_backslash_u, run_hex4 _ _ _ _ h3, finishUni_low slot acc st (by omega),
      Option.bind_some]

/-- The characters of a string literal. -/
theorem run_text (slot : Slot F) (st : List (Frame F)) : ∀ (s acc cs : List Char),
    run ⟨.text slot acc, st⟩ (s.flatMap escape ++ '"' :: cs) =
      run (finishText slot (acc ++ s) st) cs
  | [], acc, cs => by simp [step]
  | c :: s, acc, cs => by
    rw [List.flatMap_cons, List.append_assoc, run_escape, run_text slot st s]
    simp

/-- A whole string literal, from behind its opening quote. -/
theorem run_quote (slot : Slot F) (st : List (Frame F)) (s : String) (cs : List Char) :
    run ⟨.text slot [], st⟩ (s.toList.flatMap escape ++ '"' :: cs) =
      run (finishText slot s.toList st) cs := by
  simpa using run_text slot st s.toList [] cs

theorem run_num (st : List (Frame F)) : ∀ (cs : List Char) {t : List Char} {ns ns' : NumState}
    (ds : List Char), NumState.scanFrom ns cs = some ns' →
      run ⟨.num t ns, st⟩ (cs ++ ds) = run ⟨.num (t ++ cs) ns', st⟩ ds
  | [], t, ns, ns', ds, h => by
    simp only [NumState.scanFrom, Option.some.injEq] at h
    simp [h]
  | c :: cs, t, ns, ns', ds, h => by
    simp only [NumState.scanFrom, Option.bind_eq_some_iff] at h
    obtain ⟨ns₁, h1, h2⟩ := h
    have ih := run_num st cs (t := t ++ [c]) ds h2
    simp [step, h1, ih]

/-! ## 3. A dump reads back -/

/-- The machine has just read the value `v` inside `st`: it has handed it over, or it is still
holding a number that the next character will end. -/
def Ends (m : Machine F) (v : Json F) (st : List (Frame F)) : Prop :=
  m = finish v st ∨ ∃ t ns, m = ⟨.num t ns, st⟩ ∧ ns.accepts = true ∧ numValue t ns = v

/-- The characters that can follow a value inside a dump. -/
def IsSep (c : Char) : Prop := c = ',' ∨ c = ']' ∨ c = '}' ∨ isWs c = true

theorem step_finish (v : Json F) (st : List (Frame F)) (c : Char) :
    step (finish v st) c = stepClosed (finish v st) c := by
  match st with
  | [] => rfl
  | .arr _ :: _ => rfl
  | .member _ _ :: _ => rfl

/-- A separator ends the value, however the machine was holding it. -/
theorem Ends.run_sep {m : Machine F} {v : Json F} {st : List (Frame F)} (h : Ends m v st)
    {c : Char} (hc : IsSep c) (cs : List Char) : run m (c :: cs) = run (finish v st) (c :: cs) := by
  rcases h with rfl | ⟨t, ns, rfl, ha, rfl⟩
  · rfl
  · have hnone : ns.next c = none := by
      refine ns.next_eq_none ?_
      simpa [IsSep, isWs, or_assoc] using hc
    have hI : c ≠ 'I' := by
      rintro rfl
      simp [IsSep, isWs] at hc
    simp only [run_cons, step_finish]
    simp [step, hnone, hI, ha]

theorem startValue_num {c : Char} {ns : NumState} (h : NumState.start c = some ns)
    (st : List (Frame F)) : startValue st c = some ⟨.num [c] ns, st⟩ := by
  have hne : ∀ d : Char, NumState.start d = none → c ≠ d := by
    rintro d hd rfl
    rw [hd] at h
    cases h
  simp [startValue, h, hne '{' rfl, hne '[' rfl, hne '"' rfl, hne 'n' rfl, hne 't' rfl,
    hne 'f' rfl, hne 'N' rfl, hne 'I' rfl]

theorem not_ws_of_start {c : Char} {ns : NumState} (h : NumState.start c = some ns) :
    isWs c = false ∧ c ≠ ']' := by
  have hne : ∀ d : Char, NumState.start d = none → c ≠ d := by
    rintro d hd rfl
    rw [hd] at h
    cases h
  simp [isWs, hne ' ' rfl, hne '\n' rfl, hne '\r' rfl, hne '\t' rfl, hne ']' rfl]

/-- The text of a number, from where a value may start. -/
theorem run_scan (st : List (Frame F)) {t : List Char} {ns : NumState}
    (h : NumState.scan t = some ns) (cs : List Char) :
    run ⟨.value, st⟩ (t ++ cs) = run ⟨.num t ns, st⟩ cs := by
  match t, h with
  | c :: t, h =>
    simp only [NumState.scan, Option.bind_eq_some_iff] at h
    obtain ⟨ns₁, h1, h2⟩ := h
    have hrun := run_num st t (t := [c]) cs h2
    simp only [List.cons_append, run_cons, step, (not_ws_of_start h1).1, startValue_num h1 st]
    simpa using hrun

/-- Every dump starts with a character that starts a value. -/
theorem dump_head (ly : Layout) (lvl : Nat) (v : Json F) :
    ∃ c t, dump ly lvl v = c :: t ∧ isWs c = false ∧ c ≠ ']' := by
  have hscan : ∀ {t : List Char} {ns : NumState}, NumState.scan t = some ns →
      ∃ c t', t = c :: t' ∧ isWs c = false ∧ c ≠ ']' := by
    intro t ns h
    match t, h with
    | c :: t, h =>
      simp only [NumState.scan, Option.bind_eq_some_iff] at h
      obtain ⟨ns₁, h1, _⟩ := h
      exact ⟨c, t, rfl, not_ws_of_start h1⟩
  match v with
  | .null => exact ⟨'n', _, rfl, by decide⟩
  | .bool true => exact ⟨'t', _, rfl, by decide⟩
  | .bool false => exact ⟨'f', _, rfl, by decide⟩
  | .int i =>
    obtain ⟨ns, h, _⟩ := scan_intText i
    simpa [dump] using hscan h
  | .float x =>
    rcases PyFloat.text_valid x with h | h | h | ⟨ns, h, _⟩
    · exact ⟨'N', "aN".toList, by rw [dump, h]; rfl, by decide⟩
    · exact ⟨'I', "nfinity".toList, by rw [dump, h]; rfl, by decide⟩
    · exact ⟨'-', "Infinity".toList, by rw [dump, h]; rfl, by decide⟩
    · simpa [dump] using hscan h
  | .str s => exact ⟨'"', _, by rw [dump, quote]; rfl, by decide⟩
  | .arr [] => exact ⟨'[', _, by rw [dump], by decide⟩
  | .arr (x :: xs) => exact ⟨'[', _, by rw [dump], by decide⟩
  | .obj [] => exact ⟨'{', _, by rw [dump], by decide⟩
  | .obj ((k, v) :: kvs) => exact ⟨'{', _, by rw [dump], by decide⟩

/-- The first element of an array is read like any other value. -/
theorem run_arrOpen (ly : Layout) (lvl : Nat) (v : Json F) (st : List (Frame F)) (cs : List Char) :
    run ⟨.arrOpen, st⟩ (dump ly lvl v ++ cs) = run ⟨.value, .arr [] :: st⟩ (dump ly lvl v ++ cs) := by
  obtain ⟨c, t, ht, hws, hbr⟩ := dump_head ly lvl v
  simp [ht, step, hws, hbr]

/-- What follows the last member of a container is a separator. -/
theorem closing_sep (ly : Layout) (lvl : Nat) {c : Char} (hc : IsSep c) (cs : List Char) :
    ∃ d t, ly.brk lvl ++ c :: cs = d :: t ∧ IsSep d := by
  cases ly with
  | compact => exact ⟨c, cs, rfl, hc⟩
  | indented n => exact ⟨'\n', _, rfl, Or.inr (Or.inr (Or.inr rfl))⟩

/-- What the machine does with the dump of one value: the statement the induction is on. -/
def ReadsBack (ly : Layout) (lvl : Nat) (v : Json F) : Prop :=
  ∀ st, ∃ m, Ends m v st ∧ ∀ cs, run ⟨.value, st⟩ (dump ly lvl v ++ cs) = run m cs

/-- One value, and the separator after it. -/
theorem ReadsBack.run_sep {ly : Layout} {lvl : Nat} {v : Json F} (h : ReadsBack ly lvl v)
    (st : List (Frame F)) {cs : List Char} (hcs : ∃ d t, cs = d :: t ∧ IsSep d) :
    run ⟨.value, st⟩ (dump ly lvl v ++ cs) = run (finish v st) cs := by
  obtain ⟨m, hm, hrun⟩ := h st
  obtain ⟨d, t, rfl, hd⟩ := hcs
  rw [hrun, hm.run_sep hd]

/-- One member of an object, from behind the opening quote of its key. -/
theorem run_member {ly : Layout} {lvl : Nat} {v : Json F} (h : ReadsBack ly lvl v)
    (done : Dict (Json F)) (k : String) (st : List (Frame F)) {cs : List Char}
    (hcs : ∃ d t, cs = d :: t ∧ IsSep d) :
    run ⟨.text (.key done) [], st⟩
        (k.toList.flatMap escape ++ '"' :: ':' :: (ly.gap ++ (dump ly lvl v ++ cs))) =
      run ⟨.afterMember (Dict.set k v done), st⟩ cs := by
  have hval := h.run_sep (.member done k :: st) hcs
  rw [run_quote, run_cons]
  have hcolon : step (finishText (.key done) k.toList st) ':' =
      some (⟨.value, .member done k :: st⟩ : Machine F) := by
    simp [finishText, step, isWs]
  rw [hcolon, Option.bind_some, run_ws (m := ⟨.value, _⟩) trivial _ (gap_ws ly), hval]
  rfl

theorem Dict.set_append {α : Type} {k : String} {v : α} : ∀ {d : Dict α},
    (∀ kv ∈ d, kv.1 < k) → Dict.set k v d = d ++ [(k, v)]
  | [], _ => rfl
  | (k', v') :: d, h => by
    have hk : k' < k := h (k', v') List.mem_cons_self
    have hne : k ≠ k' := by rintro rfl; exact String.lt_irrefl k hk
    have ih : Dict.set k v d = d ++ [(k, v)] :=
      Dict.set_append fun kv hkv => h kv (List.mem_cons_of_mem _ hkv)
    simp [Dict.set, String.lt_asymm hk, hne, ih]

theorem step_word (v : Json F) (st : List (Frame F)) (c : Char) (w : List Char) :
    step ⟨.word (c :: w) v, st⟩ c = some (if w = [] then finish v st else ⟨.word w v, st⟩) := by
  cases w <;> simp [step]

/-- The rest of `NaN`, `Infinity`, `null` and the like. -/
theorem run_word (v : Json F) (st : List (Frame F)) : ∀ (w : List Char), w ≠ [] → ∀ cs,
    run ⟨.word w v, st⟩ (w ++ cs) = run (finish v st) cs
  | [], h, _ => absurd rfl h
  | [c], _, cs => by
    rw [List.cons_append, run_cons, step_word]
    rfl
  | c :: d :: w, _, cs => by
    rw [List.cons_append, run_cons, step_word, if_neg (List.cons_ne_nil d w), Option.bind_some]
    exact run_word v st (d :: w) (List.cons_ne_nil d w) cs

/-- A `float`, whichever of its four forms its text has. -/
theorem readsBack_float (ly : Layout) (lvl : Nat) (x : F) : ReadsBack ly lvl (.float x) := by
  intro st
  have hback := PyFloat.ofText_text x
  rcases PyFloat.text_valid x with h | h | h | ⟨ns, h, ha, hi⟩
  · rw [h] at hback
    refine ⟨finish (.float x) st, Or.inl rfl, fun cs => ?_⟩
    rw [dump, h, ← hback]
    exact run_word _ st "aN".toList (by decide) cs
  · rw [h] at hback
    refine ⟨finish (.float x) st, Or.inl rfl, fun cs => ?_⟩
    rw [dump, h, ← hback]
    exact run_word _ st "nfinity".toList (by decide) cs
  · rw [h] at hback
    refine ⟨finish (.float x) st, Or.inl rfl, fun cs => ?_⟩
    rw [dump, h, ← hback]
    exact run_word _ st "nfinity".toList (by decide) cs
  · refine ⟨⟨.num (PyFloat.text x) ns, st⟩, Or.inr ⟨_, ns, rfl, ha, ?_⟩, fun cs => ?_⟩
    · simp [numValue, hi, hback]
    · rw [dump, run_scan st h]

mutual
/-- **A dump reads back**, as seen from inside any containers. -/
theorem readsBack (ly : Layout) : ∀ (v : Json F) (lvl : Nat), v.Wf → ReadsBack ly lvl v
  | .null, _, _ => fun st =>
    ⟨finish .null st, Or.inl rfl, fun cs => run_word .null st "ull".toList (by decide) cs⟩
  | .bool true, _, _ => fun st =>
    ⟨finish (.bool true) st, Or.inl rfl, fun cs => run_word (.bool true) st "rue".toList (by decide) cs⟩
  | .bool false, _, _ => fun st =>
    ⟨finish (.bool false) st, Or.inl rfl, fun cs => run_word (.bool false) st "alse".toList (by decide) cs⟩
  | .int i, _, _ => fun st => by
    -- a number has no closing mark: it ends with the separator behind it
    obtain ⟨ns, hs, ha, hi⟩ := scan_intText i
    refine ⟨⟨.num (intText i) ns, st⟩, Or.inr ⟨_, ns, rfl, ha, ?_⟩, fun cs => ?_⟩
    · simp [numValue, hi, intOfText_intText]
    · rw [dump, run_scan st hs]
  | .float x, lvl, _ => readsBack_float ly lvl x
  | .str s, _, _ => fun st => by
    refine ⟨finish (.str s) st, Or.inl rfl, fun cs => ?_⟩
    have h := run_quote .value st s cs
    simp only [finishText, String.ofList_toList] at h
    rw [dump, quote, ← h]
    simp [step, startValue, isWs]
  | .arr [], _, _ => fun st =>
    ⟨finish (.arr []) st, Or.inl rfl, fun _ => rfl⟩
  | .arr (x :: xs), lvl, hwf => fun st => by
    simp only [Wf, WfElems] at hwf
    have hx := readsBack ly x (lvl + 1) hwf.1
    refine ⟨finish (.arr (x :: xs)) st, Or.inl rfl, fun cs => ?_⟩
    obtain ⟨hsep, hrest⟩ := readsBack_elems ly xs lvl hwf.2
    have hopen : step (⟨.value, st⟩ : Machine F) '[' = some ⟨.arrOpen, st⟩ := by
      simp [step, startValue, isWs]
    simp only [dump, List.cons_append, List.append_assoc, List.nil_append, run_cons, hopen,
      Option.bind_some]
    rw [run_ws (m := ⟨.arrOpen, st⟩) trivial _ (brk_ws ly _), run_arrOpen,
      hx.run_sep (.arr [] :: st) (hsep cs)]
    exact hrest [x] st cs
  | .obj [], _, _ => fun st =>
    ⟨finish (.obj []) st, Or.inl rfl, fun _ => rfl⟩
  | .obj ((k, v) :: kvs), lvl, hwf => fun st => by
    simp only [Wf, WfMembers] at hwf
    have hv := readsBack ly v (lvl + 1) hwf.2.1
    refine ⟨finish (.obj ((k, v) :: kvs)) st, Or.inl rfl, fun cs => ?_⟩
    obtain ⟨hsep, hrest⟩ := readsBack_members ly kvs lvl hwf.2.2
    have hopen : step (⟨.value, st⟩ : Machine F) '{' = some ⟨.objOpen, st⟩ := by
      simp [step, startValue, isWs]
    have hkey : step (⟨.objOpen, st⟩ : Machine F) '"' = some ⟨.text (.key []) [], st⟩ := by
      simp [step, isWs]
    simp only [dump, quote, List.cons_append, List.append_assoc, List.nil_append, run_cons, hopen,
      Option.bind_some]
    rw [run_ws (m := ⟨.objOpen, st⟩) trivial _ (brk_ws ly _), run_cons, hkey, Option.bind_some,
      run_member hv [] k st (hsep cs)]
    exact hrest [(k, v)] st cs hwf.1
/-- The elements after the first, and the closing bracket. -/
theorem readsBack_elems (ly : Layout) : ∀ (xs : List (Json F)) (lvl : Nat), WfElems xs →
    (∀ cs, ∃ d t, dumpElems ly lvl xs ++ (ly.brk lvl ++ ']' :: cs) = d :: t ∧ IsSep d) ∧
    ∀ (done : List (Json F)) (st : List (Frame F)) (cs : List Char),
      run ⟨.afterElem done, st⟩ (dumpElems ly lvl xs ++ (ly.brk lvl ++ ']' :: cs)) =
        run (finish (.arr (done ++ xs)) st) cs
  | [], lvl, _ => by
    refine ⟨fun cs => by simpa [dumpElems] using closing_sep ly lvl (Or.inr (Or.inl rfl)) cs, ?_⟩
    intro done st cs
    simp only [dumpElems, List.nil_append, List.append_nil]
    rw [run_ws (m := ⟨.afterElem done, st⟩) trivial _ (brk_ws ly _)]
    simp [step, stepClosed, isWs]
  | x :: xs, lvl, hwf => by
    simp only [WfElems] at hwf
    have hx := readsBack ly x (lvl + 1) hwf.1
    obtain ⟨hsep, hrest⟩ := readsBack_elems ly xs lvl hwf.2
    refine ⟨fun cs => ⟨',', _, by rw [dumpElems]; rfl, Or.inl rfl⟩, ?_⟩
    intro done st cs
    have hcomma : step (⟨.afterElem done, st⟩ : Machine F) ',' = some ⟨.value, .arr done :: st⟩ := by
      simp [step, stepClosed, isWs]
    have hnext := hrest (done ++ [x]) st cs
    simp only [dumpElems, List.cons_append, List.append_assoc, run_cons, hcomma, Option.bind_some]
    rw [run_ws (m := ⟨.value, _⟩) trivial _ (brk_ws ly _), hx.run_sep (.arr done :: st) (hsep cs)]
    simpa [finish] using hnext
/-- The members after the first, and the closing brace. -/
theorem readsBack_members (ly : Layout) : ∀ (kvs : List (String × Json F)) (lvl : Nat),
    WfMembers kvs →
    (∀ cs, ∃ d t, dumpMembers ly lvl kvs ++ (ly.brk lvl ++ '}' :: cs) = d :: t ∧ IsSep d) ∧
    ∀ (done : Dict (Json F)) (st : List (Frame F)) (cs : List Char), (done ++ kvs).Sorted →
      run ⟨.afterMember done, st⟩ (dumpMembers ly lvl kvs ++ (ly.brk lvl ++ '}' :: cs)) =
        run (finish (.obj (done ++ kvs)) st) cs
  | [], lvl, _ => by
    refine ⟨fun cs => by
      simpa [dumpMembers] using closing_sep ly lvl (Or.inr (Or.inr (Or.inl rfl))) cs, ?_⟩
    intro done st cs _
    simp only [dumpMembers, List.nil_append, List.append_nil]
    rw [run_ws (m := ⟨.afterMember done, st⟩) trivial _ (brk_ws ly _)]
    simp [step, stepClosed, isWs]
  | (k, v) :: kvs, lvl, hwf => by
    simp only [WfMembers] at hwf
    have hv := readsBack ly v (lvl + 1) hwf.1
    obtain ⟨hsep, hrest⟩ := readsBack_members ly kvs lvl hwf.2
    refine ⟨fun cs => ⟨',', _, by rw [dumpMembers]; rfl, Or.inl rfl⟩, ?_⟩
    intro done st cs hsorted
    have hlast : ∀ kv ∈ done, kv.1 < k := by
      intro kv hkv
      exact (List.pairwise_append.mp hsorted).2.2 kv hkv (k, v) List.mem_cons_self
    have hcomma : step (⟨.afterMember done, st⟩ : Machine F) ',' = some ⟨.key done, st⟩ := by
      simp [step, stepClosed, isWs]
    have hkey : step (⟨.key done, st⟩ : Machine F) '"' = some ⟨.text (.key done) [], st⟩ := by
      simp [step, isWs]
    have hnext := hrest (done ++ [(k, v)]) st cs (by simpa using hsorted)
    simp only [dumpMembers, quote, List.cons_append, List.append_assoc, List.nil_append, run_cons,
      hcomma, Option.bind_some]
    rw [run_ws (m := ⟨.key done, st⟩) trivial _ (brk_ws ly _), run_cons, hkey, Option.bind_some,
      run_member hv done k st (hsep cs), Dict.set_append hlast]
    simpa using hnext
end

/-- **The JSON library round-trips**: a dump, with any whitespace after it, reads back. -/
theorem loadsText_dump (ly : Layout) {v : Json F} (hwf : v.Wf) {ws : List Char}
    (hws : ∀ c ∈ ws, isWs c = true) : loadsText (dump ly 0 v ++ ws) = some v := by
  obtain ⟨m, hm, hrun⟩ := readsBack ly v 0 hwf []
  rw [loadsText, hrun]
  cases ws with
  | nil =>
    rcases hm with rfl | ⟨t, ns, rfl, ha, hv⟩
    · rfl
    · simp [final, ha, hv]
  | cons c ws =>
    have hc : IsSep c := Or.inr (Or.inr (Or.inr (hws c List.mem_cons_self)))
    have hskip := run_ws (m := (finish v [] : Machine F)) trivial [] hws
    rw [List.append_nil] at hskip
    rw [hm.run_sep hc, hskip]
    rfl

/-! ## 4. A cut dump does not read -/

/-- How deep inside containers a mode is, beyond the machine's stack. -/
def Slot.depth : Slot F → Nat
  | .value => 0
  | .key _ => 1

def Mode.depth : Mode F → Nat
  | .arrOpen | .objOpen | .key _ | .colon _ _ | .afterElem _ | .afterMember _ => 1
  | .text slot _ | .esc slot _ | .uni slot _ _ _ _ | .pair slot _ _ | .pairU slot _ _ => slot.depth
  | .value | .done _ | .num _ _ | .word _ _ => 0

/-- The value is finished, or the machine is inside a container. -/
def Inside (m : Machine F) : Prop := (∃ v, m.mode = .done v) ∨ 0 < m.mode.depth + m.stack.length

omit [PyFloat F] in
theorem Inside.deep {m : Machine F} (hm : Inside m) (hne : ∀ v, m.mode ≠ .done v) :
    0 < m.mode.depth + m.stack.length :=
  hm.resolve_left fun ⟨v, hv⟩ => hne v hv

omit [PyFloat F] in
theorem Mode.InText.ne_done {slot : Slot F} {mode : Mode F} (h : mode.InText slot) (v : Json F) :
    mode ≠ .done v := by
  rintro rfl
  exact h

omit [PyFloat F] in
theorem Mode.InText.depth {slot : Slot F} {mode : Mode F} (h : mode.InText slot) :
    mode.depth = slot.depth := by
  cases mode with
  | text s acc | esc s acc | uni s acc hi count code | pair s acc hi | pairU s acc hi =>
    exact congrArg Slot.depth h
  | _ => exact h.elim

omit [PyFloat F] in
theorem inside_finish (v : Json F) (st : List (Frame F)) : Inside (finish v st) := by
  match st with
  | [] => exact Or.inl ⟨v, rfl⟩
  | .arr _ :: _ => exact Or.inr (by simp [finish, Mode.depth])
  | .member _ _ :: _ => exact Or.inr (by simp [finish, Mode.depth])

omit [PyFloat F] in
theorem inside_finishText (slot : Slot F) (acc : List Char) (st : List (Frame F)) :
    Inside (finishText slot acc st) := by
  cases slot with
  | value => exact inside_finish _ _
  | key done => exact Or.inr (by simp [finishText, Mode.depth])

/-- The first character of a value does not touch the containers. -/
theorem startValue_stack {st : List (Frame F)} {c : Char} {m : Machine F}
    (h : startValue st c = some m) : m.stack = st := by
  revert h
  unfold startValue
  iterate 8 refine of_ite_eq_some (fun _ hm => hm ▸ rfl) ?_
  intro h
  obtain ⟨ns, -, rfl⟩ := Option.map_eq_some_iff.mp h
  rfl

theorem inside_startValue {st : List (Frame F)} {c : Char} {m : Machine F} (hst : 0 < st.length)
    (h : startValue st c = some m) : Inside m := by
  refine Or.inr ?_
  rw [startValue_stack h]
  omega

/-- **A container is left only by finishing it.** -/
theorem Moves.inside {m m' : Machine F} (h : Moves m m') (hm : Inside m) : Inside m' := by
  induction h with
  | stays m => exact hm
  | begins h =>
    have hst := hm.deep (by simp)
    exact inside_startValue (by simpa [Mode.depth] using hst) h
  | beginsElem h => exact inside_startValue (by simp) h
  | emptyArr st => exact inside_finish _ st
  | emptyObj st => exact inside_finish _ st
  | firstKey st => exact Or.inr (by simp [Mode.depth, Slot.depth])
  | nextKey kvs st => exact Or.inr (by simp [Mode.depth, Slot.depth])
  | member kvs k st => exact Or.inr (by simp)
  | nextElem xs st => exact Or.inr (by simp)
  | closesArr xs st => exact inside_finish _ st
  | nextMember kvs st => exact Or.inr (by simp [Mode.depth])
  | closesObj kvs st => exact inside_finish _ st
  | digit t t' ns ns' st => exact Or.inr (hm.deep (by simp))
  | infinity t rest ns x st => exact Or.inr (hm.deep (by simp))
  | endsNum h ih => exact ih (inside_finish _ _)
  | letter rest rest' v st => exact Or.inr (hm.deep (by simp))
  | endsWord rest v st => exact inside_finish v st
  | inText slot st h h' =>
    have hst := hm.deep h.ne_done
    exact Or.inr (by rwa [h'.depth, ← h.depth])
  | endsText slot acc st => exact inside_finishText slot acc st

theorem inside_run : ∀ {cs : List Char} {m m' : Machine F}, Inside m → run m cs = some m' → Inside m'
  | [], m, m', hm, h => by cases h; exact hm
  | c :: cs, m, m', hm, h => by
    simp only [run_cons, Option.bind_eq_some_iff] at h
    obtain ⟨m₁, h1, h2⟩ := h
    exact inside_run ((moves_of_step h1).inside hm) h2

/-- A finished machine moves on whitespace alone. -/
theorem ws_of_run_done {v : Json F} : ∀ {cs : List Char} {m : Machine F},
    run ⟨.done v, []⟩ cs = some m → ∀ c ∈ cs, isWs c = true
  | [], _, _ => by simp
  | c :: cs, m, h => by
    simp only [run_cons, Option.bind_eq_some_iff] at h
    obtain ⟨m₁, h1, h2⟩ := h
    have hc : isWs c = true ∧ m₁ = ⟨.done v, []⟩ := by
      simp only [step, stepClosed] at h1
      split at h1
      · rename_i hws
        cases h1
        exact ⟨hws, rfl⟩
      · cases h1
    rw [hc.2] at h2
    intro d hd
    rcases List.mem_cons.mp hd with rfl | hd
    · exact hc.1
    · exact ws_of_run_done h2 d hd

/-- The machine after an object's opening brace, and at the end of its dump. -/
theorem run_obj (ly : Layout) {kvs : List (String × Json F)} (hwf : (Json.obj kvs).Wf) :
    ∃ t, dump ly 0 (Json.obj kvs) = '{' :: t ∧
      run ⟨.objOpen, []⟩ t = some (⟨.done (.obj kvs), []⟩ : Machine F) ∧
      (dump ly 0 (Json.obj kvs)).getLast? = some '}' := by
  have hfin : run ⟨.value, []⟩ (dump ly 0 (Json.obj kvs)) =
      some (⟨.done (.obj kvs), []⟩ : Machine F) := by
    obtain ⟨m, hm, hrun⟩ := readsBack ly (Json.obj kvs) 0 hwf []
    have hm' : run m [] = some (⟨.done (.obj kvs), []⟩ : Machine F) := by
      rcases hm with rfl | ⟨t, ns, rfl, ha, hv⟩
      · rfl
      · -- an object is not a number
        simp only [numValue] at hv
        split at hv <;> cases hv
    rw [← hm', ← hrun [], List.append_nil]
  have hopen : step (⟨.value, []⟩ : Machine F) '{' = some ⟨.objOpen, []⟩ := rfl
  match kvs with
  | [] => exact ⟨['}'], by rw [dump], rfl, by rw [dump]; rfl⟩
  | (k, v) :: kvs =>
    refine ⟨_, by rw [dump], ?_, ?_⟩
    · rw [dump, run_cons, hopen, Option.bind_some] at hfin
      exact hfin
    · rw [dump]
      simp [List.getLast?_cons, List.getLast?_append]

/-- **A strict prefix of an object's dump does not read.** -/
theorem loadsText_take_obj (ly : Layout) {kvs : List (String × Json F)} (hwf : (Json.obj kvs).Wf)
    {k : Nat} (hk : k < (dump ly 0 (Json.obj kvs)).length) :
    loadsText (F := F) ((dump ly 0 (Json.obj kvs)).take k) = none := by
  obtain ⟨t, ht, hrun, hlast⟩ := run_obj ly hwf
  rw [ht] at hk hlast ⊢
  match k with
  | 0 => rfl
  | k + 1 =>
    rw [Option.eq_none_iff_forall_not_mem]
    intro w hw
    have hopen : step (⟨.value, []⟩ : Machine F) '{' = some ⟨.objOpen, []⟩ := rfl
    rw [Option.mem_def, loadsText, List.take_succ_cons, run_cons, hopen, Option.bind_some,
      Option.bind_eq_some_iff] at hw
    obtain ⟨m, hm, hfinal⟩ := hw
    have hin : Inside m := inside_run (m := ⟨.objOpen, []⟩) (Or.inr (by simp [Mode.depth])) hm
    -- the machine stopped on a finished value, so what follows is whitespace: not the brace
    have hdone : m = ⟨.done w, []⟩ := by
      obtain ⟨mode, st⟩ := m
      unfold final at hfinal
      split at hfinal
      · simp_all
      · rename_i hst
        rcases hin with ⟨v, hv⟩ | hd
        · simp_all
        · simp_all [Mode.depth]
      · cases hfinal
    rw [← List.take_append_drop k t, run_append, hm, Option.bind_some, hdone] at hrun
    have hws := ws_of_run_done hrun
    have hne : t.drop k ≠ [] := by
      simp only [List.length_cons] at hk
      simpa using by omega
    have hmem : '}' ∈ t.drop k := by
      have h1 : (t.drop k).getLast? = some '}' := by
        rw [List.getLast?_drop, if_neg (by simpa using hne)]
        cases t with
        | nil => simp at hne
        | cons d t => simpa [List.getLast?_cons] using hlast
      exact List.mem_of_getLast? h1
    exact absurd (hws '}' hmem) (by decide)

/-! ## 5. The same, on bytes -/

theorem hex4_printable (n : Nat) : ∀ c ∈ hex4 n, IsPrintable c := by
  have hd : ∀ d < 16, 32 ≤ (Nat.digitChar d).toNat ∧ (Nat.digitChar d).toNat < 127 := by decide
  intro c hc
  simp only [hex4, List.mem_cons, List.not_mem_nil, or_false] at hc
  rcases hc with rfl | rfl | rfl | rfl
  all_goals exact hd _ (Nat.mod_lt _ (by decide))

theorem escape_printable (c : Char) : ∀ d ∈ escape c, IsPrintable d := by
  have hbs : IsPrintable '\\' := by constructor <;> decide
  have hpair : ∀ x : Char, 32 ≤ x.toNat ∧ x.toNat < 127 → ∀ d ∈ ['\\', x], IsPrintable d := by
    intro x hx d hd
    simp only [List.mem_cons, List.not_mem_nil, or_false] at hd
    rcases hd with rfl | rfl
    · exact hbs
    · exact hx
  have huni : ∀ n, ∀ d ∈ '\\' :: 'u' :: hex4 n, IsPrintable d := by
    intro n d hd
    simp only [List.mem_cons] at hd
    rcases hd with rfl | rfl | hd
    · exact hbs
    · constructor <;> decide
    · exact hex4_printable n d hd
  intro d hd
  rcases escape_cases c with ⟨e, he, -, -, h⟩ | ⟨hp, -, -, -, h⟩ | ⟨-, h⟩ | ⟨-, h⟩
  · rw [h] at hd
    exact hpair e he d hd
  · rw [h] at hd
    rw [List.mem_singleton.mp hd]
    exact hp
  · rw [h] at hd
    exact huni _ d hd
  · rw [h] at hd
    rcases List.mem_append.mp hd with hd | hd
    · exact huni _ d hd
    · exact huni _ d hd

theorem quote_printable (s : String) : ∀ c ∈ quote s, IsPrintable c := by
  have hq : IsPrintable '"' := by constructor <;> decide
  intro c hc
  simp only [quote, List.cons_append, List.mem_cons, List.mem_append, List.mem_flatMap,
    List.not_mem_nil, or_false] at hc
  rcases hc with rfl | ⟨d, -, hc⟩ | rfl
  · exact hq
  · exact escape_printable d c hc
  · exact hq

theorem floatText_printable (x : F) : ∀ c ∈ PyFloat.text x, IsPrintable c := by
  rcases PyFloat.text_valid x with h | h | h | ⟨ns, h, _⟩
  · rw [h]; intro c hc; simp at hc; rcases hc with rfl | rfl | rfl <;> constructor <;> decide
  · rw [h]; intro c hc; simp at hc; rcases hc with rfl | rfl | rfl | rfl | rfl | rfl | rfl | rfl <;>
      constructor <;> decide
  · rw [h]; intro c hc; simp at hc
    rcases hc with rfl | rfl | rfl | rfl | rfl | rfl | rfl | rfl | rfl <;> constructor <;> decide
  · exact NumState.printable_of_scan h

/-- `P` holds of the printable characters and of the ones the layout adds. -/
def Covers (ly : Layout) (P : Char → Prop) : Prop :=
  (∀ c, IsPrintable c → P c) ∧ (∀ lvl, ∀ c ∈ ly.brk lvl, P c) ∧ ∀ c ∈ ly.gap, P c

section Chars

variable {ly : Layout} {P : Char → Prop} (hP : Covers ly P)

include hP

mutual
/-- Whatever covers the layout holds of every character of a dump. -/
theorem forall_mem_dump : ∀ (v : Json F) (lvl : Nat), ∀ c ∈ dump ly lvl v, P c
  | .null, _ => by
    intro c hc
    simp only [dump] at hc
    refine hP.1 c ?_
    simp at hc
    rcases hc with rfl | rfl | rfl <;> constructor <;> decide
  | .bool true, _ => by
    intro c hc
    simp only [dump] at hc
    refine hP.1 c ?_
    simp at hc
    rcases hc with rfl | rfl | rfl | rfl <;> constructor <;> decide
  | .bool false, _ => by
    intro c hc
    simp only [dump] at hc
    refine hP.1 c ?_
    simp at hc
    rcases hc with rfl | rfl | rfl | rfl | rfl <;> constructor <;> decide
  | .int i, _ => by
    intro c hc
    obtain ⟨ns, hs, _⟩ := scan_intText i
    exact hP.1 c (NumState.printable_of_scan hs c (by simpa [dump] using hc))
  | .float x, _ => fun c hc => hP.1 c (floatText_printable x c (by simpa [dump] using hc))
  | .str s, _ => fun c hc => hP.1 c (quote_printable s c (by simpa [dump] using hc))
  | .arr [], _ => by
    intro c hc
    simp only [dump, List.mem_cons, List.not_mem_nil, or_false] at hc
    rcases hc with rfl | rfl <;> exact hP.1 _ (by constructor <;> decide)
  | .arr (x :: xs), lvl => by
    intro c hc
    simp only [dump, List.mem_cons, List.mem_append, List.not_mem_nil, or_false] at hc
    rcases hc with rfl | ((hc | hc) | hc) | (hc | rfl)
    · exact hP.1 _ (by constructor <;> decide)
    · exact hP.2.1 _ c hc
    · exact forall_mem_dump x _ c hc
    · exact forall_mem_dumpElems xs lvl c hc
    · exact hP.2.1 _ c hc
    · exact hP.1 _ (by constructor <;> decide)
  | .obj [], _ => by
    intro c hc
    simp only [dump, List.mem_cons, List.not_mem_nil, or_false] at hc
    rcases hc with rfl | rfl <;> exact hP.1 _ (by constructor <;> decide)
  | .obj ((k, v) :: kvs), lvl => by
    intro c hc
    simp only [dump, List.mem_cons, List.mem_append, List.not_mem_nil, or_false] at hc
    rcases hc with rfl | (((hc | hc) | rfl | hc | hc) | hc) | (hc | rfl)
    · exact hP.1 _ (by constructor <;> decide)
    · exact hP.2.1 _ c hc
    · exact hP.1 _ (quote_printable k c hc)
    · exact hP.1 _ (by constructor <;> decide)
    · exact hP.2.2 c hc
    · exact forall_mem_dump v _ c hc
    · exact forall_mem_dumpMembers kvs lvl c hc
    · exact hP.2.1 _ c hc
    · exact hP.1 _ (by constructor <;> decide)
/-- The same for the elements after the first. -/
theorem forall_mem_dumpElems : ∀ (xs : List (Json F)) (lvl : Nat), ∀ c ∈ dumpElems ly lvl xs, P c
  | [], _ => by simp [dumpElems]
  | x :: xs, lvl => by
    intro c hc
    simp only [dumpElems, List.mem_cons, List.mem_append] at hc
    rcases hc with rfl | ((hc | hc) | hc)
    · exact hP.1 _ (by constructor <;> decide)
    · exact hP.2.1 _ c hc
    · exact forall_mem_dump x _ c hc
    · exact forall_mem_dumpElems xs lvl c hc
/-- The same for the members after the first. -/
theorem forall_mem_dumpMembers :
    ∀ (kvs : List (String × Json F)) (lvl : Nat), ∀ c ∈ dumpMembers ly lvl kvs, P c
  | [], _ => by simp [dumpMembers]
  | (k, v) :: kvs, lvl => by
    intro c hc
    simp only [dumpMembers, List.mem_cons, List.mem_append] at hc
    rcases hc with rfl | (((hc | hc) | rfl | hc | hc) | hc)
    · exact hP.1 _ (by constructor <;> decide)
    · exact hP.2.1 _ c hc
    · exact hP.1 _ (quote_printable k c hc)
    · exact hP.1 _ (by constructor <;> decide)
    · exact hP.2.2 c hc
    · exact forall_mem_dump v _ c hc
    · exact forall_mem_dumpMembers kvs lvl c hc
end

end Chars

theorem canonical_printable (v : Json F) : ∀ c ∈ canonical v, IsPrintable c :=
  forall_mem_dump ⟨fun _ h => h, by simp [Layout.brk], by simp [Layout.gap]⟩ v 0

theorem isAscii_of_isWs {c : Char} (h : isWs c = true) : IsAscii c := by
  simp only [isWs, Bool.or_eq_true, decide_eq_true_eq] at h
  rcases h with ((rfl | rfl) | rfl) | rfl <;> constructor <;> decide

theorem dump_ascii (ly : Layout) (v : Json F) : ∀ c ∈ dump ly 0 v, IsAscii c :=
  forall_mem_dump ⟨fun _ h => h.isAscii, fun lvl c hc => isAscii_of_isWs (brk_ws ly lvl c hc),
    fun c hc => isAscii_of_isWs (gap_ws ly c hc)⟩ v 0

theorem loads_utf8 {cs : List Char} (h : ∀ c ∈ cs, IsAscii c) :
    loads (utf8 cs) = (loadsText cs : Option (Json F)) := by
  rw [loads, decodeText_utf8 h, Option.bind_some]

/-- The bytes of a dump, and a newline after them, read back. -/
theorem loads_dump_newline (ly : Layout) {v : Json F} (hwf : v.Wf) :
    loads (utf8 (dump ly 0 v) ++ [newline]) = some v := by
  have hnl : utf8 (dump ly 0 v) ++ [newline] = utf8 (dump ly 0 v ++ ['\n']) := by
    rw [utf8_append]; rfl
  have hascii : ∀ c ∈ dump ly 0 v ++ ['\n'], IsAscii c := by
    intro c hc
    rcases List.mem_append.mp hc with hc | hc
    · exact dump_ascii ly v c hc
    · rw [List.mem_singleton.mp hc]; constructor <;> decide
  rw [hnl, loads_utf8 hascii]
  refine loadsText_dump ly hwf ?_
  intro c hc
  rw [List.mem_singleton.mp hc]
  rfl

/-- The bytes of a dump alone read back. -/
theorem loads_dump (ly : Layout) {v : Json F} (hwf : v.Wf) :
    loads (utf8 (dump ly 0 v)) = some v := by
  have h := @loadsText_dump F _ ly v hwf [] (by simp)
  rw [loads_utf8 (dump_ascii ly v)]
  simpa using h

end Json

end Lib
