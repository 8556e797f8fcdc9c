/-
# JSON values over any text, and what their canonical form determines

`Json` has `String` for its texts.  `PyJson F T` leaves the type of a text open: read from a file
it holds code points (`PyStr`), and `map PyStr.units` is the same value with its texts as UTF-16
code units.

The result of this file is that the canonical form of a value determines its units:
`json.dumps(.., sort_keys=True, separators=(",", ":"))` is PREFIX FREE on the values over code
units (`dump_prefixFree`), so that two values with one canonical form differ at most in whether a
pair of surrogates stands for one character (`units_of_canonical`).
-/
import AegisShield.Lib.CodePoint
import AegisShield.Lib.JsonRoundTrip

namespace Lib

/-- A printed form that can be split off the front of any text. -/
def PrefixFree {α : Type} (f : α → List Char) : Prop :=
  ∀ (a b : α) (s t : List Char), f a ++ s = f b ++ t → a = b ∧ s = t

/-- A value `json.loads` can return, with its texts in `T`.  A `dict` is sorted by key. -/
inductive PyJson (F T : Type)
  | null
  | bool (b : Bool)
  | int (i : Int)
  | float (x : F)
  | str (s : T)
  | arr (xs : List (PyJson F T))
  | obj (kvs : List (T × PyJson F T))

namespace PyJson

variable {F T U : Type}

/-! ## 1. Changing the texts -/

mutual
/-- The value with `f` applied to its texts, keys included. -/
def map (f : T → U) : PyJson F T → PyJson F U
  | .null => .null
  | .bool b => .bool b
  | .int i => .int i
  | .float x => .float x
  | .str s => .str (f s)
  | .arr xs => .arr (mapElems f xs)
  | .obj kvs => .obj (mapMembers f kvs)
/-- `map` on the elements of an array. -/
def mapElems (f : T → U) : List (PyJson F T) → List (PyJson F U)
  | [] => []
  | x :: xs => map f x :: mapElems f xs
/-- `map` on the members of an object. -/
def mapMembers (f : T → U) : List (T × PyJson F T) → List (U × PyJson F U)
  | [] => []
  | (k, v) :: kvs => (f k, map f v) :: mapMembers f kvs
end

theorem mapMembers_eq (f : T → U) : ∀ kvs : List (T × PyJson F T),
    mapMembers f kvs = kvs.map fun kv => (f kv.1, kv.2.map f)
  | [] => rfl
  | (k, v) :: kvs => by rw [mapMembers, mapMembers_eq f kvs]; rfl

/-! ## 2. Printing -/

section Dump

variable [PyFloat F] (q : T → List Char)

mutual
/-- `json.dumps(value, sort_keys=True, separators=(",", ":"))`, where `q` prints a text. -/
def dump : PyJson F T → List Char
  | .null => "null".toList
  | .bool true => "true".toList
  | .bool false => "false".toList
  | .int i => intText i
  | .float x => PyFloat.text x
  | .str s => q s
  | .arr [] => ['[', ']']
  | .arr (x :: xs) => '[' :: (dump x ++ dumpElems xs)
  | .obj [] => ['{', '}']
  | .obj ((k, v) :: kvs) => '{' :: (q k ++ ':' :: (dump v ++ dumpMembers kvs))
/-- The elements of an array after the first, and its bracket. -/
def dumpElems : List (PyJson F T) → List Char
  | [] => [']']
  | x :: xs => ',' :: (dump x ++ dumpElems xs)
/-- The members of an object after the first, and its bracket. -/
def dumpMembers : List (T × PyJson F T) → List Char
  | [] => ['}']
  | (k, v) :: kvs => ',' :: (q k ++ ':' :: (dump v ++ dumpMembers kvs))
end

end Dump

/-- One code unit under `ensure_ascii`. -/
def escapeUnit (u : CodeUnit) : List Char :=
  if u.val < 0x80 then Json.escape (Char.ofNat u.val) else '\\' :: 'u' :: Json.hex4 u.val

/-- A string literal, from its code units. -/
def quoteUnits (us : List CodeUnit) : List Char := '"' :: us.flatMap escapeUnit ++ ['"']

/-- A string literal: every code point past the first plane is a surrogate pair. -/
def quote (s : PyStr) : List Char := quoteUnits (PyStr.units s)

/-- `json.dumps(value, sort_keys=True, separators=(",", ":"))` of a value read from a file. -/
def canonical [PyFloat F] (v : PyJson F PyStr) : List Char := dump quote v

mutual
/-- How many containers are inside one another. -/
def depth : PyJson F T → Nat
  | .arr xs => depthElems xs + 1
  | .obj kvs => depthMembers kvs + 1
  | _ => 0
/-- The deepest element of an array. -/
def depthElems : List (PyJson F T) → Nat
  | [] => 0
  | x :: xs => max (depth x) (depthElems xs)
/-- The deepest member of an object. -/
def depthMembers : List (T × PyJson F T) → Nat
  | [] => 0
  | (_, v) :: kvs => max (depth v) (depthMembers kvs)
end

/-! ## 3. Literals -/

/-- The number that four hexadecimal digits denote, and what follows them. -/
def readHex4 : List Char → Option (Nat × List Char)
  | a :: b :: c :: d :: rest => do
    let w ← hexVal a
    let x ← hexVal b
    let y ← hexVal c
    let z ← hexVal d
    return (w * 4096 + x * 256 + y * 16 + z, rest)
  | _ => none

/-- The first code unit of the rest of a string literal, and what follows it. -/
def readUnit : List Char → Option (Nat × List Char)
  | [] => none
  | c :: rest =>
    if c = '\\' then
      match rest with
      | [] => none
      | e :: rest =>
        if e = 'u' then readHex4 rest else (Json.unescape e).map fun c => (c.toNat, rest)
    else if c = '"' then none
    else some (c.toNat, rest)

theorem readHex4_hex4 {n : Nat} (h : n < 0x10000) (rest : List Char) :
    readHex4 (Json.hex4 n ++ rest) = some (n, rest) := by
  have hd : ∀ m, hexVal (Nat.digitChar (m % 16)) = some (m % 16) :=
    fun m => hexVal_digitChar _ (Nat.mod_lt _ (by decide))
  simp only [Json.hex4, List.cons_append, List.nil_append, readHex4, hd, Option.bind_eq_bind,
    Option.bind_some, Option.pure_def]
  congr 2
  omega

theorem readUnit_u {n : Nat} (h : n < 0x10000) (rest : List Char) :
    readUnit ('\\' :: 'u' :: Json.hex4 n ++ rest) = some (n, rest) := by
  rw [List.cons_append, List.cons_append, readUnit, if_pos rfl]
  exact (if_pos rfl).trans (readHex4_hex4 h rest)

/-- A printed code unit is read back. -/
theorem readUnit_escapeUnit (u : CodeUnit) (rest : List Char) :
    readUnit (escapeUnit u ++ rest) = some (u.val, rest) := by
  unfold escapeUnit
  split
  · rename_i hu
    have hval : (Char.ofNat u.val).toNat = u.val := by
      have hvalid : u.val.isValidChar := Or.inl (by omega)
      rw [Char.ofNat, dif_pos hvalid]
      rfl
    rcases Json.escape_cases (Char.ofNat u.val) with ⟨e, -, he, hun, heq⟩ | ⟨-, -, hq, hb, heq⟩ |
      ⟨-, heq⟩ | ⟨hbig, -⟩
    · simp [heq, readUnit, he, hun, hval]
    · simp [heq, readUnit, hq, hb, hval]
    · rw [heq, hval]
      exact readUnit_u u.isLt rest
    · omega
  · exact readUnit_u u.isLt rest

/-- **The literals are prefix free.** -/
theorem quoteUnits_prefixFree : PrefixFree quoteUnits := by
  -- past the opening quote, by induction on the units of the one literal
  have hbody : ∀ (us vs : List CodeUnit) (s t : List Char),
      us.flatMap escapeUnit ++ '"' :: s = vs.flatMap escapeUnit ++ '"' :: t → us = vs ∧ s = t := by
    have hquote : ∀ s, readUnit ('"' :: s) = none := fun _ => rfl
    intro us
    induction us with
    | nil =>
      intro vs s t h
      cases vs with
      | nil => exact ⟨rfl, (List.cons.inj h).2⟩
      | cons v vs =>
        have hread := congrArg readUnit h
        rw [List.flatMap_cons, List.append_assoc, readUnit_escapeUnit] at hread
        cases (hquote s).symm.trans hread
    | cons u us ih =>
      intro vs s t h
      have hread := congrArg readUnit h
      rw [List.flatMap_cons, List.append_assoc, readUnit_escapeUnit] at hread
      cases vs with
      | nil => cases hread.trans (hquote t)
      | cons v vs =>
        rw [List.flatMap_cons, List.append_assoc, readUnit_escapeUnit] at hread
        obtain ⟨huv, hrest⟩ := Prod.mk.inj (Option.some.inj hread)
        obtain ⟨rfl, hst⟩ := ih vs s t hrest
        exact ⟨by rw [Fin.ext huv], hst⟩
  intro us vs s t h
  simp only [quoteUnits, List.cons_append, List.append_assoc, List.nil_append] at h
  exact hbody us vs s t (List.cons.inj h).2

/-! ## 4. Values -/

/-- What may follow a value. -/
def IsClose (c : Char) : Prop := c = ',' ∨ c = ']' ∨ c = '}'

instance : DecidablePred IsClose := fun _ => inferInstanceAs (Decidable (_ ∨ _ ∨ _))

/-- The text is over, or goes on behind a value. -/
def Closed (r : List Char) : Prop := ∀ c ∈ r.head?, IsClose c

theorem closed_cons {c : Char} (h : IsClose c) (r : List Char) : Closed (c :: r) := by
  intro d hd
  cases hd
  exact h

/-- Two atoms without a closing character, in front of what may follow a value. -/
theorem eq_of_append_closed : ∀ {a b s t : List Char}, (∀ c ∈ a, ¬ IsClose c) →
    (∀ c ∈ b, ¬ IsClose c) → Closed s → Closed t → a ++ s = b ++ t → a = b ∧ s = t
  | [], [], _, _, _, _, _, _, h => ⟨rfl, h⟩
  | [], c :: b, s, t, _, hb, hs, _, h => by
    rw [List.nil_append] at h
    subst h
    exact absurd (hs c rfl) (hb c List.mem_cons_self)
  | c :: a, [], s, t, ha, _, _, ht, h => by
    rw [List.nil_append] at h
    subst h
    exact absurd (ht c rfl) (ha c List.mem_cons_self)
  | c :: a, d :: b, s, t, ha, hb, hs, ht, h => by
    obtain ⟨rfl, h'⟩ := List.cons.inj h
    obtain ⟨rfl, hst⟩ := eq_of_append_closed (fun e he => ha e (List.mem_cons_of_mem _ he))
      (fun e he => hb e (List.mem_cons_of_mem _ he)) hs ht h'
    exact ⟨rfl, hst⟩

theorem next_of_isClose (ns : NumState) {c : Char} (h : IsClose c) : ns.next c = none :=
  ns.next_eq_none (by rcases h with h | h | h <;> simp [h])

theorem not_isClose_of_scanFrom : ∀ {cs : List Char} {ns ns' : NumState},
    NumState.scanFrom ns cs = some ns' → ∀ c ∈ cs, ¬ IsClose c
  | [], _, _, _ => by simp
  | c :: cs, ns, ns', h => by
    obtain ⟨ns₁, h1, h2⟩ := Option.bind_eq_some_iff.mp h
    intro d hd hclose
    rcases List.mem_cons.mp hd with rfl | hd
    · rw [next_of_isClose ns hclose] at h1
      cases h1
    · exact not_isClose_of_scanFrom h2 d hd hclose

theorem not_isClose_of_scan {cs : List Char} {ns : NumState} (h : NumState.scan cs = some ns) :
    ∀ c ∈ cs, ¬ IsClose c := by
  cases cs with
  | nil => cases h
  | cons c cs =>
    obtain ⟨ns₁, h1, h2⟩ := Option.bind_eq_some_iff.mp h
    intro d hd hclose
    rcases List.mem_cons.mp hd with rfl | hd
    · rcases hclose with rfl | rfl | rfl <;> cases h1
    · exact not_isClose_of_scanFrom h2 d hd hclose

/-- What a value's printed form begins with. -/
inductive Lead
  | null | true | false | number | text | arr | obj | other
  deriving DecidableEq

/-- What a character begins. -/
def Lead.ofChar (c : Char) : Lead :=
  if c = 'n' then .null else if c = 't' then .true else if c = 'f' then .false
  else if c = '"' then .text else if c = '[' then .arr else if c = '{' then .obj
  else if c = 'N' ∨ c = 'I' ∨ (NumState.start c).isSome then .number else .other

/-- What a value begins with. -/
def lead : PyJson F T → Lead
  | .null => .null
  | .bool true => .true
  | .bool false => .false
  | .int _ => .number
  | .float _ => .number
  | .str _ => .text
  | .arr _ => .arr
  | .obj _ => .obj

theorem lead_ne_other (v : PyJson F T) : v.lead ≠ .other := by
  cases v with
  | bool b => cases b <;> nofun
  | _ => nofun

theorem lead_of_start {c : Char} {ns : NumState} (h : NumState.start c = some ns) :
    Lead.ofChar c = .number := by
  have hne : ∀ d, NumState.start d = none → c ≠ d := by
    rintro d hd rfl
    rw [hd] at h
    cases h
  simp [Lead.ofChar, h, hne 'n' rfl, hne 't' rfl, hne 'f' rfl, hne '"' rfl, hne '[' rfl,
    hne '{' rfl]

theorem lead_of_scan {cs : List Char} {ns : NumState} (h : NumState.scan cs = some ns) :
    ∃ c t, cs = c :: t ∧ Lead.ofChar c = .number := by
  cases cs with
  | nil => cases h
  | cons c cs =>
    obtain ⟨ns₁, h1, -⟩ := Option.bind_eq_some_iff.mp h
    exact ⟨c, cs, rfl, lead_of_start h1⟩

section Injective

variable [PyFloat F] {q : T → List Char}

theorem dump_lead (hq : ∀ s, ∃ t, q s = '"' :: t) (v : PyJson F T) :
    ∃ c t, dump q v = c :: t ∧ Lead.ofChar c = v.lead := by
  cases v with
  | null => exact ⟨_, _, rfl, rfl⟩
  | bool b => cases b <;> exact ⟨_, _, rfl, rfl⟩
  | int i =>
    obtain ⟨ns, h, -⟩ := scan_intText i
    exact lead_of_scan h
  | float x =>
    rcases PyFloat.text_valid x with h | h | h | ⟨ns, h, -⟩
    · exact ⟨'N', ['a', 'N'], h, rfl⟩
    · exact ⟨'I', "nfinity".toList, h, rfl⟩
    · exact ⟨'-', "Infinity".toList, h, rfl⟩
    · exact lead_of_scan h
  | str s =>
    obtain ⟨t, ht⟩ := hq s
    exact ⟨'"', t, ht, rfl⟩
  | arr xs =>
    cases xs with
    | nil => exact ⟨_, _, rfl, rfl⟩
    | cons x xs => exact ⟨_, _, rfl, rfl⟩
  | obj kvs =>
    cases kvs with
    | nil => exact ⟨_, _, rfl, rfl⟩
    | cons kv kvs => exact ⟨_, _, rfl, rfl⟩

/-- Two printed values begin alike only if the values do. -/
theorem lead_eq (hq : ∀ s, ∃ t, q s = '"' :: t) {v w : PyJson F T} {r r' : List Char}
    (h : dump q v ++ r = dump q w ++ r') : v.lead = w.lead := by
  obtain ⟨c, t, hv, hc⟩ := dump_lead hq v
  obtain ⟨d, u, hw, hd⟩ := dump_lead hq w
  rw [hv, hw] at h
  rw [← hc, ← hd, (List.cons.inj h).1]

/-- A printed value does not begin with a closing bracket. -/
theorem dump_append_ne (hq : ∀ s, ∃ t, q s = '"' :: t) {v : PyJson F T} {c : Char}
    (hc : Lead.ofChar c = .other) (r r' : List Char) : dump q v ++ r ≠ c :: r' := by
  obtain ⟨d, t, hv, hd⟩ := dump_lead hq v
  rw [hv]
  intro h
  rw [(List.cons.inj h).1, hc] at hd
  exact lead_ne_other v hd.symm

omit [PyFloat F] in
theorem not_isClose_intText (i : Int) : ∀ c ∈ intText i, ¬ IsClose c := by
  obtain ⟨ns, h, -⟩ := scan_intText i
  exact not_isClose_of_scan h

theorem not_isClose_floatText (x : F) : ∀ c ∈ PyFloat.text x, ¬ IsClose c := by
  rcases PyFloat.text_valid x with h | h | h | ⟨ns, h, -⟩
  · simp [h, IsClose]
  · simp [h, IsClose]
  · simp [h, IsClose]
  · exact not_isClose_of_scan h

/-- No integer is printed like a `float`. -/
theorem intText_ne_floatText (i : Int) (x : F) : intText i ≠ PyFloat.text x := by
  obtain ⟨ns, hscan, -, hint⟩ := scan_intText i
  intro h
  rw [h] at hscan
  rcases PyFloat.text_valid x with hx | hx | hx | ⟨ns', hx, -, hfloat⟩
  · rw [hx] at hscan; cases hscan
  · rw [hx] at hscan; cases hscan
  · rw [hx] at hscan; cases hscan
  · rw [hscan] at hx
    cases hx
    rw [hint] at hfloat
    cases hfloat

theorem closed_dumpElems (xs : List (PyJson F T)) (r : List Char) :
    Closed (dumpElems q xs ++ r) := by
  cases xs with
  | nil => exact closed_cons (Or.inr (Or.inl rfl)) _
  | cons x xs => exact closed_cons (Or.inl rfl) _

theorem closed_dumpMembers (kvs : List (T × PyJson F T)) (r : List Char) :
    Closed (dumpMembers q kvs ++ r) := by
  cases kvs with
  | nil => exact closed_cons (Or.inr (Or.inr rfl)) _
  | cons kv kvs => exact closed_cons (Or.inl rfl) _

/-- An array from its elements: the first has a bracket in front of it in place of the comma. -/
theorem arr_of_elems (hhead : ∀ s, ∃ t, q s = '"' :: t) {xs ys : List (PyJson F T)}
    {r r' : List Char} (helems : dumpElems q xs ++ r = dumpElems q ys ++ r' → xs = ys ∧ r = r')
    (h : dump q (.arr xs) ++ r = dump q (.arr ys) ++ r') : xs = ys ∧ r = r' := by
  cases xs with
  | nil =>
    cases ys with
    | nil => exact ⟨rfl, List.append_cancel_left h⟩
    | cons y ys =>
      simp only [dump, List.cons_append, List.nil_append, List.append_assoc, List.cons.injEq,
        true_and] at h
      exact absurd h.symm (dump_append_ne hhead rfl _ _)
  | cons x xs =>
    cases ys with
    | nil =>
      simp only [dump, List.cons_append, List.nil_append, List.append_assoc, List.cons.injEq,
        true_and] at h
      exact absurd h (dump_append_ne hhead rfl _ _)
    | cons y ys => exact helems (congrArg (',' :: ·) (List.cons.inj h).2)

/-- An object from its members. -/
theorem obj_of_members (hhead : ∀ s, ∃ t, q s = '"' :: t) {kvs lvs : List (T × PyJson F T)}
    {r r' : List Char}
    (hmembers : dumpMembers q kvs ++ r = dumpMembers q lvs ++ r' → kvs = lvs ∧ r = r')
    (h : dump q (.obj kvs) ++ r = dump q (.obj lvs) ++ r') : kvs = lvs ∧ r = r' := by
  cases kvs with
  | nil =>
    cases lvs with
    | nil => exact ⟨rfl, List.append_cancel_left h⟩
    | cons lw lvs =>
      obtain ⟨t, ht⟩ := hhead lw.1
      have h' := (List.cons.inj h).2
      rw [ht] at h'
      cases (List.cons.inj h').1
  | cons kv kvs =>
    cases lvs with
    | nil =>
      obtain ⟨t, ht⟩ := hhead kv.1
      have h' := (List.cons.inj h).2
      rw [ht] at h'
      cases (List.cons.inj h').1
    | cons lw lvs => exact hmembers (congrArg (',' :: ·) (List.cons.inj h).2)

mutual
/-- **What a value's printed form determines**, with anything behind it that may follow it. -/
theorem dump_append (hq : PrefixFree q) (hhead : ∀ s, ∃ t, q s = '"' :: t) :
    ∀ (v w : PyJson F T) {r r' : List Char}, Closed r → Closed r' →
      dump q v ++ r = dump q w ++ r' → v = w ∧ r = r'
  | .null, w, r, r', hr, hr', h => by
    have hlead := lead_eq hhead h
    cases w with
    | null => exact ⟨rfl, List.append_cancel_left h⟩
    | bool b => cases b <;> cases hlead
    | _ => cases hlead
  | .bool b, w, r, r', hr, hr', h => by
    have hlead := lead_eq hhead h
    cases w with
    | bool b' =>
      cases b <;> cases b' <;>
        first | exact ⟨rfl, List.append_cancel_left h⟩ | cases hlead
    | _ => cases b <;> cases hlead
  | .int i, w, r, r', hr, hr', h => by
    have hlead := lead_eq hhead h
    cases w with
    | int j =>
      -- numbers end where a closing character stands, so their texts agree
      obtain ⟨htext, hrest⟩ := eq_of_append_closed (not_isClose_intText i) (not_isClose_intText j)
        hr hr' h
      have hij := congrArg intOfText htext
      rw [intOfText_intText, intOfText_intText] at hij
      exact ⟨by rw [hij], hrest⟩
    | float x =>
      -- the first character does not tell an `int` from a `float`; the text does
      obtain ⟨htext, -⟩ := eq_of_append_closed (not_isClose_intText i) (not_isClose_floatText x)
        hr hr' h
      exact absurd htext (intText_ne_floatText i x)
    | bool b => cases b <;> cases hlead
    | _ => cases hlead
  | .float x, w, r, r', hr, hr', h => by
    have hlead := lead_eq hhead h
    cases w with
    | int i =>
      obtain ⟨htext, -⟩ := eq_of_append_closed (not_isClose_floatText x) (not_isClose_intText i)
        hr hr' h
      exact absurd htext.symm (intText_ne_floatText i x)
    | float y =>
      obtain ⟨htext, hrest⟩ := eq_of_append_closed (not_isClose_floatText x)
        (not_isClose_floatText y) hr hr' h
      have hxy := congrArg (PyFloat.ofText (F := F)) htext
      rw [PyFloat.ofText_text, PyFloat.ofText_text] at hxy
      exact ⟨by rw [hxy], hrest⟩
    | bool b => cases b <;> cases hlead
    | _ => cases hlead
  | .str s, w, r, r', hr, hr', h => by
    have hlead := lead_eq hhead h
    cases w with
    | str t =>
      obtain ⟨rfl, hrest⟩ := hq s t r r' h
      exact ⟨rfl, hrest⟩
    | bool b => cases b <;> cases hlead
    | _ => cases hlead
  | .arr xs, w, r, r', hr, hr', h => by
    have hlead := lead_eq hhead h
    cases w with
    | arr ys =>
      obtain ⟨rfl, hrest⟩ := arr_of_elems hhead (dumpElems_append hq hhead xs ys) h
      exact ⟨rfl, hrest⟩
    | bool b => cases b <;> cases hlead
    | _ => cases hlead
  | .obj kvs, w, r, r', hr, hr', h => by
    have hlead := lead_eq hhead h
    cases w with
    | obj lvs =>
      obtain ⟨rfl, hrest⟩ := obj_of_members hhead (dumpMembers_append hq hhead kvs lvs) h
      exact ⟨rfl, hrest⟩
    | bool b => cases b <;> cases hlead
    | _ => cases hlead

theorem dumpElems_append (hq : PrefixFree q) (hhead : ∀ s, ∃ t, q s = '"' :: t) :
    ∀ (xs ys : List (PyJson F T)) {r r' : List Char},
      dumpElems q xs ++ r = dumpElems q ys ++ r' → xs = ys ∧ r = r'
  | [], [], r, r', h => ⟨rfl, (List.cons.inj h).2⟩
  | [], y :: ys, r, r', h => nomatch (List.cons.inj h).1
  | x :: xs, [], r, r', h => nomatch (List.cons.inj h).1
  | x :: xs, y :: ys, r, r', h => by
    simp only [dumpElems, List.cons_append, List.append_assoc, List.cons.injEq, true_and] at h
    obtain ⟨rfl, hrest⟩ := dump_append hq hhead x y (closed_dumpElems _ _)
      (closed_dumpElems _ _) h
    obtain ⟨rfl, hr⟩ := dumpElems_append hq hhead xs ys hrest
    exact ⟨rfl, hr⟩

theorem dumpMembers_append (hq : PrefixFree q) (hhead : ∀ s, ∃ t, q s = '"' :: t) :
    ∀ (kvs lvs : List (T × PyJson F T)) {r r' : List Char},
      dumpMembers q kvs ++ r = dumpMembers q lvs ++ r' → kvs = lvs ∧ r = r'
  | [], [], r, r', h => ⟨rfl, (List.cons.inj h).2⟩
  | [], (l, w) :: lvs, r, r', h => nomatch (List.cons.inj h).1
  | (k, v) :: kvs, [], r, r', h => nomatch (List.cons.inj h).1
  | (k, v) :: kvs, (l, w) :: lvs, r, r', h => by
    simp only [dumpMembers, List.cons_append, List.append_assoc, List.cons.injEq, true_and] at h
    obtain ⟨rfl, hmember⟩ := hq k l _ _ h
    obtain ⟨rfl, hrest⟩ := dump_append hq hhead v w (closed_dumpMembers _ _)
      (closed_dumpMembers _ _) (List.cons.inj hmember).2
    obtain ⟨rfl, hr⟩ := dumpMembers_append hq hhead kvs lvs hrest
    exact ⟨rfl, hr⟩
end

end Injective

section Units

variable [PyFloat F]

mutual
/-- Printing a value with its texts changed is printing it with another printer of texts. -/
theorem dump_map (f : T → U) (q : U → List Char) :
    ∀ v : PyJson F T, dump q (v.map f) = dump (fun s => q (f s)) v
  | .null => rfl
  | .bool true => rfl
  | .bool false => rfl
  | .int _ => rfl
  | .float _ => rfl
  | .str _ => rfl
  | .arr [] => rfl
  | .arr (x :: xs) => by
    rw [map, mapElems, dump, dump, dump_map f q x, dumpElems_map f q xs]
  | .obj [] => rfl
  | .obj ((k, v) :: kvs) => by
    rw [map, mapMembers, dump, dump, dump_map f q v, dumpMembers_map f q kvs]

theorem dumpElems_map (f : T → U) (q : U → List Char) :
    ∀ xs : List (PyJson F T), dumpElems q (mapElems f xs) = dumpElems (fun s => q (f s)) xs
  | [] => rfl
  | x :: xs => by rw [mapElems, dumpElems, dumpElems, dump_map f q x, dumpElems_map f q xs]

theorem dumpMembers_map (f : T → U) (q : U → List Char) :
    ∀ kvs : List (T × PyJson F T),
      dumpMembers q (mapMembers f kvs) = dumpMembers (fun s => q (f s)) kvs
  | [] => rfl
  | (k, v) :: kvs => by
    rw [mapMembers, dumpMembers, dumpMembers, dump_map f q v, dumpMembers_map f q kvs]
end

/-- **The canonical form determines a value up to its code units.** -/
theorem units_of_canonical {v w : PyJson F PyStr} (h : canonical v = canonical w) :
    v.map PyStr.units = w.map PyStr.units := by
  have hclosed : Closed [] := nofun
  have hdump : dump quoteUnits (v.map PyStr.units) = dump quoteUnits (w.map PyStr.units) := by
    rw [dump_map, dump_map]
    exact h
  refine (dump_append quoteUnits_prefixFree (fun us => ⟨_, rfl⟩) _ _ hclosed hclosed ?_).1
  rw [hdump]

/-- Conversely, the units of a value determine its canonical form. -/
theorem canonical_of_units {v w : PyJson F PyStr} (h : v.map PyStr.units = w.map PyStr.units) :
    canonical v = canonical w := by
  have hdump := congrArg (dump quoteUnits) h
  rw [dump_map, dump_map] at hdump
  exact hdump

end Units

/-! ## 5. Members up to code units -/

/-- Two objects that differ at most in whether a pair of surrogates stands for a character. -/
def SameUnits (kvs lvs : List (PyStr × PyJson F PyStr)) : Prop :=
  mapMembers PyStr.units kvs = mapMembers PyStr.units lvs

/-- A plain key finds the same value in both. -/
theorem SameUnits.lookup {k : PyStr} (hk : PyStr.Plain k) :
    ∀ {kvs lvs : List (PyStr × PyJson F PyStr)}, SameUnits kvs lvs →
      (kvs.lookup k).map (map PyStr.units) = (lvs.lookup k).map (map PyStr.units)
  | [], [], _ => rfl
  | [], (l, w) :: lvs, h => by cases h
  | (k', v) :: kvs, [], h => by cases h
  | (k', v) :: kvs, (l, w) :: lvs, h => by
    obtain ⟨hhead, hrest⟩ := List.cons.inj h
    obtain ⟨hkeys, hvalues⟩ := Prod.mk.inj hhead
    have hiff : k = k' ↔ k = l := by
      constructor
      · rintro rfl
        exact (hk.eq_of_units hkeys.symm).symm
      · rintro rfl
        exact (hk.eq_of_units hkeys).symm
    rw [List.lookup_cons, List.lookup_cons]
    by_cases h' : k = k'
    · rw [beq_iff_eq.mpr h', beq_iff_eq.mpr (hiff.mp h')]
      exact congrArg some hvalues
    · rw [beq_eq_false_iff_ne.mpr h', beq_eq_false_iff_ne.mpr fun hl => h' (hiff.mpr hl)]
      exact SameUnits.lookup hk hrest

/-- As many keys of both are below a plain one. -/
theorem SameUnits.countP {k : PyStr} (hk : PyStr.Plain k) :
    ∀ {kvs lvs : List (PyStr × PyJson F PyStr)}, SameUnits kvs lvs →
      kvs.countP (fun kv => kv.1 < k) = lvs.countP fun kv => kv.1 < k
  | [], [], _ => rfl
  | [], (l, w) :: lvs, h => by cases h
  | (k', v) :: kvs, [], h => by cases h
  | (k', v) :: kvs, (l, w) :: lvs, h => by
    obtain ⟨hhead, hrest⟩ := List.cons.inj h
    obtain ⟨hkeys, -⟩ := Prod.mk.inj hhead
    have hiff : k' < k ↔ l < k := ⟨hk.lt_of_units hkeys, hk.lt_of_units hkeys.symm⟩
    have ih := SameUnits.countP hk hrest
    simp only [List.countP_cons, ih, hiff]

theorem SameUnits.of_append {pre post pre' post' : List (PyStr × PyJson F PyStr)}
    (h : SameUnits (pre ++ post) (pre' ++ post')) (hlength : pre.length = pre'.length) :
    SameUnits pre pre' ∧ SameUnits post post' := by
  simp only [SameUnits, mapMembers_eq, List.map_append] at h ⊢
  exact List.append_inj h (by rw [List.length_map, List.length_map, hlength])

end PyJson

end Lib
