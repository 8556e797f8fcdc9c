/-
# JSON, as Python's `json` module reads and writes it

Every durable record of the modelled program is one JSON object, written by `json.dumps` with
sorted keys and read back by `json.loads`.  This file has both directions:

* `Json`, the values.  A `dict` is kept SORTED BY KEY: every dump in scope sorts its keys, and
  `dict` equality ignores order, so Lean's equality of two well-formed values (`Json.Wf`) is
  Python's equality of what they stand for.
* `dump`, the printer, with the compact layout (`separators=(",", ":")`) and the indented one
  (`indent=2`), and Python's `ensure_ascii` escapes.
* `loads`, the reader: a machine with an explicit stack that consumes one character at a time.
  It accepts the language of `json.loads` in strict mode (no control characters in strings, no
  trailing commas, `NaN` / `Infinity` / `-Infinity` admitted, last duplicate key wins).

The texts of `Json` are `String`s.  Where a file may hold any bytes, the value is a `PyJson` and the
reader `PyJson.loads`, which takes surrogates and knows the interpreter's limits; `loads_toPy`
(`JsonReaders.lean`) says that it reads the same wherever `loads` reads at all.

A machine rather than a recursive-descent parser on purpose: what a crash leaves behind is a
PREFIX of a dump, and for a machine "the prefix is not accepted" is a statement about the state
it stops in.

Python's `float` is a parameter (`PyFloat`): its text and its parser, with the documented fact
that reading back the text of a `float` gives that `float`.
-/
import AegisShield.Lib.Text
import Mathlib.Data.Nat.Digits.Defs

namespace Lib

/-! ## 1. Numbers -/

/-- `'0' .. '9'`. -/
def isDigit (c : Char) : Bool := '0' ≤ c && c ≤ '9'

/-- Where a number stands: the states of `-?(0|[1-9][0-9]*)(\.[0-9]+)?([eE][-+]?[0-9]+)?`. -/
inductive NumState
  | minus | zero | int | dot | frac | e | sign | exp
  deriving DecidableEq, Repr

namespace NumState

/-- The state after a number's first character. -/
def start (c : Char) : Option NumState :=
  if c = '-' then some minus
  else if c = '0' then some zero
  else if isDigit c then some int
  else none

/-- The state after one more character, if the number goes on. -/
def next : NumState → Char → Option NumState
  | minus, c => if c = '0' then some zero else if isDigit c then some int else none
  | zero, c => if c = '.' then some dot else if c = 'e' ∨ c = 'E' then some e else none
  | int, c =>
    if isDigit c then some int
    else if c = '.' then some dot else if c = 'e' ∨ c = 'E' then some e else none
  | dot, c => if isDigit c then some frac else none
  | frac, c => if isDigit c then some frac else if c = 'e' ∨ c = 'E' then some e else none
  | e, c => if isDigit c then some exp else if c = '+' ∨ c = '-' then some sign else none
  | sign, c => if isDigit c then some exp else none
  | exp, c => if isDigit c then some exp else none

/-- A number may end here. -/
def accepts : NumState → Bool
  | zero | int | frac | exp => true
  | minus | dot | e | sign => false

/-- The number has no fraction and no exponent, so Python reads an `int`. -/
def integral : NumState → Bool
  | zero | int => true
  | _ => false

/-- The state after the rest of a number's text. -/
def scanFrom : NumState → List Char → Option NumState
  | ns, [] => some ns
  | ns, c :: cs => (ns.next c).bind fun ns' => scanFrom ns' cs

/-- The state a number's whole text ends in. -/
def scan : List Char → Option NumState
  | [] => none
  | c :: cs => (start c).bind fun ns => scanFrom ns cs

end NumState

/-- The text of a natural number: `str(n)`. -/
def natText (n : Nat) : List Char :=
  if n = 0 then ['0'] else (Nat.digits 10 n).reverse.map Nat.digitChar

/-- The text of an integer: `str(i)`. -/
def intText : Int → List Char
  | .ofNat n => natText n
  | .negSucc n => '-' :: natText (n + 1)

/-- The number a string of decimal digits denotes. -/
def natOfText (cs : List Char) : Nat := Nat.ofDigits 10 (cs.reverse.map fun c => c.toNat - 48)

/-- `int(text)` for the text of a JSON integer. -/
def intOfText : List Char → Int
  | '-' :: cs => -(natOfText cs : Int)
  | cs => natOfText cs

/-- What JSON admits as the text of a `float`. -/
def IsFloatText (t : List Char) : Prop :=
  t = "NaN".toList ∨ t = "Infinity".toList ∨ t = "-Infinity".toList ∨
    ∃ ns, NumState.scan t = some ns ∧ ns.accepts = true ∧ ns.integral = false

/-- Python's `float`, as far as JSON sees it. -/
class PyFloat (F : Type) where
  /-- `float(text)`. -/
  ofText : List Char → F
  /-- What `json.dumps` prints. -/
  text : F → List Char
  /-- `int(x)`, which raises on an infinity and on NaN. -/
  trunc : F → Option Int
  isNan : F → Bool
  ofText_text : ∀ x, ofText (text x) = x
  text_valid : ∀ x, IsFloatText (text x)

/-! ## 2. Values -/

/-- A value `json.loads` can return. -/
inductive Json (F : Type)
  | null
  | bool (b : Bool)
  | int (i : Int)
  | float (x : F)
  | str (s : String)
  | arr (xs : List (Json F))
  | obj (kvs : List (String × Json F))

/-- A `dict`, as its entries in increasing order of key. -/
abbrev Dict (α : Type) := List (String × α)

namespace Dict

variable {α : Type}

/-- `d[k] = v`. -/
def set (k : String) (v : α) : Dict α → Dict α
  | [] => [(k, v)]
  | (k', v') :: d =>
    if k < k' then (k, v) :: (k', v') :: d
    else if k = k' then (k, v) :: d
    else (k', v') :: set k v d

/-- `d.get(k)`. -/
def get (d : Dict α) (k : String) : Option α := List.lookup k d

/-- `d.pop(k)`, on the remaining entries. -/
def pop (d : Dict α) (k : String) : Dict α := d.filter (fun kv => kv.1 != k)

/-- The keys are strictly increasing, so each occurs once. -/
def Sorted (d : Dict α) : Prop := d.Pairwise (fun a b => a.1 < b.1)

/-- The keys alone decide it. -/
theorem sorted_of_keys {d : Dict α} {ks : List String} (h : d.map Prod.fst = ks)
    (hs : ks.Pairwise (· < ·)) : Sorted d := by
  rw [← h] at hs
  exact List.pairwise_map.mp hs

theorem mem_set {k : String} {v : α} : ∀ {d : Dict α} {kv : String × α},
    kv ∈ set k v d → kv = (k, v) ∨ kv ∈ d
  | [], kv, h => by simpa [set] using h
  | (k', v') :: d, kv, h => by
    simp only [set] at h
    split at h
    · simpa using h
    · split at h
      · rcases List.mem_cons.mp h with h | h
        · exact Or.inl h
        · exact Or.inr (List.mem_cons_of_mem _ h)
      · rcases List.mem_cons.mp h with h | h
        · exact Or.inr (h ▸ List.mem_cons_self)
        · rcases mem_set h with h | h
          · exact Or.inl h
          · exact Or.inr (List.mem_cons_of_mem _ h)

theorem sorted_set {k : String} {v : α} : ∀ {d : Dict α}, Sorted d → Sorted (set k v d)
  | [], _ => by simp [set, Sorted]
  | (k', v') :: d, h => by
    have h' := List.pairwise_cons.mp h
    simp only [set]
    split
    · rename_i hk
      refine List.pairwise_cons.mpr ⟨?_, h⟩
      intro kv hkv
      rcases List.mem_cons.mp hkv with rfl | hkv
      · exact hk
      · exact String.lt_trans hk (h'.1 kv hkv)
    · rename_i hk
      split
      · rename_i he
        exact List.pairwise_cons.mpr ⟨fun kv hkv => he ▸ h'.1 kv hkv, h'.2⟩
      · rename_i he
        refine List.pairwise_cons.mpr ⟨?_, sorted_set h'.2⟩
        intro kv hkv
        rcases mem_set hkv with rfl | hkv
        · exact Classical.byContradiction fun hn =>
            he (String.le_antisymm (String.not_lt.mp hn) (String.not_lt.mp hk))
        · exact h'.1 kv hkv

/-- A key that was just added is found. -/
@[simp] theorem get_set_self {k : String} {v : α} : ∀ d : Dict α, (set k v d).get k = some v
  | [] => by simp [set, get]
  | (k', v') :: d => by
    simp only [set]
    split
    · simp [get]
    · split
      · simp [get]
      · rename_i he
        have ih : (set k v d).get k = some v := get_set_self d
        simp only [get] at ih
        rw [get, List.lookup_cons, beq_eq_false_iff_ne.mpr he]
        exact ih

/-- The other keys are as they were. -/
theorem get_set_of_ne {k k' : String} {v : α} (h : k' ≠ k) :
    ∀ d : Dict α, (set k v d).get k' = d.get k'
  | [] => by simp [set, get, List.lookup_cons, beq_eq_false_iff_ne.mpr h]
  | (l, u) :: d => by
    have ih := get_set_of_ne (v := v) h d
    simp only [get] at ih
    simp only [set]
    split
    · simp [get, List.lookup_cons, beq_eq_false_iff_ne.mpr h]
    · split
      · rename_i he
        subst he
        simp [get, List.lookup_cons, beq_eq_false_iff_ne.mpr h]
      · simp only [get, List.lookup_cons, ih]

/-- Taking out the key that was added gives the `dict` back. -/
theorem pop_set {k : String} {v : α} : ∀ {d : Dict α}, (∀ kv ∈ d, kv.1 ≠ k) → (set k v d).pop k = d
  | [], _ => by simp [set, pop]
  | (k', v') :: d, h => by
    have hk : k' ≠ k := h (k', v') List.mem_cons_self
    have hd : ∀ kv ∈ d, kv.1 ≠ k := fun kv hkv => h kv (List.mem_cons_of_mem _ hkv)
    have hself : d.filter (fun kv => kv.1 != k) = d :=
      List.filter_eq_self.mpr fun kv hkv => by simpa using hd kv hkv
    have ih : (set k v d).pop k = d := pop_set hd
    simp only [pop] at ih
    simp only [set]
    split
    · simp [pop, hk, hself]
    · rw [if_neg (Ne.symm hk)]
      simp [pop, hk, ih]

end Dict

namespace Json

variable {F : Type}

mutual
/-- Every `dict` inside the value is sorted. -/
def Wf : Json F → Prop
  | .arr xs => WfElems xs
  | .obj kvs => Dict.Sorted kvs ∧ WfMembers kvs
  | _ => True
/-- `Wf` of every element. -/
def WfElems : List (Json F) → Prop
  | [] => True
  | x :: xs => Wf x ∧ WfElems xs
/-- `Wf` of every member. -/
def WfMembers : List (String × Json F) → Prop
  | [] => True
  | (_, v) :: kvs => Wf v ∧ WfMembers kvs
end

theorem wfMembers_iff : ∀ {kvs : List (String × Json F)},
    WfMembers kvs ↔ ∀ kv ∈ kvs, kv.2.Wf
  | [] => by simp [WfMembers]
  | (k, v) :: kvs => by
    have ih : WfMembers kvs ↔ _ := wfMembers_iff
    simp [WfMembers, ih]

theorem Wf.set {k : String} {v : Json F} {kvs : List (String × Json F)}
    (h : (Json.obj kvs).Wf) (hv : v.Wf) : (Json.obj (Dict.set k v kvs)).Wf := by
  refine ⟨Dict.sorted_set h.1, wfMembers_iff.mpr ?_⟩
  intro kv hkv
  rcases Dict.mem_set hkv with rfl | hkv
  · exact hv
  · exact wfMembers_iff.mp h.2 kv hkv

/-! ## 3. Printing -/

/-- Four lower-case hexadecimal digits. -/
def hex4 (n : Nat) : List Char :=
  [Nat.digitChar (n / 4096 % 16), Nat.digitChar (n / 256 % 16), Nat.digitChar (n / 16 % 16),
    Nat.digitChar (n % 16)]

/-- One character of a string under `ensure_ascii`: a surrogate pair past the first plane. -/
def escape (c : Char) : List Char :=
  if c = '"' then ['\\', '"']
  else if c = '\\' then ['\\', '\\']
  else if c = '\n' then ['\\', 'n']
  else if c = '\r' then ['\\', 'r']
  else if c = '\t' then ['\\', 't']
  else if c = '\x08' then ['\\', 'b']
  else if c = '\x0c' then ['\\', 'f']
  else if ' ' ≤ c ∧ c ≤ '~' then [c]
  else if c.toNat < 0x10000 then '\\' :: 'u' :: hex4 c.toNat
  else
    '\\' :: 'u' :: hex4 (0xD800 + (c.toNat - 0x10000) / 0x400) ++
      '\\' :: 'u' :: hex4 (0xDC00 + (c.toNat - 0x10000) % 0x400)

/-- A string literal. -/
def quote (s : String) : List Char := '"' :: s.toList.flatMap escape ++ ['"']

/-- How `json.dumps` lays a value out. -/
inductive Layout
  /-- `separators=(",", ":")`: everything on one line. -/
  | compact
  /-- `indent=n`: one member a line. -/
  | indented (n : Nat)
  deriving DecidableEq, Repr

/-- What stands before a member at a nesting level. -/
def Layout.brk : Layout → Nat → List Char
  | .compact, _ => []
  | .indented n, lvl => '\n' :: List.replicate (n * lvl) ' '

/-- What stands between a colon and the value. -/
def Layout.gap : Layout → List Char
  | .compact => []
  | .indented _ => [' ']

section Dump

variable [PyFloat F] (ly : Layout)

mutual
/-- `json.dumps(value, sort_keys=True, ..)` at a nesting level. -/
def dump (lvl : Nat) : Json F → List Char
  | .null => "null".toList
  | .bool true => "true".toList
  | .bool false => "false".toList
  | .int i => intText i
  | .float x => PyFloat.text x
  | .str s => quote s
  | .arr [] => ['[', ']']
  | .arr (x :: xs) =>
    '[' :: (ly.brk (lvl + 1) ++ dump (lvl + 1) x ++ dumpElems lvl xs ++ (ly.brk lvl ++ [']']))
  | .obj [] => ['{', '}']
  | .obj ((k, v) :: kvs) =>
    '{' :: (ly.brk (lvl + 1) ++ quote k ++ ':' :: (ly.gap ++ dump (lvl + 1) v) ++
      dumpMembers lvl kvs ++ (ly.brk lvl ++ ['}']))
/-- The elements of an array after the first. -/
def dumpElems (lvl : Nat) : List (Json F) → List Char
  | [] => []
  | x :: xs => ',' :: (ly.brk (lvl + 1) ++ dump (lvl + 1) x ++ dumpElems lvl xs)
/-- The members of an object after the first. -/
def dumpMembers (lvl : Nat) : List (String × Json F) → List Char
  | [] => []
  | (k, v) :: kvs =>
    ',' :: (ly.brk (lvl + 1) ++ quote k ++ ':' :: (ly.gap ++ dump (lvl + 1) v) ++
      dumpMembers lvl kvs)
end

end Dump

/-- `json.dumps(value, sort_keys=True, separators=(",", ":"))`. -/
def canonical [PyFloat F] (v : Json F) : List Char := dump .compact 0 v

/-- `json.dumps(value, sort_keys=True, indent=2)`. -/
def pretty [PyFloat F] (v : Json F) : List Char := dump (.indented 2) 0 v

/-! ## 4. Reading -/

/-- A container the machine will return to. -/
inductive Frame (F : Type)
  /-- An array with the elements read so far. -/
  | arr (done : List (Json F))
  /-- An object with the members read so far, waiting for the value of a key. -/
  | member (done : Dict (Json F)) (key : String)

/-- What a string being read is for. -/
inductive Slot (F : Type)
  | value
  | key (done : Dict (Json F))

/-- What the machine is in the middle of. -/
inductive Mode (F : Type)
  | value
  | arrOpen
  | objOpen
  | key (done : Dict (Json F))
  | colon (done : Dict (Json F)) (key : String)
  | afterElem (done : List (Json F))
  | afterMember (done : Dict (Json F))
  | done (v : Json F)
  | num (text : List Char) (ns : NumState)
  | word (rest : List Char) (v : Json F)
  /-- Inside a string. -/
  | text (slot : Slot F) (acc : List Char)
  /-- After a backslash. -/
  | esc (slot : Slot F) (acc : List Char)
  /-- After `\u` and some of its digits; `hi` is the first half of a surrogate pair. -/
  | uni (slot : Slot F) (acc : List Char) (hi : Option Nat) (count code : Nat)
  /-- After the first half of a surrogate pair, and after the backslash that follows it. -/
  | pair (slot : Slot F) (acc : List Char) (hi : Nat)
  | pairU (slot : Slot F) (acc : List Char) (hi : Nat)

/-- The machine: what it is reading, and the containers it is inside of. -/
structure Machine (F : Type) where
  mode : Mode F
  stack : List (Frame F)

/-- JSON whitespace. -/
def isWs (c : Char) : Bool := c = ' ' || c = '\n' || c = '\r' || c = '\t'

/-- Hand a finished value to the container it belongs to. -/
def finish (v : Json F) : List (Frame F) → Machine F
  | [] => ⟨.done v, []⟩
  | .arr xs :: st => ⟨.afterElem (xs ++ [v]), st⟩
  | .member kvs k :: st => ⟨.afterMember (Dict.set k v kvs), st⟩

/-- A finished string. -/
def finishText (slot : Slot F) (acc : List Char) (st : List (Frame F)) : Machine F :=
  match slot with
  | .value => finish (.str (String.ofList acc)) st
  | .key done => ⟨.colon done (String.ofList acc), st⟩

section Machine

variable [PyFloat F]

/-- The value of a finished number. -/
def numValue (text : List Char) (ns : NumState) : Json F :=
  if ns.integral then .int (intOfText text) else .float (PyFloat.ofText text)

/-- The first character of a value. -/
def startValue (st : List (Frame F)) (c : Char) : Option (Machine F) :=
  if c = '{' then some ⟨.objOpen, st⟩
  else if c = '[' then some ⟨.arrOpen, st⟩
  else if c = '"' then some ⟨.text .value [], st⟩
  else if c = 'n' then some ⟨.word "ull".toList .null, st⟩
  else if c = 't' then some ⟨.word "rue".toList (.bool true), st⟩
  else if c = 'f' then some ⟨.word "alse".toList (.bool false), st⟩
  else if c = 'N' then some ⟨.word "aN".toList (.float (PyFloat.ofText "NaN".toList)), st⟩
  else if c = 'I' then
    some ⟨.word "nfinity".toList (.float (PyFloat.ofText "Infinity".toList)), st⟩
  else (NumState.start c).map fun ns => ⟨.num [c] ns, st⟩

/-- A character after a finished value: whitespace, a separator or a closing bracket. -/
def stepClosed (m : Machine F) (c : Char) : Option (Machine F) :=
  if isWs c then some m
  else match m.mode with
    | .afterElem xs =>
      if c = ',' then some ⟨.value, .arr xs :: m.stack⟩
      else if c = ']' then some (finish (.arr xs) m.stack) else none
    | .afterMember kvs =>
      if c = ',' then some ⟨.key kvs, m.stack⟩
      else if c = '}' then some (finish (.obj kvs) m.stack) else none
    | _ => none

/-- A completed `\u` escape. -/
def finishUni (slot : Slot F) (acc : List Char) (hi : Option Nat) (code : Nat)
    (st : List (Frame F)) : Option (Machine F) :=
  match hi with
  | none =>
    if 0xD800 ≤ code ∧ code < 0xDC00 then some ⟨.pair slot acc code, st⟩
    else (scalar code).map fun c => ⟨.text slot (acc ++ [c]), st⟩
  | some h =>
    if 0xDC00 ≤ code ∧ code < 0xE000 then
      (scalar (0x10000 + (h - 0xD800) * 0x400 + (code - 0xDC00))).map fun c =>
        ⟨.text slot (acc ++ [c]), st⟩
    else none

/-- The character a one-letter escape stands for. -/
def unescape (c : Char) : Option Char :=
  if c = '"' then some '"'
  else if c = '\\' then some '\\'
  else if c = '/' then some '/'
  else if c = 'b' then some '\x08'
  else if c = 'f' then some '\x0c'
  else if c = 'n' then some '\n'
  else if c = 'r' then some '\r'
  else if c = 't' then some '\t'
  else none

/-- One character. -/
def step (m : Machine F) (c : Char) : Option (Machine F) :=
  match m.mode with
  | .value => if isWs c then some m else startValue m.stack c
  | .arrOpen =>
    if isWs c then some m
    else if c = ']' then some (finish (.arr []) m.stack)
    else startValue (.arr [] :: m.stack) c
  | .objOpen =>
    if isWs c then some m
    else if c = '}' then some (finish (.obj []) m.stack)
    else if c = '"' then some ⟨.text (.key []) [], m.stack⟩
    else none
  | .key done =>
    if isWs c then some m else if c = '"' then some ⟨.text (.key done) [], m.stack⟩ else none
  | .colon done k =>
    if isWs c then some m else if c = ':' then some ⟨.value, .member done k :: m.stack⟩ else none
  | .afterElem _ => stepClosed m c
  | .afterMember _ => stepClosed m c
  | .done _ => stepClosed m c
  | .num text ns =>
    match ns.next c with
    | some ns' => some ⟨.num (text ++ [c]) ns', m.stack⟩
    | none =>
      if ns = .minus ∧ c = 'I' then
        some ⟨.word "nfinity".toList (.float (PyFloat.ofText "-Infinity".toList)), m.stack⟩
      else if ns.accepts then stepClosed (finish (numValue text ns) m.stack) c
      else none
  | .word rest v =>
    match rest with
    | [] => none
    | r :: rs =>
      if c = r then (if rs = [] then some (finish v m.stack) else some ⟨.word rs v, m.stack⟩)
      else none
  | .text slot acc =>
    if c = '"' then some (finishText slot acc m.stack)
    else if c = '\\' then some ⟨.esc slot acc, m.stack⟩
    else if c < ' ' then none
    else some ⟨.text slot (acc ++ [c]), m.stack⟩
  | .esc slot acc =>
    if c = 'u' then some ⟨.uni slot acc none 0 0, m.stack⟩
    else (unescape c).map fun d => ⟨.text slot (acc ++ [d]), m.stack⟩
  | .uni slot acc hi count code =>
    (hexVal c).bind fun d =>
      if count = 3 then finishUni slot acc hi (16 * code + d) m.stack
      else some ⟨.uni slot acc hi (count + 1) (16 * code + d), m.stack⟩
  | .pair slot acc hi => if c = '\\' then some ⟨.pairU slot acc hi, m.stack⟩ else none
  | .pairU slot acc hi => if c = 'u' then some ⟨.uni slot acc (some hi) 0 0, m.stack⟩ else none

/-- A whole text. -/
def run (m : Machine F) : List Char → Option (Machine F)
  | [] => some m
  | c :: cs => (step m c).bind fun m' => run m' cs

/-- The value at the end of the input: a finished one, or a number the input ends with. -/
def final (m : Machine F) : Option (Json F) :=
  match m.mode, m.stack with
  | .done v, [] => some v
  | .num text ns, [] => if ns.accepts then some (numValue text ns) else none
  | _, _ => none

/-- `json.loads` on a `str` without surrogates. -/
def loadsText (cs : List Char) : Option (Json F) := (run ⟨.value, []⟩ cs).bind final

/-- `json.loads` on `bytes` whose text has no surrogates. -/
def loads (bs : Bytes) : Option (Json F) := (decodeText bs).bind loadsText

end Machine

/-! ## 5. What a character can do -/

/-- One test in a chain of them. -/
theorem of_ite_eq_some {α : Type} {p : Prop} [Decidable p] {a x : α} {r : Option α} {Q : Prop}
    (hpos : p → a = x → Q) (hneg : r = some x → Q) (h : (if p then some a else r) = some x) : Q := by
  by_cases hp : p
  · rw [if_pos hp] at h
    exact hpos hp (Option.some.inj h)
  · rw [if_neg hp] at h
    exact hneg h

section Moves

variable [PyFloat F]

/-- Inside a string, whatever part of it: what the string is for. -/
def Mode.InText (slot : Slot F) : Mode F → Prop
  | .text s _ | .esc s _ | .uni s _ _ _ _ | .pair s _ _ | .pairU s _ _ => s = slot
  | _ => False

/-- **What one character can do** to the mode and to the stack.  Invariants of the machine are
inductions on this relation, not on the code of `step`. -/
inductive Moves : Machine F → Machine F → Prop
  /-- Whitespace between tokens. -/
  | stays (m : Machine F) : Moves m m
  | begins {st : List (Frame F)} {c : Char} {m : Machine F} (h : startValue st c = some m) :
      Moves ⟨.value, st⟩ m
  | beginsElem {st : List (Frame F)} {c : Char} {m : Machine F}
      (h : startValue (.arr [] :: st) c = some m) : Moves ⟨.arrOpen, st⟩ m
  | emptyArr (st : List (Frame F)) : Moves ⟨.arrOpen, st⟩ (finish (.arr []) st)
  | emptyObj (st : List (Frame F)) : Moves ⟨.objOpen, st⟩ (finish (.obj []) st)
  | firstKey (st : List (Frame F)) : Moves ⟨.objOpen, st⟩ ⟨.text (.key []) [], st⟩
  | nextKey (kvs : Dict (Json F)) (st : List (Frame F)) :
      Moves ⟨.key kvs, st⟩ ⟨.text (.key kvs) [], st⟩
  | member (kvs : Dict (Json F)) (k : String) (st : List (Frame F)) :
      Moves ⟨.colon kvs k, st⟩ ⟨.value, .member kvs k :: st⟩
  | nextElem (xs : List (Json F)) (st : List (Frame F)) :
      Moves ⟨.afterElem xs, st⟩ ⟨.value, .arr xs :: st⟩
  | closesArr (xs : List (Json F)) (st : List (Frame F)) :
      Moves ⟨.afterElem xs, st⟩ (finish (.arr xs) st)
  | nextMember (kvs : Dict (Json F)) (st : List (Frame F)) :
      Moves ⟨.afterMember kvs, st⟩ ⟨.key kvs, st⟩
  | closesObj (kvs : Dict (Json F)) (st : List (Frame F)) :
      Moves ⟨.afterMember kvs, st⟩ (finish (.obj kvs) st)
  | digit (t t' : List Char) (ns ns' : NumState) (st : List (Frame F)) :
      Moves ⟨.num t ns, st⟩ ⟨.num t' ns', st⟩
  | infinity (t rest : List Char) (ns : NumState) (x : F) (st : List (Frame F)) :
      Moves ⟨.num t ns, st⟩ ⟨.word rest (.float x), st⟩
  /-- The character behind a number is already one behind its value. -/
  | endsNum {t : List Char} {ns : NumState} {st : List (Frame F)} {m : Machine F}
      (h : Moves (finish (numValue t ns) st) m) : Moves ⟨.num t ns, st⟩ m
  | letter (rest rest' : List Char) (v : Json F) (st : List (Frame F)) :
      Moves ⟨.word rest v, st⟩ ⟨.word rest' v, st⟩
  | endsWord (rest : List Char) (v : Json F) (st : List (Frame F)) :
      Moves ⟨.word rest v, st⟩ (finish v st)
  | inText (slot : Slot F) {mode mode' : Mode F} (st : List (Frame F)) (h : mode.InText slot)
      (h' : mode'.InText slot) : Moves ⟨mode, st⟩ ⟨mode', st⟩
  | endsText (slot : Slot F) (acc : List Char) (st : List (Frame F)) :
      Moves ⟨.text slot acc, st⟩ (finishText slot acc st)

omit [PyFloat F] in
/-- A completed escape is still inside of the string. -/
theorem finishUni_inText {slot : Slot F} {acc : List Char} {hi : Option Nat} {code : Nat}
    {st : List (Frame F)} {m : Machine F} (h : finishUni slot acc hi code st = some m) :
    m.mode.InText slot ∧ m.stack = st := by
  unfold finishUni at h
  split at h
  · split at h
    · cases h
      exact ⟨rfl, rfl⟩
    · obtain ⟨c, -, rfl⟩ := Option.map_eq_some_iff.mp h
      exact ⟨rfl, rfl⟩
  · split at h
    · obtain ⟨c, -, rfl⟩ := Option.map_eq_some_iff.mp h
      exact ⟨rfl, rfl⟩
    · cases h

theorem moves_of_stepClosed {m m' : Machine F} {c : Char} (h : stepClosed m c = some m') :
    Moves m m' := by
  obtain ⟨mode, st⟩ := m
  cases mode with
  | afterElem xs =>
    simp only [stepClosed] at h
    split_ifs at h
    · cases h
      exact .stays _
    · cases h
      exact .nextElem xs st
    · cases h
      exact .closesArr xs st
  | afterMember kvs =>
    simp only [stepClosed] at h
    split_ifs at h
    · cases h
      exact .stays _
    · cases h
      exact .nextMember kvs st
    · cases h
      exact .closesObj kvs st
  | _ =>
    simp only [stepClosed] at h
    split_ifs at h
    cases h
    exact .stays _

theorem moves_of_num {t : List Char} {ns : NumState} {st : List (Frame F)} {c : Char}
    {m' : Machine F} (h : step ⟨.num t ns, st⟩ c = some m') : Moves ⟨.num t ns, st⟩ m' := by
  cases hnext : ns.next c with
  | some ns' =>
    simp only [step, hnext] at h
    cases h
    exact .digit t _ ns ns' st
  | none =>
    simp only [step, hnext] at h
    split_ifs at h
    · cases h
      exact .infinity t _ ns _ st
    · exact .endsNum (moves_of_stepClosed h)

/-- Inside of a string a character stays in it, but for the quote. -/
theorem moves_of_text (slot : Slot F) {mode : Mode F} {st : List (Frame F)} {c : Char}
    {m' : Machine F} (h : step ⟨mode, st⟩ c = some m') (hmode : mode.InText slot) :
    Moves ⟨mode, st⟩ m' := by
  cases mode with
  | text s acc =>
    simp only [step] at h
    split_ifs at h
    · cases h
      exact .endsText s acc st
    · cases h
      exact .inText s st rfl rfl
    · cases h
      exact .inText s st rfl rfl
  | esc s acc =>
    simp only [step] at h
    split_ifs at h
    · cases h
      exact .inText s st rfl rfl
    · obtain ⟨d, -, rfl⟩ := Option.map_eq_some_iff.mp h
      exact .inText s st rfl rfl
  | uni s acc hi count code =>
    obtain ⟨d, -, h⟩ := Option.bind_eq_some_iff.mp h
    split_ifs at h
    · obtain ⟨hmode, hstack⟩ := finishUni_inText h
      obtain ⟨mode', st'⟩ := m'
      cases hstack
      exact .inText s st rfl hmode
    · cases h
      exact .inText s st rfl rfl
  | pair s acc hi =>
    simp only [step] at h
    split_ifs at h
    cases h
    exact .inText s st rfl rfl
  | pairU s acc hi =>
    simp only [step] at h
    split_ifs at h
    cases h
    exact .inText s st rfl rfl
  | _ => exact hmode.elim

/-- **`step` makes no other moves.** -/
theorem moves_of_step {m m' : Machine F} {c : Char} (h : step m c = some m') : Moves m m' := by
  obtain ⟨mode, st⟩ := m
  cases mode with
  | value =>
    simp only [step] at h
    split_ifs at h
    · cases h
      exact .stays _
    · exact .begins h
  | arrOpen =>
    simp only [step] at h
    split_ifs at h
    · cases h
      exact .stays _
    · cases h
      exact .emptyArr st
    · exact .beginsElem h
  | objOpen =>
    simp only [step] at h
    split_ifs at h
    · cases h
      exact .stays _
    · cases h
      exact .emptyObj st
    · cases h
      exact .firstKey st
  | key kvs =>
    simp only [step] at h
    split_ifs at h
    · cases h
      exact .stays _
    · cases h
      exact .nextKey kvs st
  | colon kvs k =>
    simp only [step] at h
    split_ifs at h
    · cases h
      exact .stays _
    · cases h
      exact .member kvs k st
  | afterElem xs => exact moves_of_stepClosed h
  | afterMember kvs => exact moves_of_stepClosed h
  | done v => exact moves_of_stepClosed h
  | num t ns => exact moves_of_num h
  | word rest v =>
    cases rest with
    | nil => cases h
    | cons r rs =>
      simp only [step] at h
      split_ifs at h
      · cases h
        exact .endsWord _ v st
      · cases h
        exact .letter _ rs v st
  | text slot _ | esc slot _ | uni slot _ _ _ _ | pair slot _ _ | pairU slot _ _ =>
    exact moves_of_text slot h rfl

end Moves

end Json

end Lib
