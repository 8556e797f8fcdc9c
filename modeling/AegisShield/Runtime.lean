/-
# The Python runtime the program stands on

What the model leaves open is collected in one structure, `Runtime`: the SHA-256 digest, so that
its collision freedom can be a hypothesis where a theorem needs it, and the `float` type, of which
the program only prints values.  Everything else of the standard library that the program uses is
a definition (`Lib`).

`Raised` are the exceptions a modelled function can raise, with the messages the source gives
them.  `Runtime.reference` is the runtime with the real SHA-256; a `float` is kept there as the
text Python prints for it.
-/
import AegisShield.Lib.JsonReaders
import AegisShield.Lib.Digest

namespace AegisShield

open Lib

/-! ## 1. Exceptions -/

/-- The exceptions that reach a caller. -/
inductive Raised
  | valueError (message : String)
  | jsonDecodeError
  | unicodeDecodeError
  | keyError (key : String)
  | typeError
  | attributeError
  | indexError
  | overflowError
  | fileNotFoundError
  | fileExistsError
  | permissionError (message : String)
  | runtimeError (message : String)
  | recursionError
  | journalCorruptionError (message : String)
  deriving DecidableEq, Repr

/-- `type(exc).__name__`. -/
def Raised.name : Raised → String
  | .valueError _ => "ValueError"
  | .jsonDecodeError => "JSONDecodeError"
  | .unicodeDecodeError => "UnicodeDecodeError"
  | .keyError _ => "KeyError"
  | .typeError => "TypeError"
  | .attributeError => "AttributeError"
  | .indexError => "IndexError"
  | .overflowError => "OverflowError"
  | .fileNotFoundError => "FileNotFoundError"
  | .fileExistsError => "FileExistsError"
  | .permissionError _ => "PermissionError"
  | .runtimeError _ => "RuntimeError"
  | .recursionError => "RecursionError"
  | .journalCorruptionError _ => "JournalCorruptionError"

section Bind

variable {α β : Type} {x : Except Raised α} {f : α → Except Raised β}

theorem bind_of_ok {a : α} (h : x = .ok a) : (x >>= f) = f a := by rw [h]; rfl

theorem bind_of_error {e : Raised} (h : x = .error e) : (x >>= f) = .error e := by rw [h]; rfl

/-- A computation that returns is the sequence of parts that return. -/
theorem bind_eq_ok {b : β} : (x >>= f) = .ok b ↔ ∃ a, x = .ok a ∧ f a = .ok b := by
  cases x with
  | error e =>
    constructor
    · intro h
      cases h
    · rintro ⟨a, ha, -⟩
      cases ha
  | ok a =>
    constructor
    · intro h
      exact ⟨a, rfl, h⟩
    · rintro ⟨a', ha, hb⟩
      cases ha
      exact hb

/-- A loop whose every round returns. -/
theorem mapM_of_ok {g : α → Except Raised β} {h : α → β} :
    ∀ {l : List α}, (∀ a ∈ l, g a = .ok (h a)) → l.mapM g = .ok (l.map h)
  | [], _ => rfl
  | a :: l, hl => by
    have ih : l.mapM g = .ok (l.map h) := mapM_of_ok fun b hb => hl b (List.mem_cons_of_mem _ hb)
    rw [List.mapM_cons, bind_of_ok (hl a List.mem_cons_self), bind_of_ok ih]
    rfl

end Bind

/-! ## 2. The runtime -/

/-- What the model does not define. -/
structure Runtime where
  /-- `hashlib.sha256(..).digest()`. -/
  sha256 : Bytes → Bytes
  /-- Python's `float`. -/
  Float : Type
  floats : PyFloat Float

instance (R : Runtime) : PyFloat R.Float := R.floats

namespace Runtime

/-- A JSON value of this runtime. -/
abbrev Value (R : Runtime) := Json R.Float

/-- `hashlib.sha256(..).hexdigest()`. -/
def hexdigest (R : Runtime) (bs : Bytes) : String := hex (R.sha256 bs)

/-- `_canonical`: `json.dumps(.., sort_keys=True, separators=(",", ":")).encode("utf-8")`. -/
def canonicalBytes (R : Runtime) (v : R.Value) : Bytes := utf8 v.canonical

/-- `json.loads` on `bytes`, with the exception it raises. -/
def loads (R : Runtime) (bs : Bytes) : Except Raised R.Value :=
  match decodeText bs with
  | none => .error .unicodeDecodeError
  | some cs =>
    match Json.loadsText cs with
    | none => .error .jsonDecodeError
    | some v => .ok v

end Runtime

/-- Equal hexadecimal digests are equal digests. -/
theorem hexdigest_injective {R : Runtime} {a b : Bytes} (h : R.hexdigest a = R.hexdigest b) :
    R.sha256 a = R.sha256 b := by
  have h1 := fromHex_hex (R.sha256 a)
  have h2 := fromHex_hex (R.sha256 b)
  rw [Runtime.hexdigest, Runtime.hexdigest] at h
  rw [h, h2] at h1
  exact (Option.some.inj h1).symm

/-- `dict(body, key=sha256(_canonical(body)).hexdigest())`. -/
def sealed (R : Runtime) (key : String) (body : Dict R.Value) : Dict R.Value :=
  Dict.set key (.str (R.hexdigest (R.canonicalBytes (.obj body)))) body

/-- The line both logs write for a record: `_canonical(dict(body, key=..)) + b"\n"`. -/
def sealedLine (R : Runtime) (key : String) (body : Dict R.Value) : Bytes :=
  R.canonicalBytes (.obj (sealed R key body)) ++ [newline]

/-! ## 3. Values that anyone may have written -/

/-- A value that `json.loads` returns. -/
abbrev Runtime.FileValue (R : Runtime) := PyJson R.Float PyStr

/-- A `dict` of such values. -/
abbrev Runtime.FileDict (R : Runtime) := PyJson.Dict R.Float

namespace FileValue

/-- `json.loads` on `bytes`, with the exception it raises.  A text over a limit raises another one,
which no caller in scope tells from these. -/
def loads (R : Runtime) (lim : Limits) (bs : Bytes) : Except Raised R.FileValue :=
  match PyStr.decode bs with
  | none => .error .unicodeDecodeError
  | some s => (PyJson.loadsText lim s).elim (.error .jsonDecodeError) .ok

/-- `_canonical`. -/
def canonicalBytes {R : Runtime} (body : R.FileDict) : Bytes := utf8 (PyJson.canonical (.obj body))

/-- The digest of the canonical form. -/
def bodyHash (R : Runtime) (body : R.FileDict) : String := R.hexdigest (canonicalBytes body)

/-- `hashlib.sha256(_canonical(body)).hexdigest()`, which `json.dumps` may not come through. -/
def hashed (R : Runtime) (lim : Limits) (body : R.FileDict) : Except Raised String :=
  if Limits.Admits lim.dumps (PyJson.obj body).depth then .ok (bodyHash R body)
  else .error .recursionError

/-- `value.get(key)`. -/
def get {R : Runtime} (kvs : R.FileDict) (key : String) : Option R.FileValue :=
  kvs.lookup (PyStr.ofString key)

/-- `value[key]`. -/
def getItem {R : Runtime} (kvs : R.FileDict) (key : String) : Except Raised R.FileValue :=
  (get kvs key).elim (.error (.keyError key)) .ok

/-- What `value.pop(key)` leaves. -/
def pop {R : Runtime} (kvs : R.FileDict) (key : String) : R.FileDict :=
  Assoc.pop kvs (PyStr.ofString key)

/-- A `str`, or nothing. -/
def asStr {R : Runtime} : R.FileValue → Option PyStr
  | .str s => some s
  | _ => none

/-- A `dict`, or the exception that indexing or `.get` on anything else raises. -/
def asDict {R : Runtime} (raised : Raised) : R.FileValue → Except Raised R.FileDict
  | .obj kvs => .ok kvs
  | _ => .error raised

/-- `int(value)`.  A literal over the limit has another message. -/
def pyInt {R : Runtime} (lim : Limits) : R.FileValue → Except Raised Int
  | .int i => .ok i
  | .bool b => .ok (if b then 1 else 0)
  | .float x =>
    match PyFloat.trunc x with
    | some i => .ok i
    | none =>
      if PyFloat.isNan x then .error (.valueError "cannot convert float NaN to integer")
      else .error .overflowError
  | .str s =>
    match intOfStr lim s with
    | some i => .ok i
    | none => .error (.valueError "invalid literal for int() with base 10")
  | .null => .error .typeError
  | .arr _ => .error .typeError
  | .obj _ => .error .typeError

end FileValue

/-- `int(value)`, for a value whose texts are strings. -/
def pyInt {R : Runtime} (v : R.Value) : Except Raised Int := FileValue.pyInt .off v.toPy

@[simp] theorem pyInt_int {R : Runtime} (i : Int) : pyInt (.int i : R.Value) = .ok i := rfl

/-! ## 4. A concrete runtime -/

/-- Whether a text is that of a `float`. -/
def floatText (t : List Char) : Bool :=
  t = "NaN".toList || t = "Infinity".toList || t = "-Infinity".toList ||
    match NumState.scan t with
    | some ns => ns.accepts && !ns.integral
    | none => false

theorem isFloatText_of_floatText {t : List Char} (h : floatText t = true) : IsFloatText t := by
  simp only [floatText, Bool.or_eq_true, decide_eq_true_eq] at h
  rcases h with ((h | h) | h) | h
  · exact Or.inl h
  · exact Or.inr (Or.inl h)
  · exact Or.inr (Or.inr (Or.inl h))
  · refine Or.inr (Or.inr (Or.inr ?_))
    split at h
    · rename_i ns hns
      simp only [Bool.and_eq_true, Bool.not_eq_true'] at h
      exact ⟨ns, hns, h⟩
    · cases h

/-- A `float`, kept as the text Python prints for it. -/
structure TextFloat where
  text : List Char
  valid : floatText text = true

/-- `float` by its printed text.  `int()` of one is left undefined: no value the program prints is
read back as an integer. -/
instance : PyFloat TextFloat where
  ofText t := if h : floatText t = true then ⟨t, h⟩ else ⟨"NaN".toList, rfl⟩
  text x := x.text
  trunc _ := none
  isNan x := x.text = "NaN".toList
  ofText_text x := by
    rw [dif_pos x.valid]
  text_valid x := isFloatText_of_floatText x.valid

/-- The runtime with the real SHA-256. -/
def Runtime.reference : Runtime where
  sha256 := Lib.sha256
  Float := TextFloat
  floats := inferInstance

end AegisShield
