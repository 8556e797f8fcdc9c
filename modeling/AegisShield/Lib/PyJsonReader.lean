/-
# `json.loads` on any text

The reader of `PyJson`, for text with surrogates.  A `Lexer` cuts the text into tokens, one code
point at a time; a `Parser` consumes the tokens with an explicit stack.  The language is that of
`json.loads` in strict mode: no control characters in strings, no trailing commas, `NaN`,
`Infinity` and `-Infinity` admitted, the last of two equal keys wins.

In a string literal, two ESCAPES that are the halves of a pair are one character; an unpaired one
is a surrogate, and so is a half that stands in the text itself.

The limits of the interpreter are checked on the tokens.  A text that breaks the grammar AND exceeds
a limit raises either way, so only which exception it is depends on the order.
-/
import AegisShield.Lib.PyInt
import AegisShield.Lib.PyJson

namespace Lib

/-! ## 1. Association lists in order of key -/

namespace Assoc

variable {K V : Type} [LinearOrder K]

/-- `d[k] = v`. -/
def set (k : K) (v : V) : List (K × V) → List (K × V)
  | [] => [(k, v)]
  | (k', v') :: d =>
    if k < k' then (k, v) :: (k', v') :: d
    else if k = k' then (k, v) :: d
    else (k', v') :: set k v d

/-- What is left of `d` after `d.pop(k)`. -/
def pop (d : List (K × V)) (k : K) : List (K × V) := d.filter fun kv => kv.1 ≠ k

/-- The keys are strictly increasing. -/
def Sorted (d : List (K × V)) : Prop := d.Pairwise fun a b => a.1 < b.1

theorem mem_set {k : K} {v : V} : ∀ {d : List (K × V)} {kv : K × V},
    kv ∈ set k v d → kv = (k, v) ∨ kv ∈ d
  | [], kv, h => Or.inl (List.mem_singleton.mp h)
  | (k', v') :: d, kv, h => by
    simp only [set] at h
    split at h
    · exact List.mem_cons.mp h
    · split at h
      · rcases List.mem_cons.mp h with h | h
        · exact Or.inl h
        · exact Or.inr (List.mem_cons_of_mem _ h)
      · rcases List.mem_cons.mp h with rfl | h
        · exact Or.inr List.mem_cons_self
        · exact (mem_set h).imp_right (List.mem_cons_of_mem _)

theorem Sorted.set {k : K} {v : V} : ∀ {d : List (K × V)}, Sorted d → Sorted (set k v d)
  | [], _ => List.pairwise_singleton _ _
  | (k', v') :: d, h => by
    obtain ⟨hhead, htail⟩ := List.pairwise_cons.mp h
    simp only [Assoc.set]
    split
    · rename_i hlt
      refine List.pairwise_cons.mpr ⟨?_, h⟩
      intro kv hkv
      rcases List.mem_cons.mp hkv with rfl | hkv
      · exact hlt
      · exact lt_trans hlt (hhead kv hkv)
    · rename_i hle
      split
      · rename_i heq
        exact List.pairwise_cons.mpr ⟨fun kv hkv => heq ▸ hhead kv hkv, htail⟩
      · rename_i hne
        refine List.pairwise_cons.mpr ⟨?_, Sorted.set htail⟩
        intro kv hkv
        rcases mem_set hkv with rfl | hkv
        · exact lt_of_le_of_ne (not_lt.mp hle) (Ne.symm hne)
        · exact hhead kv hkv

/-- Where the entry that `pop` takes out stands. -/
theorem Sorted.pop_eq [BEq K] [LawfulBEq K] {k : K} {v : V} : ∀ {d : List (K × V)}, Sorted d → d.lookup k = some v →
    ∃ pre post, d = pre ++ (k, v) :: post ∧ pop d k = pre ++ post ∧
      (∀ kv ∈ pre, kv.1 < k) ∧ ∀ kv ∈ post, k < kv.1
  | (k', v') :: d, h, hget => by
    obtain ⟨hhead, htail⟩ := List.pairwise_cons.mp h
    rw [List.lookup_cons] at hget
    by_cases hk : k = k'
    · subst hk
      rw [beq_self_eq_true] at hget
      cases hget
      refine ⟨[], d, rfl, ?_, nofun, hhead⟩
      have hself : d.filter (fun kv => decide (kv.1 ≠ k)) = d :=
        List.filter_eq_self.mpr fun kv hkv => decide_eq_true (ne_of_gt (hhead kv hkv))
      rw [pop, List.filter_cons_of_neg (by simp), hself]
      rfl
    · rw [beq_eq_false_iff_ne.mpr hk] at hget
      obtain ⟨pre, post, rfl, hpop, hpre, hpost⟩ := Sorted.pop_eq htail hget
      refine ⟨(k', v') :: pre, post, rfl, ?_, ?_, hpost⟩
      · rw [pop] at hpop
        rw [pop, List.filter_cons, if_pos (by simpa using Ne.symm hk), hpop]
        rfl
      · intro kv hkv
        rcases List.mem_cons.mp hkv with rfl | hkv
        · exact hhead (k, v) (List.mem_append_right _ List.mem_cons_self)
        · exact hpre kv hkv

end Assoc

namespace PyJson

variable {F : Type}

/-- A `dict` read from a file. -/
abbrev Dict (F : Type) := List (PyStr × PyJson F PyStr)

/-! ## 2. Tokens -/

/-- A value without parts and without text. -/
inductive Atom (F : Type)
  | null
  | bool (b : Bool)
  | int (i : Int)
  | float (x : F)

/-- The value. -/
def Atom.value : Atom F → PyJson F PyStr
  | .null => .null
  | .bool b => .bool b
  | .int i => .int i
  | .float x => .float x

inductive Token (F : Type)
  /-- One of `{}[],:`. -/
  | punct (c : Char)
  | text (s : PyStr)
  | atom (a : Atom F)

/-- What the lexer is in the middle of. -/
inductive LexMode (F : Type)
  | idle
  | num (text : List Char) (ns : NumState)
  | word (rest : List Char) (a : Atom F)
  /-- Inside a string, and after a backslash there. -/
  | text (acc : PyStr)
  | esc (acc : PyStr)
  /-- After `\u` and some of its digits; `hi` is the first half of a pair. -/
  | uni (acc : PyStr) (hi : Option Nat) (count code : Nat)
  /-- After the first half of a pair, and after the backslash that follows it. -/
  | pair (acc : PyStr) (hi : Nat)
  | pairU (acc : PyStr) (hi : Nat)

/-- The lexer: what it is reading, and the tokens before it. -/
structure Lexer (F : Type) where
  mode : LexMode F
  tokens : List (Token F)

section Lexer

variable [PyFloat F]

/-- The token of a finished number. -/
def numToken (text : List Char) (ns : NumState) : Token F :=
  .atom (if ns.integral then .int (intOfText text) else .float (PyFloat.ofText text))

/-- Between two tokens. -/
def stepIdle (tokens : List (Token F)) (c : Char) : Option (Lexer F) :=
  if Json.isWs c then some ⟨.idle, tokens⟩
  else if c ∈ ['{', '}', '[', ']', ',', ':'] then some ⟨.idle, tokens ++ [.punct c]⟩
  else if c = '"' then some ⟨.text [], tokens⟩
  else if c = 'n' then some ⟨.word "ull".toList .null, tokens⟩
  else if c = 't' then some ⟨.word "rue".toList (.bool true), tokens⟩
  else if c = 'f' then some ⟨.word "alse".toList (.bool false), tokens⟩
  else if c = 'N' then some ⟨.word "aN".toList (.float (PyFloat.ofText "NaN".toList)), tokens⟩
  else if c = 'I' then
    some ⟨.word "nfinity".toList (.float (PyFloat.ofText "Infinity".toList)), tokens⟩
  else (NumState.start c).map fun ns => ⟨.num [c] ns, tokens⟩

/-- Inside a string. -/
def stepText (tokens : List (Token F)) (acc : PyStr) (c : CodePoint) : Option (Lexer F) :=
  if c = CodePoint.ofChar '"' then some ⟨.idle, tokens ++ [.text acc]⟩
  else if c = CodePoint.ofChar '\\' then some ⟨.esc acc, tokens⟩
  else if c < CodePoint.ofChar ' ' then none
  else some ⟨.text (acc ++ [c]), tokens⟩

/-- After a backslash. -/
def stepEsc (tokens : List (Token F)) (acc : PyStr) (c : CodePoint) : Option (Lexer F) :=
  if c = CodePoint.ofChar 'u' then some ⟨.uni acc none 0 0, tokens⟩
  else (c.char.bind Json.unescape).map fun d => ⟨.text (acc ++ [CodePoint.ofChar d]), tokens⟩

/-- A completed `\u` escape with no half before it. -/
def finishUnit (tokens : List (Token F)) (acc : PyStr) (code : Nat) : Lexer F :=
  if CodePoint.IsHigh code then ⟨.pair acc code, tokens⟩
  else ⟨.text (acc ++ [CodePoint.ofUnit code]), tokens⟩

/-- A completed `\u` escape. -/
def finishUni (tokens : List (Token F)) (acc : PyStr) (hi : Option Nat) (code : Nat) : Lexer F :=
  match hi with
  | none => finishUnit tokens acc code
  | some h =>
    if CodePoint.IsLow code then ⟨.text (acc ++ [CodePoint.ofPair h code]), tokens⟩
    else finishUnit tokens (acc ++ [CodePoint.ofUnit h]) code

/-- One code point. -/
def Lexer.step (x : Lexer F) (c : CodePoint) : Option (Lexer F) :=
  match x.mode with
  | .idle => c.char.bind (stepIdle x.tokens)
  | .num text ns =>
    c.char.bind fun d =>
      match ns.next d with
      | some ns' => some ⟨.num (text ++ [d]) ns', x.tokens⟩
      | none =>
        if ns = .minus ∧ d = 'I' then
          some ⟨.word "nfinity".toList (.float (PyFloat.ofText "-Infinity".toList)), x.tokens⟩
        else if ns.accepts then stepIdle (x.tokens ++ [numToken text ns]) d
        else none
  | .word rest a =>
    match rest with
    | [] => none
    | r :: rs =>
      if c = CodePoint.ofChar r then
        some (if rs = [] then ⟨.idle, x.tokens ++ [.atom a]⟩ else ⟨.word rs a, x.tokens⟩)
      else none
  | .text acc => stepText x.tokens acc c
  | .esc acc => stepEsc x.tokens acc c
  | .uni acc hi count code =>
    (c.char.bind hexVal).map fun d =>
      if count = 3 then finishUni x.tokens acc hi (16 * code + d)
      else ⟨.uni acc hi (count + 1) (16 * code + d), x.tokens⟩
  | .pair acc hi =>
    if c = CodePoint.ofChar '\\' then some ⟨.pairU acc hi, x.tokens⟩
    else stepText x.tokens (acc ++ [CodePoint.ofUnit hi]) c
  | .pairU acc hi =>
    if c = CodePoint.ofChar 'u' then some ⟨.uni acc (some hi) 0 0, x.tokens⟩
    else stepEsc x.tokens (acc ++ [CodePoint.ofUnit hi]) c

/-- The tokens at the end of the input, which may end with a number. -/
def Lexer.final (x : Lexer F) : Option (List (Token F)) :=
  match x.mode with
  | .idle => some x.tokens
  | .num text ns => if ns.accepts then some (x.tokens ++ [numToken text ns]) else none
  | _ => none

/-- The tokens of a text. -/
def lex (s : PyStr) : Option (List (Token F)) :=
  (s.foldlM Lexer.step ⟨.idle, []⟩).bind Lexer.final

end Lexer

/-! ## 3. Values from tokens -/

/-- A container the parser will return to. -/
inductive Frame (F : Type)
  /-- An array with the elements read so far. -/
  | arr (done : List (PyJson F PyStr))
  /-- An object with the members read so far, waiting for the value of a key. -/
  | member (done : Dict F) (key : PyStr)

/-- What the parser expects. -/
inductive Mode (F : Type)
  | value
  | arrOpen
  | objOpen
  | key (done : Dict F)
  | colon (done : Dict F) (key : PyStr)
  | afterElem (done : List (PyJson F PyStr))
  | afterMember (done : Dict F)
  | done (v : PyJson F PyStr)

/-- The parser: what it expects, and the containers it is inside of. -/
structure Parser (F : Type) where
  mode : Mode F
  stack : List (Frame F)

/-- Hand a finished value to the container it belongs to. -/
def finish (v : PyJson F PyStr) : List (Frame F) → Parser F
  | [] => ⟨.done v, []⟩
  | .arr xs :: st => ⟨.afterElem (xs ++ [v]), st⟩
  | .member kvs k :: st => ⟨.afterMember (Assoc.set k v kvs), st⟩

/-- The first token of a value. -/
def startValue (st : List (Frame F)) : Token F → Option (Parser F)
  | .punct '[' => some ⟨.arrOpen, st⟩
  | .punct '{' => some ⟨.objOpen, st⟩
  | .punct _ => none
  | .text s => some (finish (.str s) st)
  | .atom a => some (finish a.value st)

/-- One token. -/
def Parser.step (p : Parser F) (t : Token F) : Option (Parser F) :=
  match p.mode, t with
  | .value, t => startValue p.stack t
  | .arrOpen, .punct ']' => some (finish (.arr []) p.stack)
  | .arrOpen, t => startValue (.arr [] :: p.stack) t
  | .objOpen, .punct '}' => some (finish (.obj []) p.stack)
  | .objOpen, .text k => some ⟨.colon [] k, p.stack⟩
  | .key done, .text k => some ⟨.colon done k, p.stack⟩
  | .colon done k, .punct ':' => some ⟨.value, .member done k :: p.stack⟩
  | .afterElem xs, .punct ',' => some ⟨.value, .arr xs :: p.stack⟩
  | .afterElem xs, .punct ']' => some (finish (.arr xs) p.stack)
  | .afterMember kvs, .punct ',' => some ⟨.key kvs, p.stack⟩
  | .afterMember kvs, .punct '}' => some (finish (.obj kvs) p.stack)
  | _, _ => none

/-- The value at the end of the tokens. -/
def Parser.final (p : Parser F) : Option (PyJson F PyStr) :=
  match p.mode, p.stack with
  | .done v, [] => some v
  | _, _ => none

/-- The value of a list of tokens. -/
def parse (ts : List (Token F)) : Option (PyJson F PyStr) :=
  (ts.foldlM Parser.step ⟨.value, []⟩).bind Parser.final

/-- The digits of an integer literal. -/
def Token.digits : Token F → Nat
  | .atom (.int i) => (natText i.natAbs).length
  | _ => 0

/-- How deep the containers go, from a depth on. -/
def deepest : Nat → List (Token F) → Nat
  | depth, [] => depth
  | depth, .punct c :: ts =>
    if c = '[' ∨ c = '{' then deepest (depth + 1) ts
    else if c = ']' ∨ c = '}' then max depth (deepest (depth - 1) ts)
    else deepest depth ts
  | depth, _ :: ts => deepest depth ts

/-- No limit is exceeded. -/
def Admitted (lim : Limits) (ts : List (Token F)) : Prop :=
  (∀ t ∈ ts, Limits.Admits lim.digits t.digits) ∧ Limits.Admits lim.loads (deepest 0 ts)

instance (lim : Limits) (ts : List (Token F)) : Decidable (Admitted lim ts) :=
  inferInstanceAs (Decidable (_ ∧ _))

/-- `json.loads` on a `str`. -/
def loadsText [PyFloat F] (lim : Limits) (s : PyStr) : Option (PyJson F PyStr) := do
  let ts ← lex s
  if Admitted lim ts then parse ts else none

/-- `json.loads` on `bytes`. -/
def loads [PyFloat F] (lim : Limits) (bs : Bytes) : Option (PyJson F PyStr) :=
  (PyStr.decode bs).bind (loadsText lim)

theorem loadsText_eq_some [PyFloat F] {lim : Limits} {s : PyStr} {v : PyJson F PyStr} :
    loadsText lim s = some v ↔ ∃ ts, lex s = some ts ∧ Admitted lim ts ∧ parse ts = some v := by
  unfold loadsText
  constructor
  · intro h
    obtain ⟨ts, hlex, h⟩ := Option.bind_eq_some_iff.mp h
    split at h
    · rename_i hadmitted
      exact ⟨ts, hlex, hadmitted, h⟩
    · cases h
  · rintro ⟨ts, hlex, hadmitted, h⟩
    exact Option.bind_eq_some_iff.mpr ⟨ts, hlex, by rw [if_pos hadmitted, h]⟩

theorem admitted_off (ts : List (Token F)) : Admitted .off ts :=
  ⟨fun _ _ => Limits.admits_none _, Limits.admits_none _⟩

/-- Without limits the grammar decides. -/
theorem loadsText_off [PyFloat F] (s : PyStr) :
    (loadsText .off s : Option (PyJson F PyStr)) = (lex s).bind parse := by
  unfold loadsText
  cases (lex s : Option (List (Token F))) with
  | none => rfl
  | some ts => exact if_pos (admitted_off ts)

/-- A text that is read is read the same without limits. -/
theorem loadsText_off_of_some [PyFloat F] {lim : Limits} {s : PyStr} {v : PyJson F PyStr}
    (h : loadsText lim s = some v) : loadsText .off s = some v := by
  obtain ⟨ts, hlex, -, hparse⟩ := loadsText_eq_some.mp h
  exact loadsText_eq_some.mpr ⟨ts, hlex, admitted_off ts, hparse⟩

theorem loads_off_of_some [PyFloat F] {lim : Limits} {bs : Bytes} {v : PyJson F PyStr}
    (h : loads lim bs = some v) : loads .off bs = some v := by
  obtain ⟨s, hs, h⟩ := Option.bind_eq_some_iff.mp h
  exact Option.bind_eq_some_iff.mpr ⟨s, hs, loadsText_off_of_some h⟩

/-- What is not read without limits is not read. -/
theorem loads_of_off_none [PyFloat F] {bs : Bytes} (h : loads .off bs = (none : Option (PyJson F PyStr)))
    (lim : Limits) : loads lim bs = (none : Option (PyJson F PyStr)) := by
  rw [Option.eq_none_iff_forall_not_mem]
  intro v hv
  rw [loads_off_of_some hv] at h
  cases h

/-! ## 4. Keys are in order -/

/-- A `dict` has its keys in order. -/
def InOrder (v : PyJson F PyStr) : Prop := ∀ kvs, v = .obj kvs → Assoc.Sorted kvs

theorem inOrder_arr (xs : List (PyJson F PyStr)) : (PyJson.arr xs).InOrder := by
  intro kvs heq
  cases heq

theorem inOrder_obj {kvs : Dict F} (h : Assoc.Sorted kvs) : (PyJson.obj kvs).InOrder := by
  intro kvs' heq
  cases heq
  exact h

/-- The containers of the parser have their keys in order. -/
def Frame.InOrder : Frame F → Prop
  | .arr _ => True
  | .member kvs _ => Assoc.Sorted kvs

/-- So has what it is reading. -/
def Mode.InOrder : Mode F → Prop
  | .key kvs | .colon kvs _ | .afterMember kvs => Assoc.Sorted kvs
  | .done v => v.InOrder
  | .value | .arrOpen | .objOpen | .afterElem _ => True

/-- **The invariant of the parser.** -/
structure Parser.InOrder (p : Parser F) : Prop where
  mode : p.mode.InOrder
  stack : ∀ f ∈ p.stack, f.InOrder

theorem finish_inOrder {v : PyJson F PyStr} (hv : v.InOrder) :
    ∀ {st : List (Frame F)}, (∀ f ∈ st, f.InOrder) → (finish v st).InOrder
  | [], _ => ⟨hv, nofun⟩
  | .arr _ :: _, h => ⟨trivial, fun f hf => h f (List.mem_cons_of_mem _ hf)⟩
  | .member kvs k :: _, h =>
    ⟨Assoc.Sorted.set (h (.member kvs k) List.mem_cons_self),
      fun f hf => h f (List.mem_cons_of_mem _ hf)⟩

theorem startValue_inOrder {st : List (Frame F)} (h : ∀ f ∈ st, f.InOrder) {t : Token F}
    {p : Parser F} (hp : startValue st t = some p) : p.InOrder := by
  cases t with
  | punct c =>
    simp only [startValue] at hp
    split at hp
    · cases hp
      exact ⟨trivial, h⟩
    · cases hp
      exact ⟨trivial, h⟩
    · cases hp
    · rename_i heq
      cases heq
    · rename_i heq
      cases heq
  | text s =>
    cases hp
    exact finish_inOrder (fun _ heq => by cases heq) h
  | atom a =>
    cases hp
    refine finish_inOrder (fun kvs heq => ?_) h
    cases a <;> cases heq

/-- **Every token keeps the invariant.** -/
theorem Parser.InOrder.step {p p' : Parser F} (h : p.InOrder) {t : Token F}
    (hp : p.step t = some p') : p'.InOrder := by
  obtain ⟨hmode, hstack⟩ := h
  have hpush : ∀ f : Frame F, f.InOrder → ∀ g ∈ f :: p.stack, g.InOrder := by
    intro f hf g hg
    rcases List.mem_cons.mp hg with rfl | hg
    · exact hf
    · exact hstack g hg
  unfold Parser.step at hp
  split at hp
  · exact startValue_inOrder hstack hp
  · cases hp
    exact finish_inOrder (inOrder_arr []) hstack
  · exact startValue_inOrder (hpush (.arr []) trivial) hp
  · cases hp
    exact finish_inOrder (inOrder_obj List.Pairwise.nil) hstack
  · cases hp
    exact ⟨List.Pairwise.nil, hstack⟩
  · rename_i hkey
    rw [hkey] at hmode
    cases hp
    exact ⟨hmode, hstack⟩
  · rename_i hcolon
    rw [hcolon] at hmode
    cases hp
    exact ⟨trivial, hpush (.member _ _) hmode⟩
  · cases hp
    exact ⟨trivial, hpush (.arr _) trivial⟩
  · cases hp
    exact finish_inOrder (inOrder_arr _) hstack
  · rename_i hmember
    rw [hmember] at hmode
    cases hp
    exact ⟨hmode, hstack⟩
  · rename_i hmember
    rw [hmember] at hmode
    cases hp
    exact finish_inOrder (inOrder_obj hmode) hstack
  · cases hp

/-- **A `dict` that is read has its keys in order.** -/
theorem loadsText_inOrder [PyFloat F] {lim : Limits} {s : PyStr} {v : PyJson F PyStr}
    (h : loadsText lim s = some v) : v.InOrder := by
  obtain ⟨ts, -, -, h⟩ := loadsText_eq_some.mp h
  obtain ⟨p, hp, h⟩ := Option.bind_eq_some_iff.mp h
  have hrun : ∀ (ts : List (Token F)) {p p' : Parser F}, p.InOrder →
      ts.foldlM Parser.step p = some p' → p'.InOrder := by
    intro ts
    induction ts with
    | nil =>
      intro p p' hp h
      cases h
      exact hp
    | cons t ts ih =>
      intro p p' hp h
      obtain ⟨q, hq, hrest⟩ := Option.bind_eq_some_iff.mp h
      exact ih (hp.step hq) hrest
  have hfirst : (⟨.value, []⟩ : Parser F).InOrder := ⟨trivial, nofun⟩
  have hlast := hrun ts hfirst hp
  unfold Parser.final at h
  split at h
  · rename_i hmode _
    cases h
    have hdone := hlast.mode
    rw [hmode] at hdone
    exact hdone
  · cases h

/-- A member that is taken out goes back where it was. -/
theorem SameUnits.of_pop {k : PyStr} (hk : PyStr.Plain k) {kvs lvs : Dict F}
    {v w : PyJson F PyStr} (hkvs : Assoc.Sorted kvs) (hlvs : Assoc.Sorted lvs)
    (hv : kvs.lookup k = some v) (hw : lvs.lookup k = some w)
    (hvalue : v.map PyStr.units = w.map PyStr.units)
    (h : SameUnits (Assoc.pop kvs k) (Assoc.pop lvs k)) : SameUnits kvs lvs := by
  have hcount : ∀ {pre post : Dict F}, (∀ kv ∈ pre, kv.1 < k) → (∀ kv ∈ post, k < kv.1) →
      (pre ++ post).countP (fun kv => kv.1 < k) = pre.length := by
    intro pre post hpre hpost
    rw [List.countP_append, List.countP_eq_length.mpr fun kv hkv => decide_eq_true (hpre kv hkv),
      List.countP_eq_zero.mpr fun kv hkv hlt => lt_asymm (hpost kv hkv) (of_decide_eq_true hlt),
      Nat.add_zero]
  obtain ⟨pre, post, rfl, hpop, hpre, hpost⟩ := hkvs.pop_eq hv
  obtain ⟨pre', post', rfl, hpop', hpre', hpost'⟩ := hlvs.pop_eq hw
  rw [hpop, hpop'] at h
  -- the key stands behind as many members in one as in the other
  have hlength : pre.length = pre'.length := by
    rw [← hcount hpre hpost, h.countP hk, hcount hpre' hpost']
  obtain ⟨hfront, hback⟩ := h.of_append hlength
  simp only [SameUnits, mapMembers_eq, List.map_append, List.map_cons] at hfront hback ⊢
  rw [hfront, hback, hvalue]

end PyJson

end Lib
