/-
# The two readers agree

`Json` and its reader are for texts that are strings; `PyJson` and its reader are for any text a
file can hold.  `Json.toPy` is the same value with its texts as code points, and the result of this
file is that the machine of `Json` and the lexer and parser of `PyJson` run together (`Together`):
as long as the machine runs, both readers come to the same (`loadsText_of_run`).

So what `Json.loads` reads, `PyJson.loads` reads as the same value (`loads_toPy`), and what the
machine says about parts of a dump carries over (`pyLoads_take_obj`, `pyLoads_obj_append_obj`).
Where the machine stops at a surrogate the other reader goes on.
-/
import AegisShield.Lib.PyJsonReader

namespace Lib

/-! ## 1. The same value -/

theorem PyStr.ofString_lt {s t : String} (h : s < t) : PyStr.ofString s < PyStr.ofString t := by
  have hmap : ∀ cs ds : List Char, cs < ds → cs.map CodePoint.ofChar < ds.map CodePoint.ofChar := by
    intro cs
    induction cs with
    | nil =>
      intro ds h
      cases ds with
      | nil => exact absurd h (List.not_lt_nil _)
      | cons d ds => exact List.nil_lt_cons _ _
    | cons c cs ih =>
      intro ds h
      cases ds with
      | nil => exact absurd h (List.not_lt_nil _)
      | cons d ds =>
        rw [List.map_cons, List.map_cons]
        rcases List.cons_lt_cons_iff.mp h with hlt | ⟨rfl, hlt⟩
        · exact List.cons_lt_cons_iff.mpr (Or.inl hlt)
        · exact List.cons_lt_cons_iff.mpr (Or.inr ⟨rfl, ih ds hlt⟩)
  exact hmap _ _ (String.lt_iff.mp h)

theorem PyStr.ofString_injective {s t : String} (h : PyStr.ofString s = PyStr.ofString t) : s = t :=
  PyStr.ofString_inj (congrArg PyStr.units h)

namespace Json

variable {F : Type}

mutual
/-- The value, with its texts as code points. -/
def toPy : Json F → PyJson F PyStr
  | .null => .null
  | .bool b => .bool b
  | .int i => .int i
  | .float x => .float x
  | .str s => .str (PyStr.ofString s)
  | .arr xs => .arr (toPyElems xs)
  | .obj kvs => .obj (toPyMembers kvs)
/-- `toPy` on the elements of an array. -/
def toPyElems : List (Json F) → List (PyJson F PyStr)
  | [] => []
  | x :: xs => toPy x :: toPyElems xs
/-- `toPy` on the members of an object. -/
def toPyMembers : List (String × Json F) → PyJson.Dict F
  | [] => []
  | (k, v) :: kvs => (PyStr.ofString k, toPy v) :: toPyMembers kvs
end

theorem toPyElems_append (xs ys : List (Json F)) :
    toPyElems (xs ++ ys) = toPyElems xs ++ toPyElems ys := by
  induction xs with
  | nil => rfl
  | cons x xs ih => rw [List.cons_append, toPyElems, toPyElems, ih, List.cons_append]

/-- `d[k] = v`, on either side. -/
theorem toPyMembers_set (k : String) (v : Json F) : ∀ d : Dict (Json F),
    toPyMembers (Dict.set k v d) = Assoc.set (PyStr.ofString k) v.toPy (toPyMembers d)
  | [] => rfl
  | (k', v') :: d => by
    rw [Dict.set, toPyMembers, Assoc.set]
    by_cases hlt : k < k'
    · rw [if_pos hlt, if_pos (PyStr.ofString_lt hlt)]
      rfl
    · rw [if_neg hlt]
      by_cases heq : k = k'
      · rw [if_pos heq, if_neg (by rw [heq]; exact lt_irrefl _), if_pos (congrArg _ heq)]
        rfl
      · have hgt : k' < k := Classical.byContradiction fun hn =>
          heq (String.le_antisymm (String.not_lt.mp hn) (String.not_lt.mp hlt))
        rw [if_neg heq, if_neg (lt_asymm (PyStr.ofString_lt hgt)),
          if_neg fun h => heq (PyStr.ofString_injective h), toPyMembers, toPyMembers_set k v d]

/-- `d.get(k)`, on either side. -/
theorem toPyMembers_lookup (k : String) : ∀ d : Dict (Json F),
    (toPyMembers d).lookup (PyStr.ofString k) = (d.get k).map toPy
  | [] => rfl
  | (k', v') :: d => by
    rw [toPyMembers, List.lookup_cons, Dict.get, List.lookup_cons]
    by_cases h : k = k'
    · rw [h, beq_self_eq_true, beq_self_eq_true]
      rfl
    · rw [beq_eq_false_iff_ne.mpr h,
        beq_eq_false_iff_ne.mpr fun heq => h (PyStr.ofString_injective heq)]
      exact toPyMembers_lookup k d

/-- What `d.pop(k)` leaves, on either side. -/
theorem toPyMembers_pop (k : String) (d : Dict (Json F)) :
    toPyMembers (d.pop k) = Assoc.pop (toPyMembers d) (PyStr.ofString k) := by
  unfold Dict.pop Assoc.pop
  induction d with
  | nil => rfl
  | cons kv d ih =>
    obtain ⟨k', v'⟩ := kv
    rw [toPyMembers]
    by_cases h : k' = k
    · rw [List.filter_cons_of_neg (by simp [h]), List.filter_cons_of_neg (by simp [h])]
      exact ih
    · have hne : PyStr.ofString k' ≠ PyStr.ofString k := fun heq => h (PyStr.ofString_injective heq)
      rw [List.filter_cons_of_pos (by simpa using h), List.filter_cons_of_pos (by simpa using hne),
        toPyMembers, ih]

/-! ## 2. Printed alike -/

/-- Past ASCII every character is escaped by its number. -/
theorem escape_of_le {c : Char} (h : 0x80 ≤ c.toNat) :
    escape c = if c.toNat < 0x10000 then '\\' :: 'u' :: hex4 c.toNat
      else '\\' :: 'u' :: hex4 (0xD800 + (c.toNat - 0x10000) / 0x400) ++
        '\\' :: 'u' :: hex4 (0xDC00 + (c.toNat - 0x10000) % 0x400) := by
  have hne : ∀ d : Char, d.toNat < 0x80 → c ≠ d := by
    rintro d hd rfl
    omega
  have hprint : ¬ (' ' ≤ c ∧ c ≤ '~') := by
    rintro ⟨-, hle⟩
    have hle' : c.toNat ≤ 126 := hle
    omega
  rw [escape, if_neg (hne '"' (by decide)), if_neg (hne '\\' (by decide)),
    if_neg (hne '\n' (by decide)), if_neg (hne '\r' (by decide)), if_neg (hne '\t' (by decide)),
    if_neg (hne '\x08' (by decide)), if_neg (hne '\x0c' (by decide)), if_neg hprint]

/-- A character is escaped as its code units are. -/
theorem escapeUnits_ofChar (c : Char) :
    (CodePoint.ofChar c).units.flatMap PyJson.escapeUnit = escape c := by
  have hwide : ∀ u : CodeUnit, 0x80 ≤ u.val → PyJson.escapeUnit u = '\\' :: 'u' :: hex4 u.val :=
    fun u hu => if_neg (Nat.not_lt.mpr hu)
  by_cases hplane : c.toNat < 0x10000
  · have hunits : (CodePoint.ofChar c).units = [⟨c.toNat, hplane⟩] := dif_pos hplane
    rw [hunits, List.flatMap_singleton]
    by_cases hascii : c.toNat < 0x80
    · rw [PyJson.escapeUnit, if_pos hascii, Char.ofNat_toNat]
    · rw [hwide _ (Nat.le_of_not_lt hascii), escape_of_le (Nat.le_of_not_lt hascii), if_pos hplane]
  · have hval : ¬ (CodePoint.ofChar c).val < 0x10000 := hplane
    rw [CodePoint.units, dif_neg hval, List.flatMap_cons, List.flatMap_singleton,
      hwide _ (Nat.le_trans (by decide) (Nat.le_add_right 0xD800 _)),
      hwide _ (Nat.le_trans (by decide) (Nat.le_add_right 0xDC00 _)),
      escape_of_le (by omega), if_neg hplane]
    rfl

theorem quote_ofString (s : String) : PyJson.quote (PyStr.ofString s) = quote s := by
  have hunits : ∀ cs : List Char,
      (PyStr.units (cs.map CodePoint.ofChar)).flatMap PyJson.escapeUnit = cs.flatMap escape := by
    intro cs
    induction cs with
    | nil => rfl
    | cons c cs ih =>
      rw [List.map_cons, PyStr.units_cons, List.flatMap_append, escapeUnits_ofChar, ih,
        List.flatMap_cons]
  rw [PyJson.quote, PyJson.quoteUnits, quote, PyStr.ofString, hunits]

section Dump

variable [PyFloat F]

mutual
/-- **The canonical form of a value is the same on either side.** -/
theorem dump_toPy : ∀ (v : Json F) (lvl : Nat), PyJson.dump PyJson.quote v.toPy = dump .compact lvl v
  | .null, _ => by rw [toPy, PyJson.dump, dump]
  | .bool true, _ => by rw [toPy, PyJson.dump, dump]
  | .bool false, _ => by rw [toPy, PyJson.dump, dump]
  | .int _, _ => by rw [toPy, PyJson.dump, dump]
  | .float _, _ => by rw [toPy, PyJson.dump, dump]
  | .str s, _ => by rw [toPy, PyJson.dump, dump, quote_ofString]
  | .arr [], _ => by rw [toPy, toPyElems, PyJson.dump, dump]
  | .arr (x :: xs), lvl => by
    rw [toPy, toPyElems, PyJson.dump, dump, dump_toPy x (lvl + 1), dumpElems_toPy xs lvl]
    simp [Layout.brk]
  | .obj [], _ => by rw [toPy, toPyMembers, PyJson.dump, dump]
  | .obj ((k, v) :: kvs), lvl => by
    rw [toPy, toPyMembers, PyJson.dump, dump, quote_ofString, dump_toPy v (lvl + 1),
      dumpMembers_toPy kvs lvl]
    simp [Layout.brk, Layout.gap]

theorem dumpElems_toPy : ∀ (xs : List (Json F)) (lvl : Nat),
    PyJson.dumpElems PyJson.quote (toPyElems xs) = dumpElems .compact lvl xs ++ [']']
  | [], _ => by rw [toPyElems, PyJson.dumpElems, dumpElems, List.nil_append]
  | x :: xs, lvl => by
    rw [toPyElems, PyJson.dumpElems, dumpElems, dump_toPy x (lvl + 1), dumpElems_toPy xs lvl]
    simp [Layout.brk]

theorem dumpMembers_toPy : ∀ (kvs : List (String × Json F)) (lvl : Nat),
    PyJson.dumpMembers PyJson.quote (toPyMembers kvs) = dumpMembers .compact lvl kvs ++ ['}']
  | [], _ => by rw [toPyMembers, PyJson.dumpMembers, dumpMembers, List.nil_append]
  | (k, v) :: kvs, lvl => by
    rw [toPyMembers, PyJson.dumpMembers, dumpMembers, quote_ofString, dump_toPy v (lvl + 1),
      dumpMembers_toPy kvs lvl]
    simp [Layout.brk, Layout.gap]
end

theorem canonical_toPy (v : Json F) : v.toPy.canonical = v.canonical := dump_toPy v 0

end Dump

/-! ## 3. Where the machines stand -/

/-- The container, with its texts as code points. -/
def Frame.toPy : Frame F → PyJson.Frame F
  | .arr xs => .arr (toPyElems xs)
  | .member kvs k => .member (toPyMembers kvs) (PyStr.ofString k)

/-- The parser takes a value next, and hands it to the containers `st`. -/
def Expects (p : PyJson.Parser F) (st : List (PyJson.Frame F)) : Prop :=
  p = ⟨.value, st⟩ ∨ ∃ st', p = ⟨.arrOpen, st'⟩ ∧ st = .arr [] :: st'

/-- The parser takes a string next, for the slot. -/
def Slot.Takes (p : PyJson.Parser F) (st : List (PyJson.Frame F)) : Slot F → Prop
  | .value => Expects p st
  | .key done => p = ⟨.key (toPyMembers done), st⟩ ∨ p = ⟨.objOpen, st⟩ ∧ done = []

/-- What the lexer and the parser are in the middle of, when the machine is in a mode. -/
def Mode.Agrees (x : PyJson.LexMode F) (p : PyJson.Parser F) (st : List (PyJson.Frame F)) :
    Mode F → Prop
  | .value => x = .idle ∧ p = ⟨.value, st⟩
  | .arrOpen => x = .idle ∧ p = ⟨.arrOpen, st⟩
  | .objOpen => x = .idle ∧ p = ⟨.objOpen, st⟩
  | .key kvs => x = .idle ∧ p = ⟨.key (toPyMembers kvs), st⟩
  | .colon kvs k => x = .idle ∧ p = ⟨.colon (toPyMembers kvs) (PyStr.ofString k), st⟩
  | .afterElem xs => x = .idle ∧ p = ⟨.afterElem (toPyElems xs), st⟩
  | .afterMember kvs => x = .idle ∧ p = ⟨.afterMember (toPyMembers kvs), st⟩
  | .done v => x = .idle ∧ p = ⟨.done v.toPy, st⟩
  | .num cs ns => x = .num cs ns ∧ Expects p st
  | .word rest v => ∃ a, x = .word rest a ∧ a.value = v.toPy ∧ Expects p st
  | .text slot acc => x = .text (acc.map CodePoint.ofChar) ∧ slot.Takes p st
  | .esc slot acc => x = .esc (acc.map CodePoint.ofChar) ∧ slot.Takes p st
  | .uni slot acc hi count code =>
    x = .uni (acc.map CodePoint.ofChar) hi count code ∧ slot.Takes p st
  | .pair slot acc hi => x = .pair (acc.map CodePoint.ofChar) hi ∧ slot.Takes p st
  | .pairU slot acc hi => x = .pairU (acc.map CodePoint.ofChar) hi ∧ slot.Takes p st

/-- **The lexer and the parser stand where the machine does.** -/
def Together (m : Machine F) (x : PyJson.Lexer F) : Prop :=
  ∃ p, x.tokens.foldlM PyJson.Parser.step ⟨.value, []⟩ = some p ∧
    m.mode.Agrees x.mode p (m.stack.map Frame.toPy)

/-- One more token. -/
theorem reads_concat {ts : List (PyJson.Token F)} {p₀ p p' : PyJson.Parser F} {t : PyJson.Token F}
    (h : ts.foldlM PyJson.Parser.step p₀ = some p) (ht : p.step t = some p') :
    (ts ++ [t]).foldlM PyJson.Parser.step p₀ = some p' := by
  rw [List.foldlM_append, h, Option.bind_eq_bind, Option.bind_some, List.foldlM_cons, ht]
  rfl

theorem Expects.step {p : PyJson.Parser F} {st : List (PyJson.Frame F)} (h : Expects p st)
    {t : PyJson.Token F} (ht : t ≠ .punct ']') : p.step t = PyJson.startValue st t := by
  rcases h with rfl | ⟨st', rfl, rfl⟩
  · rfl
  · cases t with
    | punct c =>
      simp [PyJson.Parser.step]
    | text s => rfl
    | atom a => rfl

/-- A finished value is in the same place. -/
theorem agrees_finish (v : Json F) (st : List (Frame F)) :
    (finish v st).mode.Agrees .idle (PyJson.finish v.toPy (st.map Frame.toPy))
      ((finish v st).stack.map Frame.toPy) := by
  match st with
  | [] => exact ⟨rfl, rfl⟩
  | .arr xs :: st => exact ⟨rfl, by rw [toPyElems_append]; rfl⟩
  | .member kvs k :: st => exact ⟨rfl, by rw [toPyMembers_set]; rfl⟩

/-- So is a finished string. -/
theorem agrees_finishText {slot : Slot F} {st : List (Frame F)} {p : PyJson.Parser F}
    (h : slot.Takes p (st.map Frame.toPy)) (acc : List Char) :
    ∃ p', p.step (.text (acc.map CodePoint.ofChar)) = some p' ∧
      (finishText slot acc st).mode.Agrees .idle p' ((finishText slot acc st).stack.map Frame.toPy) := by
  have htext : acc.map CodePoint.ofChar = PyStr.ofString (String.ofList acc) := by
    rw [PyStr.ofString, String.toList_ofList]
  rw [htext]
  cases slot with
  | value => exact ⟨_, Expects.step h (by simp), agrees_finish (.str (String.ofList acc)) st⟩
  | key done =>
    rcases h with rfl | ⟨rfl, rfl⟩
    · exact ⟨_, rfl, rfl, rfl⟩
    · exact ⟨_, rfl, rfl, rfl⟩

section Step

variable [PyFloat F]

theorem start_ne {c d : Char} {ns : NumState} (h : NumState.start c = some ns)
    (hd : NumState.start d = none) : c ≠ d := by
  rintro rfl
  rw [hd] at h
  cases h

/-- Numbers are lexed where the machine reads them. -/
theorem stepIdle_num {c : Char} {ns : NumState} (h : NumState.start c = some ns)
    (ts : List (PyJson.Token F)) : PyJson.stepIdle ts c = some ⟨.num [c] ns, ts⟩ := by
  have hpunct : c ∉ ['{', '}', '[', ']', ',', ':'] := by
    simp [start_ne h (d := '{') rfl, start_ne h (d := '}') rfl, start_ne h (d := '[') rfl,
      start_ne h (d := ']') rfl, start_ne h (d := ',') rfl, start_ne h (d := ':') rfl]
  rw [PyJson.stepIdle, (not_ws_of_start h).1, if_neg (by simp), if_neg hpunct, if_neg (start_ne h rfl),
    if_neg (start_ne h rfl), if_neg (start_ne h rfl), if_neg (start_ne h rfl),
    if_neg (start_ne h rfl), if_neg (start_ne h rfl), h]
  rfl

/-- **The first character of a value.** -/
theorem together_startValue {ts : List (PyJson.Token F)} {p : PyJson.Parser F} {st : List (Frame F)}
    (hp : ts.foldlM PyJson.Parser.step ⟨.value, []⟩ = some p) (hst : Expects p (st.map Frame.toPy))
    {c : Char} {m' : Machine F} (h : startValue st c = some m') :
    ∃ x', PyJson.stepIdle ts c = some x' ∧ Together m' x' := by
  revert h
  unfold startValue
  refine of_ite_eq_some ?_ (of_ite_eq_some ?_ (of_ite_eq_some ?_ (of_ite_eq_some ?_
    (of_ite_eq_some ?_ (of_ite_eq_some ?_ (of_ite_eq_some ?_ (of_ite_eq_some ?_ ?_)))))))
  · rintro rfl rfl
    exact ⟨_, rfl, _, reads_concat hp (hst.step (by simp)), rfl, rfl⟩
  · rintro rfl rfl
    exact ⟨_, rfl, _, reads_concat hp (hst.step (by simp)), rfl, rfl⟩
  · rintro rfl rfl
    exact ⟨_, rfl, p, hp, rfl, hst⟩
  · rintro rfl rfl
    exact ⟨_, rfl, p, hp, .null, rfl, rfl, hst⟩
  · rintro rfl rfl
    exact ⟨_, rfl, p, hp, .bool true, rfl, rfl, hst⟩
  · rintro rfl rfl
    exact ⟨_, rfl, p, hp, .bool false, rfl, rfl, hst⟩
  · rintro rfl rfl
    exact ⟨_, rfl, p, hp, .float _, rfl, rfl, hst⟩
  · rintro rfl rfl
    exact ⟨_, rfl, p, hp, .float _, rfl, rfl, hst⟩
  · intro h
    obtain ⟨ns, hns, rfl⟩ := Option.map_eq_some_iff.mp h
    exact ⟨_, stepIdle_num hns ts, p, hp, rfl, hst⟩

theorem stepIdle_ws {c : Char} (h : isWs c = true) (ts : List (PyJson.Token F)) :
    PyJson.stepIdle ts c = some ⟨.idle, ts⟩ := if_pos h

/-- **A character after a finished value.** -/
theorem together_stepClosed {ts : List (PyJson.Token F)} {p : PyJson.Parser F} {m m' : Machine F}
    (hp : ts.foldlM PyJson.Parser.step ⟨.value, []⟩ = some p)
    (hm : m.mode.Agrees .idle p (m.stack.map Frame.toPy)) {c : Char} (h : stepClosed m c = some m') :
    ∃ x', PyJson.stepIdle ts c = some x' ∧ Together m' x' := by
  obtain ⟨mode, st⟩ := m
  unfold stepClosed at h
  by_cases hws : isWs c = true
  · rw [if_pos hws] at h
    cases h
    exact ⟨_, stepIdle_ws hws ts, p, hp, hm⟩
  · rw [if_neg hws] at h
    cases mode with
    | afterElem xs =>
      obtain ⟨-, rfl⟩ := hm
      simp only at h
      split_ifs at h with h1 h2
      · subst h1
        cases h
        exact ⟨_, rfl, _, reads_concat hp rfl, rfl, rfl⟩
      · subst h2
        cases h
        exact ⟨_, rfl, _, reads_concat hp rfl, agrees_finish (.arr xs) st⟩
    | afterMember kvs =>
      obtain ⟨-, rfl⟩ := hm
      simp only at h
      split_ifs at h with h1 h2
      · subst h1
        cases h
        exact ⟨_, rfl, _, reads_concat hp rfl, rfl, rfl⟩
      · subst h2
        cases h
        exact ⟨_, rfl, _, reads_concat hp rfl, agrees_finish (.obj kvs) st⟩
    | _ => cases h

omit [PyFloat F] in
/-- A string and its closing quote. -/
theorem together_quote {ts : List (PyJson.Token F)} {p : PyJson.Parser F} {slot : Slot F}
    {st : List (Frame F)} (hp : ts.foldlM PyJson.Parser.step ⟨.value, []⟩ = some p)
    (hslot : slot.Takes p (st.map Frame.toPy)) (acc : List Char) :
    Together (finishText slot acc st) ⟨.idle, ts ++ [.text (acc.map CodePoint.ofChar)]⟩ := by
  obtain ⟨p', hstep, hagrees⟩ := agrees_finishText hslot acc
  exact ⟨p', reads_concat hp hstep, hagrees⟩

omit [PyFloat F] in
theorem map_concat (acc : List Char) (c : Char) :
    (acc ++ [c]).map CodePoint.ofChar = acc.map CodePoint.ofChar ++ [CodePoint.ofChar c] := by
  rw [List.map_append, List.map_singleton]

omit [PyFloat F] in
/-- A completed `\u` escape. -/
theorem together_finishUni {ts : List (PyJson.Token F)} {p : PyJson.Parser F} {slot : Slot F}
    {st : List (Frame F)} (hp : ts.foldlM PyJson.Parser.step ⟨.value, []⟩ = some p)
    (hslot : slot.Takes p (st.map Frame.toPy)) {acc : List Char} {hi : Option Nat} {code : Nat}
    {m' : Machine F} (h : finishUni slot acc hi code st = some m') :
    Together m' (PyJson.finishUni ts (acc.map CodePoint.ofChar) hi code) := by
  cases hi with
  | none =>
    simp only [finishUni] at h
    split_ifs at h with hhigh
    · cases h
      rw [PyJson.finishUni, PyJson.finishUnit,
        if_pos (show CodePoint.IsHigh code from hhigh)]
      exact ⟨p, hp, rfl, hslot⟩
    · obtain ⟨c, hc, rfl⟩ := Option.map_eq_some_iff.mp h
      rw [PyJson.finishUni, PyJson.finishUnit,
        if_neg (show ¬ CodePoint.IsHigh code from hhigh), CodePoint.ofUnit,
        CodePoint.ofNat_mod_of_scalar hc, ← map_concat]
      exact ⟨p, hp, rfl, hslot⟩
  | some hi =>
    simp only [finishUni] at h
    split_ifs at h with hlow
    obtain ⟨c, hc, rfl⟩ := Option.map_eq_some_iff.mp h
    rw [PyJson.finishUni, if_pos (show CodePoint.IsLow code from hlow), CodePoint.ofPair,
      CodePoint.ofNat_mod_of_scalar hc, ← map_concat]
    exact ⟨p, hp, rfl, hslot⟩

theorem step_idle (ts : List (PyJson.Token F)) (c : Char) :
    PyJson.Lexer.step ⟨.idle, ts⟩ (CodePoint.ofChar c) = PyJson.stepIdle ts c := by
  rw [PyJson.Lexer.step, CodePoint.char_ofChar, Option.bind_some]

/-- The value of a number is that of its token. -/
theorem step_numToken {p : PyJson.Parser F} {st : List (Frame F)} (h : Expects p (st.map Frame.toPy))
    (text : List Char) (ns : NumState) : p.step (PyJson.numToken text ns) =
      some (PyJson.finish (numValue text ns).toPy (st.map Frame.toPy)) := by
  rw [h.step (by simp [PyJson.numToken]), PyJson.numToken, numValue]
  split <;> rfl

/-- The next character of a string. -/
theorem together_text {ts : List (PyJson.Token F)} {p : PyJson.Parser F} {slot : Slot F}
    {st : List (Frame F)} {acc : List Char}
    (hp : ts.foldlM PyJson.Parser.step ⟨.value, []⟩ = some p)
    (hslot : slot.Takes p (st.map Frame.toPy)) {c : Char} {m' : Machine F}
    (h : step ⟨.text slot acc, st⟩ c = some m') :
    ∃ x', PyJson.stepText ts (acc.map CodePoint.ofChar) (CodePoint.ofChar c) = some x' ∧
      Together m' x' := by
  simp only [step] at h
  simp only [PyJson.stepText, CodePoint.ofChar_inj, CodePoint.ofChar_lt]
  split_ifs at h ⊢
  · cases h
    exact ⟨_, rfl, together_quote hp hslot acc⟩
  · cases h
    exact ⟨_, rfl, p, hp, rfl, hslot⟩
  · cases h
    rw [← map_concat]
    exact ⟨_, rfl, p, hp, rfl, hslot⟩

/-- The character behind a backslash. -/
theorem together_esc {ts : List (PyJson.Token F)} {p : PyJson.Parser F} {slot : Slot F}
    {st : List (Frame F)} {acc : List Char}
    (hp : ts.foldlM PyJson.Parser.step ⟨.value, []⟩ = some p)
    (hslot : slot.Takes p (st.map Frame.toPy)) {c : Char} {m' : Machine F}
    (h : step ⟨.esc slot acc, st⟩ c = some m') :
    ∃ x', PyJson.stepEsc ts (acc.map CodePoint.ofChar) (CodePoint.ofChar c) = some x' ∧
      Together m' x' := by
  simp only [step] at h
  simp only [PyJson.stepEsc, CodePoint.ofChar_inj, CodePoint.char_ofChar, Option.bind_some]
  split_ifs at h ⊢
  · cases h
    exact ⟨_, rfl, p, hp, rfl, hslot⟩
  · obtain ⟨d, hd, rfl⟩ := Option.map_eq_some_iff.mp h
    rw [hd]
    exact ⟨_, rfl, p, hp, congrArg PyJson.LexMode.text (map_concat acc d).symm, hslot⟩

/-- The next character of a number, or the one behind it. -/
theorem together_num {ts : List (PyJson.Token F)} {p : PyJson.Parser F} {st : List (Frame F)}
    {text : List Char} {ns : NumState} (hp : ts.foldlM PyJson.Parser.step ⟨.value, []⟩ = some p)
    (hst : Expects p (st.map Frame.toPy)) {c : Char} {m' : Machine F}
    (h : step ⟨.num text ns, st⟩ c = some m') :
    ∃ x', PyJson.Lexer.step ⟨.num text ns, ts⟩ (CodePoint.ofChar c) = some x' ∧ Together m' x' := by
  simp only [step] at h
  simp only [PyJson.Lexer.step, CodePoint.char_ofChar, Option.bind_some]
  cases hnext : ns.next c with
  | some ns' =>
    rw [hnext] at h
    cases h
    exact ⟨_, rfl, p, hp, rfl, hst⟩
  | none =>
    rw [hnext] at h
    simp only at h ⊢
    split_ifs at h ⊢
    · cases h
      exact ⟨_, rfl, p, hp, .float _, rfl, rfl, hst⟩
    · exact together_stepClosed (reads_concat hp (step_numToken hst text ns))
        (agrees_finish (numValue text ns) st) h

/-- A letter of a word. -/
theorem together_word {ts : List (PyJson.Token F)} {p : PyJson.Parser F} {st : List (Frame F)}
    (hp : ts.foldlM PyJson.Parser.step ⟨.value, []⟩ = some p) {a : PyJson.Atom F} {v : Json F}
    (hv : a.value = v.toPy) (hst : Expects p (st.map Frame.toPy)) {rest : List Char} {c : Char}
    {m' : Machine F} (hm : Json.step ⟨.word rest v, st⟩ c = some m') :
    ∃ x', (⟨.word rest a, ts⟩ : PyJson.Lexer F).step (CodePoint.ofChar c) = some x' ∧
      Together m' x' := by
  cases rest with
  | nil => cases hm
  | cons r rs =>
    simp only [Json.step] at hm
    simp only [PyJson.Lexer.step, CodePoint.ofChar_inj]
    split_ifs at hm ⊢
    · cases hm
      refine ⟨_, rfl, _, reads_concat hp (hst.step (by simp)), ?_⟩
      have hagrees := agrees_finish v st
      rwa [← hv] at hagrees
    · cases hm
      exact ⟨_, rfl, p, hp, a, rfl, hv, hst⟩

/-- A digit of a `\u` escape. -/
theorem together_uni {ts : List (PyJson.Token F)} {p : PyJson.Parser F} {slot : Slot F}
    {st : List (Frame F)} (hp : ts.foldlM PyJson.Parser.step ⟨.value, []⟩ = some p)
    (hslot : slot.Takes p (st.map Frame.toPy)) {acc : List Char} {hi : Option Nat}
    {count code : Nat} {c : Char} {m' : Machine F}
    (hm : Json.step ⟨.uni slot acc hi count code, st⟩ c = some m') :
    ∃ x', (⟨.uni (acc.map CodePoint.ofChar) hi count code, ts⟩ : PyJson.Lexer F).step
      (CodePoint.ofChar c) = some x' ∧ Together m' x' := by
  simp only [Json.step] at hm
  obtain ⟨d, hd, hm⟩ := Option.bind_eq_some_iff.mp hm
  simp only [PyJson.Lexer.step, CodePoint.char_ofChar, Option.bind_some, hd, Option.map_some]
  split_ifs at hm ⊢
  · exact ⟨_, rfl, together_finishUni hp hslot hm⟩
  · cases hm
    exact ⟨_, rfl, p, hp, rfl, hslot⟩

/-- **Every character keeps them together.** -/
theorem Together.step {m m' : Machine F} {x : PyJson.Lexer F} (h : Together m x) {c : Char}
    (hm : Json.step m c = some m') : ∃ x', x.step (CodePoint.ofChar c) = some x' ∧ Together m' x' := by
  obtain ⟨mode, st⟩ := m
  obtain ⟨xmode, ts⟩ := x
  obtain ⟨p, hp, h⟩ := h
  -- between two tokens a space changes nothing, wherever the machine stands
  have hspace : ∀ {mode : Mode F}, mode.Agrees .idle p (st.map Frame.toPy) → isWs c = true →
      ∃ x', PyJson.stepIdle ts c = some x' ∧ Together ⟨mode, st⟩ x' :=
    fun hagrees hws => ⟨_, stepIdle_ws hws ts, p, hp, hagrees⟩
  cases mode with
  | value =>
    obtain ⟨rfl, rfl⟩ := h
    rw [step_idle]
    simp only [Json.step] at hm
    split_ifs at hm with hws
    · cases hm
      exact hspace ⟨rfl, rfl⟩ hws
    · exact together_startValue hp (Or.inl rfl) hm
  | arrOpen =>
    obtain ⟨rfl, rfl⟩ := h
    rw [step_idle]
    simp only [Json.step] at hm
    split_ifs at hm with hws hclose
    · cases hm
      exact hspace ⟨rfl, rfl⟩ hws
    · subst hclose
      cases hm
      exact ⟨_, rfl, _, reads_concat hp rfl, agrees_finish (.arr []) st⟩
    · exact together_startValue hp (Or.inr ⟨_, rfl, rfl⟩) hm
  | objOpen =>
    obtain ⟨rfl, rfl⟩ := h
    rw [step_idle]
    simp only [Json.step] at hm
    split_ifs at hm with hws hclose hquote
    · cases hm
      exact hspace ⟨rfl, rfl⟩ hws
    · subst hclose
      cases hm
      exact ⟨_, rfl, _, reads_concat hp rfl, agrees_finish (.obj []) st⟩
    · subst hquote
      cases hm
      exact ⟨_, rfl, _, hp, rfl, Or.inr ⟨rfl, rfl⟩⟩
  | key kvs =>
    obtain ⟨rfl, rfl⟩ := h
    rw [step_idle]
    simp only [Json.step] at hm
    split_ifs at hm with hws hquote
    · cases hm
      exact hspace ⟨rfl, rfl⟩ hws
    · subst hquote
      cases hm
      exact ⟨_, rfl, _, hp, rfl, Or.inl rfl⟩
  | colon kvs k =>
    obtain ⟨rfl, rfl⟩ := h
    rw [step_idle]
    simp only [Json.step] at hm
    split_ifs at hm with hws hcolon
    · cases hm
      exact hspace ⟨rfl, rfl⟩ hws
    · subst hcolon
      cases hm
      exact ⟨_, rfl, _, reads_concat hp rfl, rfl, rfl⟩
  | afterElem xs =>
    obtain ⟨rfl, rfl⟩ := h
    rw [step_idle]
    exact together_stepClosed (m := ⟨.afterElem xs, st⟩) hp ⟨rfl, rfl⟩ hm
  | afterMember kvs =>
    obtain ⟨rfl, rfl⟩ := h
    rw [step_idle]
    exact together_stepClosed (m := ⟨.afterMember kvs, st⟩) hp ⟨rfl, rfl⟩ hm
  | done v =>
    obtain ⟨rfl, rfl⟩ := h
    rw [step_idle]
    exact together_stepClosed (m := ⟨.done v, st⟩) hp ⟨rfl, rfl⟩ hm
  | num text ns =>
    obtain ⟨rfl, hst⟩ := h
    exact together_num hp hst hm
  | word rest v =>
    obtain ⟨a, rfl, hv, hst⟩ := h
    exact together_word hp hv hst hm
  | text slot acc =>
    obtain ⟨rfl, hslot⟩ := h
    exact together_text hp hslot hm
  | esc slot acc =>
    obtain ⟨rfl, hslot⟩ := h
    exact together_esc hp hslot hm
  | uni slot acc hi count code =>
    obtain ⟨rfl, hslot⟩ := h
    exact together_uni hp hslot hm
  | pair slot acc hi =>
    obtain ⟨rfl, hslot⟩ := h
    simp only [Json.step] at hm
    simp only [PyJson.Lexer.step, CodePoint.ofChar_inj]
    split_ifs at hm ⊢
    cases hm
    exact ⟨_, rfl, p, hp, rfl, hslot⟩
  | pairU slot acc hi =>
    obtain ⟨rfl, hslot⟩ := h
    simp only [Json.step] at hm
    simp only [PyJson.Lexer.step, CodePoint.ofChar_inj]
    split_ifs at hm ⊢
    cases hm
    exact ⟨_, rfl, p, hp, rfl, hslot⟩

/-- So does a text. -/
theorem Together.run : ∀ {cs : List Char} {m m' : Machine F} {x : PyJson.Lexer F}, Together m x →
    Json.run m cs = some m' →
      ∃ x', (cs.map CodePoint.ofChar).foldlM PyJson.Lexer.step x = some x' ∧ Together m' x'
  | [], m, m', x, h, hm => by
    cases hm
    exact ⟨x, rfl, h⟩
  | c :: cs, m, m', x, h, hm => by
    obtain ⟨m₁, hm₁, hm⟩ := Option.bind_eq_some_iff.mp hm
    obtain ⟨x₁, hx₁, h₁⟩ := h.step hm₁
    obtain ⟨x', hx', h'⟩ := h₁.run hm
    refine ⟨x', ?_, h'⟩
    rw [List.map_cons, List.foldlM_cons, hx₁]
    exact hx'

/-- **Where the machine would end, the lexer and the parser end**, with the same value or none. -/
theorem Together.final {m : Machine F} {x : PyJson.Lexer F} (h : Together m x) :
    x.final.bind PyJson.parse = (Json.final m).map toPy := by
  obtain ⟨mode, st⟩ := m
  obtain ⟨xmode, ts⟩ := x
  obtain ⟨p, hp, h⟩ := h
  have hidle : ∀ {p' : PyJson.Parser F}, p = p' → PyJson.parse ts = p'.final := by
    rintro p' rfl
    rw [PyJson.parse, hp]
    rfl
  cases mode with
  | value | arrOpen | objOpen | key _ | colon _ _ | afterElem _ | afterMember _ =>
    obtain ⟨rfl, rfl⟩ := h
    exact hidle rfl
  | done v =>
    obtain ⟨rfl, rfl⟩ := h
    cases st with
    | nil => exact hidle rfl
    | cons f st => exact hidle rfl
  | num text ns =>
    obtain ⟨rfl, hst⟩ := h
    have hread := reads_concat hp (step_numToken hst text ns)
    have hfinal : Json.final (⟨.num text ns, []⟩ : Machine F) =
        if ns.accepts then some (numValue text ns) else none := rfl
    simp only [PyJson.Lexer.final]
    by_cases haccepts : ns.accepts = true
    · rw [if_pos haccepts, Option.bind_some, PyJson.parse, hread]
      cases st with
      | nil => rw [hfinal, if_pos haccepts]; rfl
      | cons f st => cases f <;> rfl
    · rw [if_neg haccepts]
      cases st with
      | nil => rw [hfinal, if_neg haccepts]; rfl
      | cons f st => rfl
  | word rest v =>
    obtain ⟨a, rfl, -, -⟩ := h
    rfl
  | text _ _ | esc _ _ | uni _ _ _ _ _ | pair _ _ _ | pairU _ _ _ =>
    obtain ⟨rfl, -⟩ := h
    rfl

end Step

/-! ## 4. Texts -/

section Texts

variable [PyFloat F]

/-- **As long as the machine runs, the two readers agree.** -/
theorem loadsText_of_run {cs : List Char} {m : Machine F} (h : run ⟨.value, []⟩ cs = some m) :
    PyJson.loadsText .off (cs.map CodePoint.ofChar) = (final m).map toPy := by
  have hstart : Together (⟨.value, []⟩ : Machine F) ⟨.idle, []⟩ := ⟨_, rfl, rfl, rfl⟩
  obtain ⟨x, hx, htogether⟩ := hstart.run h
  rw [PyJson.loadsText_off, PyJson.lex, hx, Option.bind_some, htogether.final]

/-- **What one reader reads, the other reads** as the same value. -/
theorem loadsText_toPy {cs : List Char} {v : Json F} (h : loadsText cs = some v) :
    PyJson.loadsText .off (cs.map CodePoint.ofChar) = some v.toPy := by
  obtain ⟨m, hm, hv⟩ := Option.bind_eq_some_iff.mp h
  rw [loadsText_of_run hm, hv, Option.map_some]

/-- There is a token behind these, or one has begun. -/
def Busy (ts : List (PyJson.Token F)) (x : PyJson.Lexer F) : Prop :=
  ∃ more, x.tokens = ts ++ more ∧ (more = [] → x.mode ≠ .idle)

omit [PyFloat F] in
theorem Busy.of_append {ts more : List (PyJson.Token F)} {x : PyJson.Lexer F}
    (h : Busy (ts ++ more) x) : Busy ts x := by
  obtain ⟨rest, htokens, hmode⟩ := h
  exact ⟨more ++ rest, by rw [htokens, List.append_assoc],
    fun hnil => hmode (List.append_eq_nil_iff.mp hnil).2⟩

omit [PyFloat F] in
theorem busy_of_mode {ts : List (PyJson.Token F)} {mode : PyJson.LexMode F} (h : mode ≠ .idle) :
    Busy ts ⟨mode, ts⟩ := ⟨[], (List.append_nil ts).symm, fun _ => h⟩

omit [PyFloat F] in
theorem busy_concat (ts : List (PyJson.Token F)) (t : PyJson.Token F) (mode : PyJson.LexMode F) :
    Busy ts ⟨mode, ts ++ [t]⟩ := ⟨[t], rfl, fun h => absurd h (List.cons_ne_nil _ _)⟩

/-- Between two tokens, anything but a space begins one. -/
theorem busy_stepIdle {ts : List (PyJson.Token F)} {c : Char} {x : PyJson.Lexer F}
    (h : PyJson.stepIdle ts c = some x) : x = ⟨.idle, ts⟩ ∧ isWs c = true ∨ Busy ts x := by
  revert h
  unfold PyJson.stepIdle
  refine of_ite_eq_some (fun hws hx => Or.inl ⟨hx.symm, hws⟩) ?_
  refine of_ite_eq_some (fun _ hx => hx ▸ Or.inr (busy_concat _ _ _)) ?_
  -- any other character that may stand here begins a token
  iterate 6 refine of_ite_eq_some (fun _ hx => hx ▸ Or.inr (busy_of_mode (by simp))) ?_
  intro h
  obtain ⟨ns, -, rfl⟩ := Option.map_eq_some_iff.mp h
  exact Or.inr (busy_of_mode (by simp))

/-- Behind a token, whatever comes next. -/
theorem busy_stepIdle_of_ne {ts more : List (PyJson.Token F)} (hmore : more ≠ []) {c : Char}
    {x : PyJson.Lexer F} (h : PyJson.stepIdle (ts ++ more) c = some x) : Busy ts x := by
  rcases busy_stepIdle h with ⟨rfl, -⟩ | hbusy
  · exact ⟨more, rfl, fun hnil => absurd hnil hmore⟩
  · exact hbusy.of_append

omit [PyFloat F] in
theorem busy_stepText {ts : List (PyJson.Token F)} {acc : PyStr} {c : CodePoint}
    {x : PyJson.Lexer F} (h : PyJson.stepText ts acc c = some x) : Busy ts x := by
  unfold PyJson.stepText at h
  split_ifs at h
  · cases h
    exact busy_concat _ _ _
  · cases h
    exact busy_of_mode (by simp)
  · cases h
    exact busy_of_mode (by simp)

omit [PyFloat F] in
theorem busy_stepEsc {ts : List (PyJson.Token F)} {acc : PyStr} {c : CodePoint}
    {x : PyJson.Lexer F} (h : PyJson.stepEsc ts acc c = some x) : Busy ts x := by
  unfold PyJson.stepEsc at h
  split_ifs at h
  · cases h
    exact busy_of_mode (by simp)
  · obtain ⟨d, -, rfl⟩ := Option.map_eq_some_iff.mp h
    exact busy_of_mode (by simp)

omit [PyFloat F] in
theorem busy_finishUni (ts : List (PyJson.Token F)) (acc : PyStr) (hi : Option Nat) (code : Nat) :
    Busy ts (PyJson.finishUni ts acc hi code) := by
  have hunit : ∀ acc, Busy ts (PyJson.finishUnit ts acc code) := by
    intro acc
    unfold PyJson.finishUnit
    split
    · exact busy_of_mode (by simp)
    · exact busy_of_mode (by simp)
  cases hi with
  | none => exact hunit acc
  | some hi =>
    rw [PyJson.finishUni]
    split
    · exact busy_of_mode (by simp)
    · exact hunit _

/-- **A token that has begun is not taken back.** -/
theorem Busy.step {ts : List (PyJson.Token F)} {x x' : PyJson.Lexer F} (h : Busy ts x)
    {c : CodePoint} (hx : x.step c = some x') : Busy ts x' := by
  obtain ⟨mode, tokens⟩ := x
  obtain ⟨more, rfl, hmode⟩ := h
  suffices hsuff : mode = .idle ∨ Busy (ts ++ more) x' by
    rcases hsuff with rfl | hbusy
    · -- between two tokens the one that had begun is complete
      obtain ⟨d, -, hd⟩ := Option.bind_eq_some_iff.mp hx
      exact busy_stepIdle_of_ne (fun hnil => hmode hnil rfl) hd
    · exact hbusy.of_append
  cases mode with
  | idle => exact Or.inl rfl
  | num text ns =>
    refine Or.inr ?_
    obtain ⟨d, -, hd⟩ := Option.bind_eq_some_iff.mp hx
    cases hnext : ns.next d with
    | some ns' =>
      rw [hnext] at hd
      cases hd
      exact busy_of_mode (by simp)
    | none =>
      rw [hnext] at hd
      simp only at hd
      split_ifs at hd
      · cases hd
        exact busy_of_mode (by simp)
      · exact busy_stepIdle_of_ne (List.cons_ne_nil _ _) hd
  | word rest a =>
    refine Or.inr ?_
    cases rest with
    | nil => cases hx
    | cons r rs =>
      simp only [PyJson.Lexer.step] at hx
      split_ifs at hx
      · cases hx
        exact busy_concat _ _ _
      · cases hx
        exact busy_of_mode (by simp)
  | text acc => exact Or.inr (busy_stepText hx)
  | esc acc => exact Or.inr (busy_stepEsc hx)
  | uni acc hi count code =>
    refine Or.inr ?_
    obtain ⟨d, -, rfl⟩ := Option.map_eq_some_iff.mp hx
    split
    · exact busy_finishUni _ _ _ _
    · exact busy_of_mode (by simp)
  | pair acc hi =>
    refine Or.inr ?_
    simp only [PyJson.Lexer.step] at hx
    split_ifs at hx
    · cases hx
      exact busy_of_mode (by simp)
    · exact busy_stepText hx
  | pairU acc hi =>
    refine Or.inr ?_
    simp only [PyJson.Lexer.step] at hx
    split_ifs at hx
    · cases hx
      exact busy_of_mode (by simp)
    · exact busy_stepEsc hx

theorem Busy.run {ts : List (PyJson.Token F)} : ∀ {s : PyStr} {x x' : PyJson.Lexer F}, Busy ts x →
    s.foldlM PyJson.Lexer.step x = some x' → Busy ts x'
  | [], x, x', h, hx => by
    cases hx
    exact h
  | c :: s, x, x', h, hx => by
    obtain ⟨x₁, hx₁, hx⟩ := Option.bind_eq_some_iff.mp hx
    exact (h.step hx₁).run hx

/-- At the end of the input it is there. -/
theorem Busy.final {ts ts' : List (PyJson.Token F)} {x : PyJson.Lexer F} (h : Busy ts x)
    (hx : x.final = some ts') : ∃ t more, ts' = ts ++ t :: more := by
  obtain ⟨mode, tokens⟩ := x
  obtain ⟨more, rfl, hmode⟩ := h
  cases mode with
  | idle =>
    cases hx
    obtain ⟨t, more, rfl⟩ := List.exists_cons_of_ne_nil fun hnil => hmode hnil rfl
    exact ⟨t, more, rfl⟩
  | num text ns =>
    simp only [PyJson.Lexer.final] at hx
    split_ifs at hx
    cases hx
    cases more with
    | nil => exact ⟨_, [], by rw [List.append_nil]⟩
    | cons t more => exact ⟨t, more ++ [_], by rw [List.append_assoc, List.cons_append]⟩
  | _ => cases hx

/-- **Behind a finished value there are only spaces**, for the other reader too. -/
theorem loadsText_done_append {cs : List Char} {v : Json F}
    (h : run ⟨.value, []⟩ cs = some ⟨.done v, []⟩) {c : Char} (hc : isWs c = false) (s : PyStr) :
    (PyJson.loadsText .off (cs.map CodePoint.ofChar ++ CodePoint.ofChar c :: s) :
      Option (PyJson F PyStr)) = none := by
  have hstart : Together (⟨.value, []⟩ : Machine F) ⟨.idle, []⟩ := ⟨_, rfl, rfl, rfl⟩
  obtain ⟨⟨mode, ts⟩, hx, p, hp, rfl, rfl⟩ := hstart.run h
  rw [PyJson.loadsText_off, Option.eq_none_iff_forall_not_mem]
  intro w hw
  obtain ⟨ts', hlex, hparse⟩ := Option.bind_eq_some_iff.mp hw
  obtain ⟨x', hrun, hfinal⟩ := Option.bind_eq_some_iff.mp hlex
  rw [List.foldlM_append, hx, Option.bind_eq_bind, Option.bind_some, List.foldlM_cons] at hrun
  obtain ⟨x₁, hx₁, hrun⟩ := Option.bind_eq_some_iff.mp hrun
  rw [step_idle] at hx₁
  have hbusy : Busy ts x₁ := (busy_stepIdle hx₁).resolve_left fun hspace => by
    rw [hc] at hspace
    cases hspace.2
  obtain ⟨t, more, rfl⟩ := (hbusy.run hrun).final hfinal
  -- the parser takes no token behind a finished value
  rw [PyJson.parse, List.foldlM_append, hp] at hparse
  cases hparse

/-! ## 5. Bytes -/

/-- **What `Json.loads` reads, `PyJson.loads` reads** as the same value. -/
theorem loads_toPy {bs : Bytes} {v : Json F} (h : loads bs = some v) :
    PyJson.loads .off bs = some v.toPy := by
  obtain ⟨cs, hcs, hv⟩ := Option.bind_eq_some_iff.mp h
  exact Option.bind_eq_some_iff.mpr ⟨_, PyStr.decode_of_decodeText hcs, loadsText_toPy hv⟩

theorem loads_ascii {cs : List Char} (h : ∀ c ∈ cs, IsAscii c) :
    PyJson.loads .off (utf8 cs) = (PyJson.loadsText .off (cs.map CodePoint.ofChar) :
      Option (PyJson F PyStr)) := by
  rw [PyJson.loads, PyStr.decode_of_decodeText (decodeText_utf8 h), Option.bind_some]

/-- The machine on an object's dump. -/
theorem run_dump_obj (ly : Layout) {kvs : List (String × Json F)} (hwf : (Json.obj kvs).Wf) :
    run ⟨.value, []⟩ (dump ly 0 (Json.obj kvs)) = some (⟨.done (.obj kvs), []⟩ : Machine F) := by
  obtain ⟨t, ht, hrun, -⟩ := run_obj ly hwf
  rw [ht, run_cons]
  exact hrun

/-- A strict byte prefix of an object's dump does not read. -/
theorem pyLoads_take_obj (ly : Layout) {kvs : List (String × Json F)} (hwf : (Json.obj kvs).Wf)
    {k : Nat} (hk : k < (utf8 (dump ly 0 (Json.obj kvs))).length) :
    (PyJson.loads .off ((utf8 (dump ly 0 (Json.obj kvs))).take k) : Option (PyJson F PyStr)) = none := by
  have hascii := dump_ascii ly (Json.obj kvs)
  rw [length_utf8 hascii] at hk
  rw [take_utf8 hascii, loads_ascii fun c hc => hascii c (List.mem_of_mem_take hc)]
  have hnone := loadsText_take_obj ly hwf hk
  have hrun := run_dump_obj ly hwf
  rw [← List.take_append_drop k (dump ly 0 (Json.obj kvs)), run_append] at hrun
  obtain ⟨m, hm, -⟩ := Option.bind_eq_some_iff.mp hrun
  rw [loadsText, hm, Option.bind_some] at hnone
  rw [loadsText_of_run hm, hnone, Option.map_none]

/-- Two objects on one line do not read. -/
theorem pyLoads_obj_append_obj (ly : Layout) {kvs lvs : List (String × Json F)}
    (hwf : (Json.obj kvs).Wf) :
    (PyJson.loads .off (utf8 (dump ly 0 (Json.obj kvs)) ++
      (utf8 (dump ly 0 (Json.obj lvs)) ++ [newline])) : Option (PyJson F PyStr)) = none := by
  obtain ⟨t, ht⟩ : ∃ t, dump ly 0 (Json.obj lvs) = '{' :: t := by
    match lvs with
    | [] => exact ⟨_, by rw [dump]⟩
    | (k, v) :: lvs => exact ⟨_, by rw [dump]⟩
  have hnl : utf8 (dump ly 0 (Json.obj kvs)) ++ (utf8 (dump ly 0 (Json.obj lvs)) ++ [newline]) =
      utf8 (dump ly 0 (Json.obj kvs) ++ (dump ly 0 (Json.obj lvs) ++ ['\n'])) := by
    rw [utf8_append, utf8_append]; rfl
  rw [hnl, loads_ascii]
  · rw [ht, List.cons_append, List.map_append, List.map_cons]
    exact loadsText_done_append (run_dump_obj ly hwf) rfl _
  · intro c hc
    rcases List.mem_append.mp hc with hc | hc
    · exact dump_ascii ly _ c hc
    · rcases List.mem_append.mp hc with hc | hc
      · exact dump_ascii ly _ c hc
      · rw [List.mem_singleton.mp hc]; constructor <;> decide

end Texts


end Json

end Lib
