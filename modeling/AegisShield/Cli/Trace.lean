/-
# Trace files (`core/tracegen.py`, and the reader in `cli/main.py`, `replay`)

`aegis generate-trace` writes a trace as one JSON object a line, payloads in Base64, and
`aegis replay` reads the lines back in text mode.  What was written is read (`readTrace_writeTrace`),
and a generated trace fits every device of its geometry (`syntheticTrace_fits`).

The bytes that the seeded generator draws in a round are a parameter.  The counts are natural
numbers.
-/
import AegisShield.Journal.Canonical
import AegisShield.Lib.Strip

namespace AegisShield.Cli

open Lib

/-! ## 1. Generating -/

/-- A line of a trace. -/
inductive TraceEvent
  | read (lba blocks : Int)
  | write (lba blocks : Int) (payload : Bytes)
  deriving DecidableEq, Repr

/-- The patterns of `synthetic_trace`. -/
inductive TracePattern
  | sequentialText
  | highEntropyAppend
  | broadOverwrite
  | lowAndSlow
  deriving DecidableEq, Repr

/-- The pattern of a name. -/
def TracePattern.ofName : String → Option TracePattern
  | "sequential_text" => some .sequentialText
  | "high_entropy_append" => some .highEntropyAppend
  | "broad_overwrite" => some .broadOverwrite
  | "low_and_slow" => some .lowAndSlow
  | _ => none

/-- The exceptions of `synthetic_trace`. -/
inductive TraceError
  | valueError (message : String)
  | zeroDivisionError
  deriving DecidableEq, Repr

/-- `f"record-{index:08d}|"`. -/
def recordText (index : Nat) : List Char :=
  let digits := natText index
  "record-".toList ++ List.replicate (8 - digits.length) '0' ++ digits ++ ['|']

namespace TracePattern

variable (p : TracePattern) (blocks blockSize operations : Nat) (random : Bytes) (index : Nat)

/-- `lba`. -/
def lba : Nat :=
  match p with
  | .sequentialText | .highEntropyAppend => index % blocks
  | .broadOverwrite => (index * 7919) % blocks
  | .lowAndSlow => (index * max 1 (blocks / max 1 operations)) % blocks

/-- `payload`. -/
def payload : Bytes :=
  match p with
  | .sequentialText =>
    (utf8 (List.replicate (blockSize / 16 + 1) (recordText index)).flatten).take blockSize
  | .highEntropyAppend | .broadOverwrite => random
  | .lowAndSlow =>
    if index % 4 = 0 then random else List.replicate blockSize (UInt8.ofNat (index % 251))

/-- What a round of the loop appends. -/
def round : List TraceEvent :=
  let lba := p.lba blocks operations index
  let write : TraceEvent := .write lba 1 (p.payload blockSize random index)
  if p = .broadOverwrite then [.read lba 1, write] else [write]

end TracePattern

/-- `synthetic_trace`. -/
def syntheticTrace (randbytes : Nat → Bytes) (pattern : String) (blocks blockSize operations : Nat) :
    Except TraceError (List TraceEvent) :=
  match TracePattern.ofName pattern with
  | none => .error (.valueError "unknown synthetic pattern")
  | some p =>
    if blocks = 0 ∧ operations ≠ 0 then .error .zeroDivisionError
    else .ok ((List.range operations).flatMap fun index =>
      p.round blocks blockSize operations (randbytes index) index)

/-! ## 2. Generated traces fit -/

/-- The event is within the namespace, in whole blocks. -/
inductive TraceEvent.Fits (md : Metadata) : TraceEvent → Prop
  | read (lba n : Nat) (hn : 1 ≤ n) (hrange : lba + n ≤ md.blocks) : Fits md (.read lba n)
  | write (w : Write md) (blocks : Int) : Fits md (.write w.start blocks w.data)

theorem TracePattern.lba_lt (p : TracePattern) {blocks : Nat} (h : 0 < blocks)
    (operations index : Nat) : p.lba blocks operations index < blocks := by
  cases p with
  | sequentialText => exact Nat.mod_lt index h
  | highEntropyAppend => exact Nat.mod_lt index h
  | broadOverwrite => exact Nat.mod_lt (index * 7919) h
  | lowAndSlow => exact Nat.mod_lt (index * max 1 (blocks / max 1 operations)) h

/-- A character takes at least one byte. -/
theorem length_le_utf8 : ∀ cs : List Char, cs.length ≤ (utf8 cs).length
  | [] => Nat.le_refl 0
  | c :: cs => by
    have ih := length_le_utf8 cs
    have hc : 0 < (String.utf8EncodeChar c).length := by
      rw [String.length_utf8EncodeChar]
      exact c.utf8Size_pos
    rw [utf8, List.flatMap_cons, List.length_append, ← utf8, List.length_cons]
    omega

theorem length_recordText (index : Nat) : 16 ≤ (recordText index).length := by
  have hname : "record-".toList.length = 7 := rfl
  have hlength : (recordText index).length =
      7 + (8 - (natText index).length) + (natText index).length + 1 := by
    unfold recordText
    dsimp only
    rw [List.length_append, List.length_append, List.length_append, List.length_replicate, hname,
      List.length_singleton]
  rw [hlength]
  omega

/-- Every payload is one block. -/
theorem TracePattern.length_payload (p : TracePattern) (blockSize index : Nat) {random : Bytes}
    (h : random.length = blockSize) : (p.payload blockSize random index).length = blockSize := by
  cases p with
  | sequentialText =>
    have hlength : blockSize ≤
        (utf8 (List.replicate (blockSize / 16 + 1) (recordText index)).flatten).length := by
      have htext : (blockSize / 16 + 1) * 16 ≤
          (List.replicate (blockSize / 16 + 1) (recordText index)).flatten.length := by
        rw [List.length_flatten, List.map_replicate, List.sum_replicate_nat]
        exact Nat.mul_le_mul_left _ (length_recordText index)
      have hbytes :=
        length_le_utf8 (List.replicate (blockSize / 16 + 1) (recordText index)).flatten
      omega
    exact (List.length_take_of_le hlength)
  | highEntropyAppend => exact h
  | broadOverwrite => exact h
  | lowAndSlow =>
    unfold TracePattern.payload
    dsimp only
    split
    · exact h
    · exact List.length_replicate

/-- **A generated trace fits** every device of its geometry. -/
theorem syntheticTrace_fits {md : Metadata} (hsize : 0 < md.blockSize) {randbytes : Nat → Bytes}
    (hrandom : ∀ i, (randbytes i).length = md.blockSize) {pattern : String} {operations : Nat}
    {events : List TraceEvent}
    (h : syntheticTrace randbytes pattern md.blocks md.blockSize operations = .ok events) :
    ∀ e ∈ events, e.Fits md := by
  unfold syntheticTrace at h
  split at h
  · cases h
  rename_i p hp
  split at h
  · cases h
  rename_i hblocks
  obtain rfl := Except.ok.inj h
  intro e he
  obtain ⟨index, hindex, he⟩ := List.mem_flatMap.mp he
  have hpos : 0 < md.blocks := by
    have := List.mem_range.mp hindex
    omega
  have hlba := p.lba_lt hpos operations index
  have hlength := p.length_payload md.blockSize index (hrandom index)
  let w : Write md :=
    { start := p.lba md.blocks operations index
      data := p.payload md.blockSize (randbytes index) index
      nonempty := List.ne_nil_of_length_pos (by rw [hlength]; exact hsize)
      aligned := by rw [hlength, Nat.mod_self]
      inRange := by
        rw [hlength, Nat.div_self hsize]
        exact hlba }
  have hwrite : (TraceEvent.write w.start 1 w.data).Fits md := .write w 1
  unfold TracePattern.round at he
  dsimp only at he
  split at he
  · rcases List.mem_cons.mp he with rfl | he
    · exact .read _ 1 (Nat.le_refl 1) hlba
    · rw [List.mem_singleton.mp he]
      exact hwrite
  · rw [List.mem_singleton.mp he]
    exact hwrite

/-! ## 3. Files -/

section Files

variable (R : Runtime)

/-- The `dict` of an event. -/
def TraceEvent.toDict : TraceEvent → R.Value
  | .read lba blocks => .obj [("blocks", .int blocks), ("kind", .str "read"), ("lba", .int lba)]
  | .write lba blocks payload => .obj [("blocks", .int blocks), ("kind", .str "write"),
      ("lba", .int lba), ("payload_b64", .str (String.ofList (b64encode payload)))]

/-- The text `write_trace` writes. -/
def traceText (events : List TraceEvent) : List Char :=
  events.flatMap fun e => (e.toDict R).canonical ++ ['\n']

/-- `write_trace`. -/
def writeTrace (events : List TraceEvent) : Bytes := utf8 (traceText R events)

/-- The lines of a text file, without their ends.  Python reads `"\r\n"` as one end; here it makes
an empty line, which is skipped like any other. -/
def textLines : List Char → List (List Char)
  | [] => [[]]
  | c :: cs =>
    if c = '\n' ∨ c = '\r' then [] :: textLines cs
    else match textLines cs with
      | [] => [[c]]
      | line :: lines => (c :: line) :: lines

/-- `json.loads` on a `str`. -/
def loadsStr (cs : List Char) : Except Raised R.Value :=
  match Json.loadsText cs with
  | none => .error .jsonDecodeError
  | some v => .ok v

/-- The loop of `replay` that reads the file. -/
def readTrace (file : Bytes) : Except Raised (List R.Value) :=
  match decodeUtf8 file with
  | none => .error .unicodeDecodeError
  | some cs => (((textLines cs).map strip).filter fun line => line ≠ []).mapM (loadsStr R)

end Files

/-! ## 4. What is written is read -/

section RoundTrip

variable {R : Runtime}

theorem textLines_line {line : List Char} (h : ∀ c ∈ line, c ≠ '\n' ∧ c ≠ '\r') (cs : List Char) :
    textLines (line ++ '\n' :: cs) = line :: textLines cs := by
  induction line with
  | nil => rfl
  | cons c line ih =>
    have hc := h c List.mem_cons_self
    rw [List.cons_append, textLines, if_neg (not_or.mpr hc),
      ih fun d hd => h d (List.mem_cons_of_mem _ hd)]

theorem textLines_joined {lines : List (List Char)}
    (h : ∀ line ∈ lines, ∀ c ∈ line, c ≠ '\n' ∧ c ≠ '\r') :
    textLines (lines.flatMap fun line => line ++ ['\n']) = lines ++ [[]] := by
  induction lines with
  | nil => rfl
  | cons line lines ih =>
    have ih' := ih fun l hl => h l (List.mem_cons_of_mem _ hl)
    rw [List.flatMap_cons, List.append_assoc, List.singleton_append,
      textLines_line (h line List.mem_cons_self), ih', List.cons_append]

theorem TraceEvent.toDict_wf (e : TraceEvent) : (e.toDict R).Wf := by
  cases e with
  | read lba blocks =>
    exact ⟨Dict.sorted_of_keys (rfl : _ = ["blocks", "kind", "lba"]) (by decide), by
      repeat constructor⟩
  | write lba blocks payload =>
    exact ⟨Dict.sorted_of_keys (rfl : _ = ["blocks", "kind", "lba", "payload_b64"]) (by decide), by
      repeat constructor⟩

/-- A printable character ends no line. -/
theorem printable_no_end {c : Char} (h : IsPrintable c) : c ≠ '\n' ∧ c ≠ '\r' := by
  constructor
  · rintro rfl
    exact absurd h.1 (by decide)
  · rintro rfl
    exact absurd h.1 (by decide)

/-- The line of an object stays as it is when it is stripped. -/
theorem strip_canonical {kvs : Dict R.Value} (h : (Json.obj kvs : R.Value).Wf) :
    strip (Json.obj kvs : R.Value).canonical = (Json.obj kvs : R.Value).canonical ∧
      (Json.obj kvs : R.Value).canonical ≠ [] := by
  obtain ⟨t, ht, -, hlast⟩ := Json.run_obj .compact h
  have htext : (Json.obj kvs : R.Value).canonical = '{' :: t := ht
  have hlast' : (Json.obj kvs : R.Value).canonical.getLast? = some '}' := hlast
  have hnone : ∀ c ∈ ([] : List Char), spaceChar c := fun c hc => absurd hc List.not_mem_nil
  have hstrip : strip ([] ++ (Json.obj kvs : R.Value).canonical ++ []) =
      (Json.obj kvs : R.Value).canonical := by
    refine strip_around hnone hnone (fun c hc => ?_) (fun c hc => ?_)
    · rw [htext] at hc
      obtain rfl := Option.some.inj hc
      decide
    · rw [hlast'] at hc
      obtain rfl := Option.some.inj hc
      decide
  rw [List.nil_append, List.append_nil] at hstrip
  refine ⟨hstrip, ?_⟩
  rw [htext]
  exact List.cons_ne_nil _ _

theorem strip_toDict (e : TraceEvent) : strip (e.toDict R).canonical = (e.toDict R).canonical ∧
    (e.toDict R).canonical ≠ [] := by
  cases e with
  | read lba blocks => exact strip_canonical (TraceEvent.read lba blocks).toDict_wf
  | write lba blocks payload =>
    exact strip_canonical (TraceEvent.write lba blocks payload).toDict_wf

/-- **What was written is read.** -/
theorem readTrace_writeTrace (events : List TraceEvent) :
    readTrace R (writeTrace R events) = .ok (events.map (TraceEvent.toDict R)) := by
  have hlines : textLines (traceText R events) =
      events.map (fun e => (e.toDict R).canonical) ++ [[]] := by
    rw [traceText, ← textLines_joined, List.flatMap_map]
    intro line hline c hc
    obtain ⟨e, -, rfl⟩ := List.mem_map.mp hline
    exact printable_no_end (Json.canonical_printable _ c hc)
  have hstripped : ((textLines (traceText R events)).map strip).filter (fun line => line ≠ []) =
      events.map fun e => (e.toDict R).canonical := by
    rw [hlines, List.map_append, List.map_map, List.filter_append]
    have hmap : events.map (strip ∘ fun e => (e.toDict R).canonical) =
        events.map fun e => (e.toDict R).canonical :=
      List.map_congr_left fun e _ => (strip_toDict e).1
    rw [hmap, List.filter_eq_self.mpr]
    · exact List.append_nil _
    · intro line hline
      obtain ⟨e, -, rfl⟩ := List.mem_map.mp hline
      exact decide_eq_true (strip_toDict e).2
  rw [readTrace, writeTrace, decodeUtf8_utf8]
  dsimp only
  rw [hstripped, List.mapM_map]
  refine mapM_of_ok fun e _ => ?_
  have hloads := Json.loadsText_dump .compact (e.toDict_wf (R := R))
    (fun c hc => absurd hc List.not_mem_nil : ∀ c ∈ ([] : List Char), Json.isWs c = true)
  rw [List.append_nil] at hloads
  show loadsStr R (Json.dump .compact 0 (e.toDict R)) = _
  rw [loadsStr, hloads]

end RoundTrip

end AegisShield.Cli
