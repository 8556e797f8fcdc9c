/-
# The window analyzer (`core/features.py`, `core/entropy.py`)

The analyzer keeps the last operations in a bounded window, a census of the blocks that the writes
of the window cover, the last reads, and where the last write ended.  From the window it computes
the features that the policy scores.

Numbers are those of an `Arith`: Python's `float`, or exact ones where a result is about the
formulas and not about rounding.  The logarithm stands apart from it, and the analyzer takes the
entropy of a payload as a function.
-/
import AegisShield.Engine.Basic
import Mathlib.Data.Rat.Defs

namespace AegisShield

open Lib

/-! ## 1. Numbers -/

/-- The arithmetic of a score. -/
class Arith (K : Type) where
  /-- A literal, or the quotient of two `int`s. -/
  ofRat : ℚ → K
  add : K → K → K
  sub : K → K → K
  mul : K → K → K
  div : K → K → K
  /-- `sum(..)` of `float`s. -/
  sum : List K → K
  /-- `x <= y`. -/
  le : K → K → Bool
  /-- `x < y`. -/
  lt : K → K → Bool

namespace Arith

variable {K : Type} [Arith K]

/-- `min(x, y)`. -/
def min (x y : K) : K := if lt y x then y else x

/-- `max(x, y)`. -/
def max (x y : K) : K := if lt x y then y else x

/-- `bool(x)` of a `float`. -/
def truthy (x : K) : Bool := lt x (ofRat 0) || lt (ofRat 0) x

end Arith

open Arith

/-! ## 2. Entropy -/

section Entropy

variable {K : Type} [Arith K]

/-- `shannon_entropy`, with `math.log2`. -/
def shannonEntropy (log2 : K → K) (data : Bytes) : K :=
  if data = [] then ofRat 0
  else
    let counts := (List.range 256).map fun byte => data.count (UInt8.ofNat byte)
    counts.foldl (fun entropy count =>
      if count = 0 then entropy
      else
        let probability := ofRat (count / data.length)
        sub entropy (mul probability (log2 probability))) (ofRat 0)

/-- `changed_byte_fraction`. -/
def changedByteFraction (before after : Bytes) : Except Raised K :=
  if before.length ≠ after.length then
    .error (.valueError "buffers must have equal length")
  else if before = [] then .ok (ofRat 0)
  else .ok (ofRat (((before.zip after).countP fun p => p.1 ≠ p.2) / before.length))

end Entropy

/-! ## 3. The analyzer's state -/

/-- `AnalyzerConfig`. -/
structure AnalyzerConfig (K : Type) where
  windowOperations : Nat
  namespaceBlocks : Nat
  highEntropyBitsPerByte : K

/-- `AnalyzerConfig(namespace_blocks=..)`, with the defaults of the rest. -/
def AnalyzerConfig.forNamespace {K : Type} [Arith K] (namespaceBlocks : Nat) : AnalyzerConfig K :=
  ⟨128, namespaceBlocks, ofRat (75 / 10)⟩

/-- `_Observation`. -/
structure Observation (K : Type) where
  kind : IoKind
  lba : Int
  blocks : Int
  entropy : K
  highEntropy : Bool
  overwrite : Bool
  changedFraction : K
  sequential : Bool
  readBeforeWrite : Bool
  destructive : Bool

/-- `FeatureVector`. -/
structure FeatureVector (K : Type) where
  operations : Nat
  writeFraction : K
  meanWriteEntropy : K
  highEntropyWriteFraction : K
  overwriteFraction : K
  changedByteFraction : K
  uniqueWriteFraction : K
  namespaceCoverageFraction : K
  sequentialWriteFraction : K
  readBeforeWriteFraction : K
  deallocateFraction : K
  destructiveCommandSeen : Bool

/-- `WindowAnalyzer`.  The window and the reads are in the order in which they came. -/
structure WindowAnalyzer (K : Type) where
  config : AnalyzerConfig K
  window : List (Observation K)
  /-- `_written_blocks`, a `Counter`: a block it does not have counts 0. -/
  writtenBlocks : Int → Option Int
  recentReads : List (Int × Int)
  lastWriteEnd : Option Int

/-- `range(lba, lba + blocks)`. -/
def blockRange (lba blocks : Int) : List Int := (List.range blocks.toNat).map fun i => lba + i

/-- `append` on a `deque` with a `maxlen`. -/
def pushBounded {α : Type} (maxlen : Nat) (xs : List α) (x : α) : List α :=
  (xs ++ [x]).drop (xs.length + 1 - maxlen)

/-- `counter[block]`. -/
def censusCount (census : Int → Option Int) (block : Int) : Int := (census block).getD 0

/-- `counter[block] += 1`. -/
def censusAdd (census : Int → Option Int) (block : Int) : Int → Option Int :=
  Function.update census block (some (censusCount census block + 1))

/-- The body of the loop of `_retire`. -/
def censusRetire (census : Int → Option Int) (block : Int) : Int → Option Int :=
  let remaining := censusCount census block - 1
  Function.update census block (if remaining > 0 then some remaining else none)

namespace WindowAnalyzer

variable {K : Type} [Arith K]

/-- The object `__init__` makes of a configuration it accepts. -/
def new (config : AnalyzerConfig K) : WindowAnalyzer K := ⟨config, [], fun _ => none, [], none⟩

/-- `__init__`. -/
def init (config : AnalyzerConfig K) : Except Raised (WindowAnalyzer K) :=
  if config.windowOperations < 1 ∨ config.namespaceBlocks < 1 then
    .error (.valueError "window_operations and namespace_blocks must be positive")
  else .ok (new config)

/-- `_retire`. -/
def retire (census : Int → Option Int) (o : Observation K) : Int → Option Int :=
  if o.kind ≠ .write then census else (blockRange o.lba o.blocks).foldl censusRetire census

/-! ## 4. Features -/

/-- `ratio` of two `int`s. -/
def ratio (numerator denominator : Int) : K :=
  if denominator = 0 then ofRat 0 else ofRat (numerator / denominator)

/-- `ratio` of a `float` and an `int`. -/
def meanOf (numerator : K) (denominator : Int) : K :=
  if denominator = 0 then ofRat 0 else div numerator (ofRat denominator)

/-- `snapshot`. -/
def snapshot (a : WindowAnalyzer K) : FeatureVector K :=
  let items := a.window
  let count := items.length
  let writes := items.filter fun o => o.kind = .write
  let writeCount := writes.length
  let uniqueWriteBlocks := (writes.flatMap fun o => blockRange o.lba o.blocks).dedup.length
  let totalWriteBlocks := (writes.map fun o => o.blocks).sum
  { operations := count
    writeFraction := ratio writeCount count
    meanWriteEntropy := meanOf (sum (writes.map fun o => o.entropy)) writeCount
    highEntropyWriteFraction := ratio (writes.countP fun o => o.highEntropy) writeCount
    overwriteFraction := ratio (writes.countP fun o => o.overwrite) writeCount
    changedByteFraction := meanOf (sum (writes.map fun o => o.changedFraction)) writeCount
    uniqueWriteFraction := ratio uniqueWriteBlocks totalWriteBlocks
    namespaceCoverageFraction :=
      Arith.min (ofRat 1) (ratio uniqueWriteBlocks a.config.namespaceBlocks)
    sequentialWriteFraction := ratio (writes.countP fun o => o.sequential) writeCount
    readBeforeWriteFraction := ratio (writes.countP fun o => o.readBeforeWrite) writeCount
    deallocateFraction := ratio (items.countP fun o => o.kind = .deallocate) count
    destructiveCommandSeen := items.any fun o => o.destructive }

/-! ## 5. Observing -/

/-- What `observe` finds of a write: whether it overwrites, and what it changes. -/
def compare (a : WindowAnalyzer K) (event : IoEvent) (before : Option Bytes) :
    Except Raised (Bool × K) :=
  let overwrite := (blockRange event.lba event.blocks).any fun block =>
    censusCount a.writtenBlocks block ≠ 0
  match before with
  | none => .ok (overwrite, ofRat 0)
  | some bytes => do
    let change ← changedByteFraction bytes event.payload
    return (overwrite || bytes.any fun b => b ≠ 0, change)

/-- The observation of an event.  Its fields stay at their defaults unless it is a write. -/
def observation (entropy : Bytes → K) (a : WindowAnalyzer K) (event : IoEvent)
    (before : Option Bytes) : Except Raised (Observation K) :=
  let destructive := event.kind = .admin || event.kind = .deallocate
  if event.kind = .write then do
    let (overwrite, change) ← a.compare event before
    let bits := entropy event.payload
    return { kind := event.kind, lba := event.lba, blocks := event.blocks, entropy := bits
             highEntropy := le a.config.highEntropyBitsPerByte bits
             overwrite := overwrite, changedFraction := change
             sequential := a.lastWriteEnd = some event.lba
             readBeforeWrite := a.recentReads.any fun r =>
               event.lba < r.2 && event.lba + event.blocks > r.1
             destructive := destructive }
  else
    .ok { kind := event.kind, lba := event.lba, blocks := event.blocks, entropy := ofRat 0
          highEntropy := le a.config.highEntropyBitsPerByte (ofRat 0)
          overwrite := false, changedFraction := ofRat 0, sequential := false
          readBeforeWrite := false, destructive := destructive }

/-- What `observe` does with an observation: the oldest one of a full window is retired. -/
def record (a : WindowAnalyzer K) (event : IoEvent) (o : Observation K) : WindowAnalyzer K :=
  let census := match a.window with
    | oldest :: _ =>
      if a.window.length = a.config.windowOperations then retire a.writtenBlocks oldest
      else a.writtenBlocks
    | [] => a.writtenBlocks
  { a with
    window := pushBounded a.config.windowOperations a.window o
    writtenBlocks := if event.kind = .write then
      (blockRange event.lba event.blocks).foldl censusAdd census else census
    recentReads := if event.kind = .read then
      pushBounded a.config.windowOperations a.recentReads (event.lba, event.lba + event.blocks)
      else a.recentReads
    lastWriteEnd := if event.kind = .write then some (event.lba + event.blocks)
      else a.lastWriteEnd }

/-- `observe`: the analyzer after it, and the features. -/
def observe (entropy : Bytes → K) (a : WindowAnalyzer K) (event : IoEvent)
    (before : Option Bytes) : Except Raised (WindowAnalyzer K × FeatureVector K) := do
  let o ← a.observation entropy event before
  let a' := a.record event o
  return (a', a'.snapshot)

/-! ## 6. What is observed -/

theorem changedByteFraction_ok {before after : Bytes} (h : before.length = after.length) :
    ∃ x : K, changedByteFraction before after = .ok x := by
  rw [changedByteFraction, if_neg (not_not.mpr h)]
  split
  · exact ⟨_, rfl⟩
  · exact ⟨_, rfl⟩

/-- **An observation** is destructive by the kind of its event alone. -/
theorem observation_ok (entropy : Bytes → K) (a : WindowAnalyzer K) (event : IoEvent)
    {before : Option Bytes} (h : ∀ bytes ∈ before, bytes.length = event.payload.length) :
    ∃ o, a.observation entropy event before = .ok o ∧
      o.destructive = (event.kind = .admin || event.kind = .deallocate : Bool) := by
  unfold observation
  extract_lets destructive
  split
  · have hcompare : ∃ r, a.compare event before = .ok r := by
      unfold compare
      extract_lets overwrite
      cases before with
      | none => exact ⟨_, rfl⟩
      | some bytes =>
        obtain ⟨x, hx⟩ := changedByteFraction_ok (K := K) (h bytes rfl)
        exact ⟨_, bind_eq_ok.mpr ⟨x, hx, rfl⟩⟩
    obtain ⟨r, hr⟩ := hcompare
    exact ⟨_, bind_eq_ok.mpr ⟨r, hr, rfl⟩, rfl⟩
  · exact ⟨_, rfl, rfl⟩

omit [Arith K] in
/-- A window with room takes an observation. -/
theorem record_window {a : WindowAnalyzer K} (h : a.window.length < a.config.windowOperations)
    (event : IoEvent) (o : Observation K) : (a.record event o).window = a.window ++ [o] := by
  have hroom : a.window.length + 1 - a.config.windowOperations = 0 := by omega
  rw [record, pushBounded, hroom]
  rfl

end WindowAnalyzer

end AegisShield
