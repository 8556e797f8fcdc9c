/-
# The policy (`core/policy.py`)

The policy scores the features of the window: a weighted mean of eight of them, compared with two
thresholds.  A destructive command in the window decides by itself, and a window that is too short
decides nothing.

`Detector.windowed` is the analyzer and the policy as the engine has them.  Only a payload's
entropy needs a logarithm, which is a parameter.
-/
import AegisShield.Detection.Features
import Mathlib.Data.Rat.Floor

namespace AegisShield

open Lib Arith

/-! ## 1. Configuration -/

/-- `PolicyConfig`.  The weights are in the order of the `dict`. -/
structure PolicyConfig (K : Type) where
  minimumOperations : Int
  alertThreshold : K
  containmentThreshold : K
  containmentEnabled : Bool
  weights : List (String × K)

section Config

variable {K : Type} [Arith K]

/-- The default coefficients. -/
def PolicyConfig.standard : PolicyConfig K where
  minimumOperations := 16
  alertThreshold := ofRat (72 / 100)
  containmentThreshold := ofRat (82 / 100)
  containmentEnabled := true
  weights := [("entropy", ofRat (10 / 100)), ("high_entropy", ofRat (10 / 100)),
    ("changed", ofRat (10 / 100)), ("read_before_write", ofRat (24 / 100)),
    ("overwrite", ofRat (18 / 100)), ("coverage", ofRat (16 / 100)),
    ("write_fraction", ofRat (6 / 100)), ("deallocate", ofRat (6 / 100))]

/-- `synthetic_demo`. -/
def PolicyConfig.syntheticDemo : PolicyConfig K :=
  { PolicyConfig.standard with
    minimumOperations := 8
    alertThreshold := ofRat (45 / 100)
    containmentThreshold := ofRat (60 / 100) }

/-- `allowed_weights`. -/
def allowedWeights : List String :=
  ["entropy", "high_entropy", "overwrite", "changed", "coverage", "read_before_write",
    "write_fraction", "deallocate"]

/-- The checks of `Policy.__init__`.  The message lists the names as Python prints strings that
have no quote and no backslash in them. -/
def PolicyConfig.check (config : PolicyConfig K) : Except Raised Unit :=
  let unknown := ((config.weights.map Prod.fst).filter fun name => name ∉ allowedWeights).mergeSort
    fun a b => a ≤ b
  if unknown ≠ [] then
    .error (.valueError ("unknown policy weights: [" ++
      ", ".intercalate (unknown.map fun name => "'" ++ name ++ "'") ++ "]"))
  else if !(le (ofRat 0) config.alertThreshold &&
      le config.alertThreshold config.containmentThreshold &&
      le config.containmentThreshold (ofRat 1)) then
    .error (.valueError "thresholds must satisfy 0 <= alert <= containment <= 1")
  else if config.weights.any fun w => lt w.2 (ofRat 0) then
    .error (.valueError "weights must be non-negative")
  else .ok ()

/-- `Policy`: a configuration that its constructor has accepted. -/
structure Policy (K : Type) [Arith K] where
  config : PolicyConfig K
  accepted : config.check = .ok ()

/-! ## 2. Evaluation -/

/-- `Decision`. -/
structure Verdict (K : Type) where
  score : K
  alert : Bool
  contain : Bool
  reasons : List String
  features : FeatureVector K

/-- `_clamp`. -/
def clamp (value : K) : K := Arith.max (ofRat 0) (Arith.min (ofRat 1) value)

/-- The scored components of the features. -/
def FeatureVector.components (f : FeatureVector K) : List (String × K) :=
  [("entropy", clamp (div (sub f.meanWriteEntropy (ofRat 6)) (ofRat 2))),
    ("high_entropy", f.highEntropyWriteFraction), ("overwrite", f.overwriteFraction),
    ("changed", f.changedByteFraction),
    ("coverage", clamp (mul f.namespaceCoverageFraction (ofRat 20))),
    ("read_before_write", f.readBeforeWriteFraction), ("write_fraction", f.writeFraction),
    ("deallocate", clamp (mul f.deallocateFraction (ofRat 10)))]

/-- The score of the features. -/
def PolicyConfig.score (config : PolicyConfig K) (f : FeatureVector K) : K :=
  let total := sum (config.weights.map Prod.snd)
  let totalWeight := if truthy total then total else ofRat 1
  div (sum (config.weights.map fun w =>
    mul ((f.components.lookup w.1).getD (ofRat 0)) w.2)) totalWeight

/-- The names of the components that are high, or one name for none. -/
def FeatureVector.reasons (f : FeatureVector K) : List String :=
  let high := (f.components.mergeSort fun a b => a.1 ≤ b.1).filter fun c =>
    le (ofRat (75 / 100)) c.2
  if high = [] then ["combined weak signals"] else high.map Prod.fst

/-- `evaluate`. -/
def Policy.evaluate (policy : Policy K) (f : FeatureVector K) : Verdict K :=
  let config := policy.config
  if f.destructiveCommandSeen then
    ⟨ofRat 1, true, config.containmentEnabled, ["destructive command"], f⟩
  else if f.operations < config.minimumOperations then
    ⟨ofRat 0, false, false, ["insufficient window"], f⟩
  else
    let score := config.score f
    { score := score
      alert := le config.alertThreshold score
      contain := config.containmentEnabled && le config.containmentThreshold score
      reasons := f.reasons
      features := f }

/-- **A destructive command in the window decides.** -/
theorem Policy.evaluate_destructive (policy : Policy K) {f : FeatureVector K}
    (h : f.destructiveCommandSeen = true) :
    (policy.evaluate f).alert = true ∧
      (policy.evaluate f).contain = policy.config.containmentEnabled := by
  unfold evaluate
  extract_lets config
  rw [if_pos h]
  exact ⟨rfl, rfl⟩

/-- **A short window without one decides nothing.** -/
theorem Policy.evaluate_short (policy : Policy K) {f : FeatureVector K}
    (h : f.destructiveCommandSeen = false)
    (hshort : (f.operations : Int) < policy.config.minimumOperations) :
    (policy.evaluate f).alert = false ∧ (policy.evaluate f).contain = false := by
  unfold evaluate
  extract_lets config
  rw [if_neg (by rw [h]; decide), if_pos hshort]
  exact ⟨rfl, rfl⟩

end Config

/-! ## 3. The detector of the engine -/

section Windowed

variable {R : Runtime}

/-- `FeatureVector.to_dict`. -/
def FeatureVector.toDict (f : FeatureVector R.Float) : Dict R.Value :=
  [("changed_byte_fraction", .float f.changedByteFraction),
    ("deallocate_fraction", .float f.deallocateFraction),
    ("destructive_command_seen", .bool f.destructiveCommandSeen),
    ("high_entropy_write_fraction", .float f.highEntropyWriteFraction),
    ("mean_write_entropy", .float f.meanWriteEntropy),
    ("namespace_coverage_fraction", .float f.namespaceCoverageFraction),
    ("operations", .int f.operations),
    ("overwrite_fraction", .float f.overwriteFraction),
    ("read_before_write_fraction", .float f.readBeforeWriteFraction),
    ("sequential_write_fraction", .float f.sequentialWriteFraction),
    ("unique_write_fraction", .float f.uniqueWriteFraction),
    ("write_fraction", .float f.writeFraction)]

/-- `Decision.to_dict`. -/
def Verdict.toDict (v : Verdict R.Float) : Dict R.Value :=
  [("alert", .bool v.alert), ("contain", .bool v.contain), ("features", .obj v.features.toDict),
    ("reasons", .arr (v.reasons.map .str)), ("score", .float v.score)]

theorem FeatureVector.toDict_wf (f : FeatureVector R.Float) : (Json.obj f.toDict : R.Value).Wf :=
  ⟨Dict.sorted_of_keys (rfl : _ = ["changed_byte_fraction", "deallocate_fraction",
    "destructive_command_seen", "high_entropy_write_fraction", "mean_write_entropy",
    "namespace_coverage_fraction", "operations", "overwrite_fraction",
    "read_before_write_fraction", "sequential_write_fraction", "unique_write_fraction",
    "write_fraction"]) (by decide), by repeat constructor⟩

theorem wfElems_strings : ∀ names : List String,
    Json.WfElems (names.map fun s => (.str s : R.Value))
  | [] => trivial
  | _ :: names => ⟨trivial, wfElems_strings names⟩

theorem Verdict.toDict_wf (v : Verdict R.Float) : (Json.obj v.toDict : R.Value).Wf :=
  ⟨Dict.sorted_of_keys (rfl : _ = ["alert", "contain", "features", "reasons", "score"]) (by decide),
    trivial, trivial, v.features.toDict_wf, wfElems_strings v.reasons, trivial, trivial⟩

/-- The decision the engine acts on. -/
def Verdict.toDecision (v : Verdict R.Float) : Decision R :=
  ⟨v.alert, v.contain, .obj v.toDict, v.toDict_wf⟩

variable (R)

/-- `WindowAnalyzer` and `Policy`.  The engine's before-images are as long as their payloads, so
`observe` returns. -/
def Detector.windowed [Arith R.Float] (log2 : R.Float → R.Float) (policy : Policy R.Float) :
    Detector R where
  Analyzer := WindowAnalyzer R.Float
  new blocks := WindowAnalyzer.new (AnalyzerConfig.forNamespace blocks)
  observe a event before :=
    match a.observe (shannonEntropy log2) event before with
    | .ok r => r.1
    | .error _ => a
  evaluate a := (policy.evaluate a.snapshot).toDecision

/-- **What the engine's detector does with an event.** -/
theorem Detector.windowed_observe [Arith R.Float] (log2 : R.Float → R.Float)
    (policy : Policy R.Float) (a : WindowAnalyzer R.Float) (event : IoEvent) (before : Option Bytes)
    (h : ∀ bytes ∈ before, bytes.length = event.payload.length) :
    ∃ o, (Detector.windowed R log2 policy).observe a event before = a.record event o ∧
      o.destructive = (event.kind = .admin || event.kind = .deallocate : Bool) := by
  obtain ⟨o, ho, hdestructive⟩ := a.observation_ok (shannonEntropy log2) event h
  have hobserve : a.observe (shannonEntropy log2) event before =
      .ok (a.record event o, (a.record event o).snapshot) := bind_eq_ok.mpr ⟨o, ho, rfl⟩
  refine ⟨o, ?_, hdestructive⟩
  change (match a.observe (shannonEntropy log2) event before with
    | .ok r => r.1
    | .error _ => a) = _
  rw [hobserve]

end Windowed

/-! ## 4. A concrete arithmetic -/

/-- The number a decimal text denotes. -/
def decimalValue (t : List Char) : ℚ :=
  let (sign, digits) : ℚ × List Char := match t with
    | '-' :: cs => (-1, cs)
    | cs => (1, cs)
  let (mantissa, exponent) := digits.span fun c => c ≠ 'e' && c ≠ 'E'
  let (whole, fraction) := mantissa.span (· ≠ '.')
  let unscaled : ℚ := natOfText (whole ++ fraction.drop 1) / 10 ^ (fraction.drop 1).length
  sign * unscaled * (10 : ℚ) ^ intOfText ((exponent.drop 1).filter (· ≠ '+'))

/-- The decimal text of a number, cut after sixteen places. -/
def decimalText (q : ℚ) : List Char :=
  let scaled := (|q| * 10 ^ 16).floor.natAbs
  let places := ((natText (10 ^ 16 + scaled % 10 ^ 16)).drop 1).reverse.dropWhile (· = '0')
  (if q < 0 then ['-'] else []) ++ natText (scaled / 10 ^ 16) ++ '.' ::
    (if places = [] then ['0'] else places.reverse)

namespace TextFloat

/-- The exact value of a printed `float`. -/
def value (x : TextFloat) : ℚ := decimalValue x.text

/-- A number as it is printed. -/
def ofRat (q : ℚ) : TextFloat := PyFloat.ofText (decimalText q)

/-- Arithmetic on printed `float`s.  It is Python's where the numbers have short decimals. -/
instance : Arith TextFloat where
  ofRat := ofRat
  add x y := ofRat (x.value + y.value)
  sub x y := ofRat (x.value - y.value)
  mul x y := ofRat (x.value * y.value)
  div x y := ofRat (x.value / y.value)
  sum xs := ofRat (xs.map value).sum
  le x y := x.value ≤ y.value
  lt x y := x.value < y.value

/-- `math.log2`, which is exact on the powers of two. -/
def log2 (x : TextFloat) : TextFloat :=
  if 1 ≤ x.value then ofRat (Nat.log2 x.value.floor.natAbs)
  else ofRat (-(Nat.log2 (1 / x.value).floor.natAbs : ℚ))

end TextFloat

/-- The default policy is one that `Policy` accepts. -/
def Policy.standard : Policy TextFloat := ⟨PolicyConfig.standard, by decide +kernel⟩

end AegisShield
