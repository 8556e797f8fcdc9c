/-
# Bounds on features and scores

Over exact arithmetic.  Every fraction that a snapshot has is one (`Observes.fractions`): the counts
are of parts of the window, and the blocks that the writes cover, each counted once, are no more
than the sum of their lengths.  The score is a weighted mean of eight of them, clamped where a
feature is no fraction, so that it is a fraction itself, contains only if it alerts, and grows with
every scored feature (`Policy.evaluate_mono`).  A window without a destructive command has no
deallocation in it either, which costs the score the weight of that name.

The blocks of a write are not negative: the engine takes them from the length of its payload.
-/
import AegisShield.Detection.RecentReads
import AegisShield.Lib.WeightedMean

namespace AegisShield

open Lib

/-- Exact arithmetic. -/
instance : Arith ℚ where
  ofRat q := q
  add x y := x + y
  sub x y := x - y
  mul x y := x * y
  div x y := x / y
  sum xs := xs.sum
  le x y := x ≤ y
  lt x y := x < y

theorem min_rat (x y : ℚ) : Arith.min x y = min x y := by
  by_cases h : y < x
  · have hlt : Arith.lt y x = true := decide_eq_true h
    rw [Arith.min, if_pos hlt, min_eq_right (le_of_lt h)]
  · have hlt : ¬ Arith.lt y x = true := fun hlt => h (of_decide_eq_true hlt)
    rw [Arith.min, if_neg hlt, min_eq_left (not_lt.mp h)]

theorem max_rat (x y : ℚ) : Arith.max x y = max x y := by
  by_cases h : x < y
  · have hlt : Arith.lt x y = true := decide_eq_true h
    rw [Arith.max, if_pos hlt, max_eq_right (le_of_lt h)]
  · have hlt : ¬ Arith.lt x y = true := fun hlt => h (of_decide_eq_true hlt)
    rw [Arith.max, if_neg hlt, max_eq_left (not_lt.mp h)]

theorem clamp_rat (x : ℚ) : clamp x = max 0 (min 1 x) := by
  rw [clamp, max_rat, min_rat]
  rfl

/-! ## 1. Observations -/

/-- What holds of an observation by itself. -/
structure Observation.Sane (o : Observation ℚ) : Prop where
  changed : Fraction o.changedFraction
  destructive : o.kind = .deallocate → o.destructive = true
  blocks : o.kind = .write → 0 ≤ o.blocks

theorem fraction_zero : Fraction (0 : ℚ) := ⟨le_refl 0, zero_le_one⟩

theorem fraction_one : Fraction (1 : ℚ) := ⟨zero_le_one, le_refl 1⟩

/-- A part of a whole. -/
theorem fraction_div {n d : ℚ} (hn : 0 ≤ n) (hnd : n ≤ d) : Fraction (n / d) := by
  rcases eq_or_lt_of_le (le_trans hn hnd) with h | h
  · rw [← h, div_zero]
    exact fraction_zero
  · exact ⟨div_nonneg hn (le_of_lt h), (div_le_one h).mpr hnd⟩

theorem fraction_changedByteFraction {before after : Bytes} {x : ℚ}
    (h : changedByteFraction before after = .ok x) : Fraction x := by
  unfold changedByteFraction at h
  split at h
  · cases h
  · split at h
    · cases h
      exact fraction_zero
    · rename_i hlen _
      cases h
      have hcount := List.countP_le_length (p := fun p : UInt8 × UInt8 => decide (p.1 ≠ p.2))
        (l := before.zip after)
      have hzip : (before.zip after).length ≤ before.length := by
        rw [List.length_zip]
        exact Nat.min_le_left _ _
      exact fraction_div (Nat.cast_nonneg _) (by exact_mod_cast le_trans hcount hzip)

namespace WindowAnalyzer

variable {entropy : Bytes → ℚ} {a : WindowAnalyzer ℚ} {event : IoEvent} {before : Option Bytes}
  {config : AnalyzerConfig ℚ} {es : List (IoEvent × Option Bytes)}

/-- **The changed bytes of an observation** are a fraction, whatever its blocks are. -/
theorem observation_changed {o : Observation ℚ} (h : a.observation entropy event before = .ok o) :
    Fraction o.changedFraction := by
  unfold observation at h
  extract_lets destructive at h
  split at h
  · obtain ⟨⟨overwrite, change⟩, hcompare, h⟩ := bind_eq_ok.mp h
    cases h
    unfold compare at hcompare
    cases before with
    | none =>
      cases hcompare
      exact fraction_zero
    | some bytes =>
      obtain ⟨x, hx, hcompare⟩ := bind_eq_ok.mp hcompare
      cases hcompare
      exact fraction_changedByteFraction hx
  · cases h
    exact fraction_zero

theorem observation_sane {o : Observation ℚ} (h : a.observation entropy event before = .ok o)
    (hblocks : event.kind = .write → 0 ≤ event.blocks) : o.Sane := by
  have hchanged := observation_changed h
  unfold observation at h
  extract_lets destructive at h
  split at h
  · rename_i hwrite
    obtain ⟨⟨overwrite, change⟩, -, h⟩ := bind_eq_ok.mp h
    cases h
    refine ⟨hchanged, ?_, hblocks⟩
    intro hkind
    rw [hwrite] at hkind
    cases hkind
  · rename_i hkind
    cases h
    refine ⟨hchanged, ?_, fun hwrite => absurd hwrite hkind⟩
    intro hdeallocate
    exact Bool.or_eq_true_iff.mpr (Or.inr (decide_eq_true hdeallocate))

/-- **Every observation of the window.** -/
theorem Observes.sane (h : Observes config entropy es a) :
    (∀ e ∈ es, e.1.kind = .write → 0 ≤ e.1.blocks) → ∀ o ∈ a.window, o.Sane := by
  induction h with
  | init h =>
    unfold WindowAnalyzer.init at h
    split at h
    · cases h
    · cases h
      intro _ o ho
      exact absurd ho List.not_mem_nil
  | @observe es a a' event before f h hok ih =>
    intro hblocks
    obtain ⟨o, ho, rfl⟩ := observe_ok hok
    have hwindow := ih fun e he => hblocks e (List.mem_append_left _ he)
    intro o' ho'
    rcases List.mem_append.mp (List.mem_of_mem_drop ho') with hmem | hmem
    · exact hwindow o' hmem
    · rw [List.mem_singleton.mp hmem]
      exact observation_sane ho (hblocks (event, before)
        (List.mem_append_right _ (List.mem_singleton.mpr rfl)))

/-! ## 2. Features -/

theorem fraction_ratio {n d : Int} (hn : 0 ≤ n) (hnd : n ≤ d) : Fraction (ratio n d : ℚ) := by
  unfold ratio
  split
  · exact fraction_zero
  · exact fraction_div (by exact_mod_cast hn) (by exact_mod_cast hnd)

theorem ratio_nonneg {n d : Int} (hn : 0 ≤ n) (hd : 0 ≤ d) : 0 ≤ (ratio n d : ℚ) := by
  unfold ratio
  split
  · exact le_refl (0 : ℚ)
  · exact div_nonneg (by exact_mod_cast hn) (by exact_mod_cast hd)

theorem fraction_meanOf {n : ℚ} {d : Nat} (hn : 0 ≤ n) (hnd : n ≤ d) :
    Fraction (meanOf n d : ℚ) := by
  unfold meanOf
  split
  · exact fraction_zero
  · refine fraction_div hn ?_
    change n ≤ (((d : Int) : ℚ))
    exact_mod_cast hnd

/-- A part of a list, by a count. -/
theorem fraction_countP {α : Type} (p : α → Bool) (xs : List α) :
    Fraction (ratio (xs.countP p) xs.length : ℚ) :=
  fraction_ratio (Int.natCast_nonneg _) (by exact_mod_cast List.countP_le_length)

/-- The sum of fractions is at most their number. -/
theorem sum_fractions : ∀ {xs : List ℚ}, (∀ x ∈ xs, Fraction x) → 0 ≤ xs.sum ∧ xs.sum ≤ xs.length
  | [], _ => ⟨le_refl 0, le_refl 0⟩
  | x :: xs, h => by
    obtain ⟨hlow, hhigh⟩ := h x List.mem_cons_self
    obtain ⟨ihlow, ihhigh⟩ := sum_fractions fun y hy => h y (List.mem_cons_of_mem _ hy)
    rw [List.sum_cons, List.length_cons]
    push_cast
    exact ⟨by linarith, by linarith⟩

/-- The blocks that writes cover are no more than the sum of their lengths. -/
theorem length_covered_le : ∀ {writes : List (Observation ℚ)}, (∀ o ∈ writes, 0 ≤ o.blocks) →
    ((writes.flatMap fun o => blockRange o.lba o.blocks).length : Int) ≤
      (writes.map fun o => o.blocks).sum
  | [], _ => le_refl 0
  | o :: writes, h => by
    have ih := length_covered_le fun o' ho' => h o' (List.mem_cons_of_mem _ ho')
    have ho := h o List.mem_cons_self
    have hlen : (blockRange o.lba o.blocks).length = o.blocks.toNat := by
      rw [blockRange_eq, List.length_map, List.length_range]
    rw [List.flatMap_cons, List.length_append, List.map_cons, List.sum_cons, hlen]
    push_cast
    rw [Int.toNat_of_nonneg ho]
    omega

end WindowAnalyzer

/-- Every feature that is a fraction is between 0 and 1. -/
structure FeatureVector.Fractions (f : FeatureVector ℚ) : Prop where
  write : Fraction f.writeFraction
  highEntropyWrite : Fraction f.highEntropyWriteFraction
  overwrite : Fraction f.overwriteFraction
  changedByte : Fraction f.changedByteFraction
  uniqueWrite : Fraction f.uniqueWriteFraction
  namespaceCoverage : Fraction f.namespaceCoverageFraction
  sequentialWrite : Fraction f.sequentialWriteFraction
  readBeforeWrite : Fraction f.readBeforeWriteFraction
  deallocate : Fraction f.deallocateFraction

namespace WindowAnalyzer

variable {entropy : Bytes → ℚ} {a : WindowAnalyzer ℚ} {config : AnalyzerConfig ℚ}
  {es : List (IoEvent × Option Bytes)}

/-- The mean of the changed fractions of the writes. -/
theorem fraction_changedByte (h : ∀ o ∈ a.window, Fraction o.changedFraction) :
    Fraction a.snapshot.changedByteFraction := by
  have hchanged : ∀ x ∈ (a.window.filter fun o => o.kind = .write).map
      fun o => o.changedFraction, Fraction x := by
    intro x hx
    obtain ⟨o, ho, rfl⟩ := List.mem_map.mp hx
    exact h o (List.mem_filter.mp ho).1
  have hsum := sum_fractions hchanged
  rw [List.length_map] at hsum
  exact fraction_meanOf hsum.1 hsum.2

/-- **The features of a window of sane observations.** -/
theorem fractions_snapshot (h : ∀ o ∈ a.window, o.Sane) : a.snapshot.Fractions := by
  have hwrites : ∀ o ∈ a.window.filter (fun o => o.kind = .write), 0 ≤ o.blocks := by
    intro o ho
    obtain ⟨hmem, hkind⟩ := List.mem_filter.mp ho
    exact (h o hmem).blocks (of_decide_eq_true hkind)
  have hcovered := length_covered_le hwrites
  have hunique := (List.dedup_sublist ((a.window.filter fun o => o.kind = .write).flatMap
    fun o => blockRange o.lba o.blocks)).length_le
  exact {
    write := fraction_ratio (Int.natCast_nonneg _) (by exact_mod_cast List.length_filter_le _ _)
    highEntropyWrite := fraction_countP _ _
    overwrite := fraction_countP _ _
    changedByte := fraction_changedByte fun o ho => (h o ho).changed
    uniqueWrite := fraction_ratio (Int.natCast_nonneg _) (by omega)
    namespaceCoverage := by
      change Fraction (Arith.min (Arith.ofRat 1) (ratio _ _) : ℚ)
      rw [min_rat]
      exact ⟨le_min zero_le_one (ratio_nonneg (Int.natCast_nonneg _) (Int.natCast_nonneg _)),
        min_le_left _ _⟩
    sequentialWrite := fraction_countP _ _
    readBeforeWrite := fraction_countP _ _
    deallocate := fraction_countP _ _ }

end WindowAnalyzer

/-! ## 3. Scores -/

theorem fraction_clamp (x : ℚ) : Fraction (clamp x) := by
  rw [clamp_rat]
  exact ⟨le_max_left _ _, max_le zero_le_one (min_le_left _ _)⟩

theorem clamp_mono {x y : ℚ} (h : x ≤ y) : clamp x ≤ clamp y := by
  rw [clamp_rat, clamp_rat]
  exact max_le_max (le_refl 0) (min_le_min (le_refl 1) h)

/-- The value of a component, by its name. -/
def FeatureVector.component (f : FeatureVector ℚ) (name : String) : ℚ :=
  (f.components.lookup name).getD 0

/-- What holds of all components holds of every value that is looked up. -/
theorem FeatureVector.forall_component {f : FeatureVector ℚ} {P : ℚ → Prop} (hzero : P 0)
    (h : ∀ c ∈ f.components, P c.2) (name : String) : P (f.component name) := by
  unfold component
  cases hlookup : f.components.lookup name with
  | none => exact hzero
  | some x =>
    obtain ⟨pre, post, heq, -⟩ := List.lookup_eq_some_iff.mp hlookup
    exact h (name, x) (by rw [heq]; exact List.mem_append_right _ List.mem_cons_self)

/-- **Every component is a fraction.** -/
theorem FeatureVector.Fractions.component {f : FeatureVector ℚ} (h : f.Fractions) :
    ∀ name, Fraction (f.component name) := by
  refine FeatureVector.forall_component fraction_zero ?_
  simp only [components, List.forall_mem_cons, List.not_mem_nil, false_imp_iff, implies_true,
    and_true]
  exact ⟨fraction_clamp _, h.highEntropyWrite, h.overwrite, h.changedByte, fraction_clamp _,
    h.readBeforeWrite, h.write, fraction_clamp _⟩

/-- The blocks of the writes matter to no component: what depends on them is clamped. -/
theorem WindowAnalyzer.components_snapshot {a : WindowAnalyzer ℚ}
    (h : ∀ o ∈ a.window, Fraction o.changedFraction) :
    ∀ name, Fraction (a.snapshot.component name) := by
  refine FeatureVector.forall_component fraction_zero ?_
  simp only [FeatureVector.components, List.forall_mem_cons, List.not_mem_nil, false_imp_iff,
    implies_true, and_true]
  exact ⟨fraction_clamp _, fraction_countP _ _, fraction_countP _ _, fraction_changedByte h,
    fraction_clamp _, fraction_countP _ _,
    fraction_ratio (Int.natCast_nonneg _) (by exact_mod_cast List.length_filter_le _ _),
    fraction_clamp _⟩

/-- What the constructor of a policy has checked. -/
structure PolicyConfig.Valid (config : PolicyConfig ℚ) : Prop where
  alert_nonneg : 0 ≤ config.alertThreshold
  ordered : config.alertThreshold ≤ config.containmentThreshold
  containment_le : config.containmentThreshold ≤ 1
  weights : ∀ w ∈ config.weights, 0 ≤ w.2

theorem Policy.valid (policy : Policy ℚ) : policy.config.Valid := by
  have h := policy.accepted
  unfold PolicyConfig.check at h
  extract_lets unknown at h
  split at h
  · cases h
  · split at h
    · cases h
    · rename_i hthresholds
      split at h
      · cases h
      · rename_i hweights
        simp only [Bool.not_eq_true', Bool.not_eq_false, Bool.and_eq_true] at hthresholds
        obtain ⟨⟨hlow, hordered⟩, hhigh⟩ := hthresholds
        refine ⟨of_decide_eq_true hlow, of_decide_eq_true hordered, of_decide_eq_true hhigh, ?_⟩
        intro w hw
        by_contra hneg
        exact hweights (List.any_eq_true.mpr ⟨w, hw, decide_eq_true (not_le.mp hneg)⟩)

theorem truthy_rat (x : ℚ) : Arith.truthy x = true ↔ x ≠ 0 := by
  change (decide (x < 0) || decide (0 < x)) = true ↔ x ≠ 0
  rw [Bool.or_eq_true, decide_eq_true_iff, decide_eq_true_iff]
  exact lt_or_lt_iff_ne

/-- **The score is a weighted mean of the components.** -/
theorem PolicyConfig.score_eq (config : PolicyConfig ℚ) (f : FeatureVector ℚ) :
    config.score f = weightedSum f.component config.weights /
      (if totalWeight config.weights = 0 then 1 else totalWeight config.weights) := by
  have htotal : (if Arith.truthy (totalWeight config.weights) then totalWeight config.weights
      else (1 : ℚ)) =
      (if totalWeight config.weights = 0 then 1 else totalWeight config.weights) := by
    by_cases h : totalWeight config.weights = 0
    · rw [if_pos h, if_neg fun ht => (truthy_rat _).mp ht h]
    · rw [if_neg h, if_pos ((truthy_rat _).mpr h)]
  rw [← htotal]
  rfl

/-- One feature vector has at least the scored features of another, and decides by the same rule. -/
structure FeatureVector.RaisedTo (f g : FeatureVector ℚ) : Prop where
  operations : f.operations = g.operations
  destructive : f.destructiveCommandSeen = g.destructiveCommandSeen
  entropy : f.meanWriteEntropy ≤ g.meanWriteEntropy
  highEntropy : f.highEntropyWriteFraction ≤ g.highEntropyWriteFraction
  overwrite : f.overwriteFraction ≤ g.overwriteFraction
  changed : f.changedByteFraction ≤ g.changedByteFraction
  coverage : f.namespaceCoverageFraction ≤ g.namespaceCoverageFraction
  readBeforeWrite : f.readBeforeWriteFraction ≤ g.readBeforeWriteFraction
  write : f.writeFraction ≤ g.writeFraction
  deallocate : f.deallocateFraction ≤ g.deallocateFraction

theorem FeatureVector.RaisedTo.component {f g : FeatureVector ℚ} (h : f.RaisedTo g)
    (name : String) : f.component name ≤ g.component name := by
  have hentropy : (f.meanWriteEntropy - 6) / 2 ≤ (g.meanWriteEntropy - 6) / 2 := by
    have := h.entropy
    linarith
  have hcoverage : f.namespaceCoverageFraction * 20 ≤ g.namespaceCoverageFraction * 20 := by
    have := h.coverage
    linarith
  have hdeallocate : f.deallocateFraction * 10 ≤ g.deallocateFraction * 10 := by
    have := h.deallocate
    linarith
  refine lookup_mono ?_
  simp only [components, List.forall₂_cons, true_and]
  exact ⟨clamp_mono hentropy, h.highEntropy, h.overwrite, h.changed, clamp_mono hcoverage,
    h.readBeforeWrite, h.write, clamp_mono hdeallocate, List.Forall₂.nil⟩

/-- **The score grows with the features.** -/
theorem PolicyConfig.score_mono {config : PolicyConfig ℚ} (hw : ∀ w ∈ config.weights, 0 ≤ w.2)
    {f g : FeatureVector ℚ} (h : f.RaisedTo g) : config.score f ≤ config.score g := by
  have hsum := weightedSum_mono h.component hw
  have htotal := totalWeight_nonneg hw
  rw [score_eq, score_eq]
  refine div_le_div_of_nonneg_right hsum ?_
  split
  · exact zero_le_one
  · exact htotal

namespace Policy

variable {policy : Policy ℚ} {f g : FeatureVector ℚ}

theorem fraction_score (h : ∀ name, Fraction (f.component name)) :
    Fraction (policy.config.score f) := by
  rw [PolicyConfig.score_eq]
  exact fraction_weightedMean h policy.valid.weights

/-- A window that is long enough and has no destructive command is scored. -/
theorem evaluate_scored (hdestructive : f.destructiveCommandSeen = false)
    (hlong : ¬ (f.operations : Int) < policy.config.minimumOperations) :
    (policy.evaluate f).score = policy.config.score f ∧
      ((policy.evaluate f).alert = true ↔
        policy.config.alertThreshold ≤ policy.config.score f) ∧
      ((policy.evaluate f).contain = true ↔ policy.config.containmentEnabled = true ∧
        policy.config.containmentThreshold ≤ policy.config.score f) := by
  unfold evaluate
  extract_lets config
  rw [if_neg (by rw [hdestructive]; decide), if_neg hlong]
  refine ⟨rfl, decide_eq_true_iff, ?_⟩
  exact (Bool.and_eq_true_iff).trans (and_congr Iff.rfl decide_eq_true_iff)

theorem evaluate_destructive_eq (h : f.destructiveCommandSeen = true) : policy.evaluate f =
    ⟨1, true, policy.config.containmentEnabled, ["destructive command"], f⟩ := by
  unfold evaluate
  extract_lets config
  rw [if_pos h]
  rfl

theorem evaluate_short_eq (h : f.destructiveCommandSeen = false)
    (hshort : (f.operations : Int) < policy.config.minimumOperations) : policy.evaluate f =
    ⟨0, false, false, ["insufficient window"], f⟩ := by
  unfold evaluate
  extract_lets config
  rw [if_neg (by rw [h]; decide), if_pos hshort]
  rfl

/-- **Bounds of a verdict.** -/
theorem evaluate_bounds (policy : Policy ℚ) (h : ∀ name, Fraction (f.component name)) :
    Fraction (policy.evaluate f).score ∧
      ((policy.evaluate f).contain = true → (policy.evaluate f).alert = true) ∧
      ((policy.evaluate f).contain = true → policy.config.containmentEnabled = true) := by
  cases hdestructive : f.destructiveCommandSeen with
  | true =>
    rw [evaluate_destructive_eq hdestructive]
    exact ⟨fraction_one, fun _ => rfl, id⟩
  | false =>
    by_cases hshort : (f.operations : Int) < policy.config.minimumOperations
    · rw [evaluate_short_eq hdestructive hshort]
      exact ⟨fraction_zero, nofun, nofun⟩
    · obtain ⟨hscore, halert, hcontain⟩ := evaluate_scored hdestructive hshort
      refine ⟨by rw [hscore]; exact fraction_score h, fun hc => ?_, fun hc => (hcontain.mp hc).1⟩
      exact halert.mpr (le_trans policy.valid.ordered (hcontain.mp hc).2)

/-- **A raised feature never lowers a verdict.** -/
theorem evaluate_mono (policy : Policy ℚ) (h : f.RaisedTo g) :
    (policy.evaluate f).score ≤ (policy.evaluate g).score ∧
      ((policy.evaluate f).alert = true → (policy.evaluate g).alert = true) ∧
      ((policy.evaluate f).contain = true → (policy.evaluate g).contain = true) := by
  have hdestructive' := h.destructive
  have hoperations := h.operations
  cases hdestructive : f.destructiveCommandSeen with
  | true =>
    rw [evaluate_destructive_eq hdestructive,
      evaluate_destructive_eq (hdestructive'.symm.trans hdestructive)]
    exact ⟨le_refl _, id, id⟩
  | false =>
    have hg := hdestructive'.symm.trans hdestructive
    by_cases hshort : (f.operations : Int) < policy.config.minimumOperations
    · rw [evaluate_short_eq hdestructive hshort, evaluate_short_eq hg (by rwa [← hoperations])]
      exact ⟨le_refl _, id, id⟩
    · obtain ⟨hscore, halert, hcontain⟩ := evaluate_scored hdestructive hshort
      have hlong : ¬ (g.operations : Int) < policy.config.minimumOperations := by
        rwa [← hoperations]
      obtain ⟨hscore', halert', hcontain'⟩ := evaluate_scored hg hlong
      have hmono := PolicyConfig.score_mono policy.valid.weights h
      refine ⟨by rw [hscore, hscore']; exact hmono, fun ha => ?_, fun hc => ?_⟩
      · exact halert'.mpr (le_trans (halert.mp ha) hmono)
      · exact hcontain'.mpr ⟨(hcontain.mp hc).1, le_trans (hcontain.mp hc).2 hmono⟩

/-- The weight of a name, 0 for one that has none. -/
def weight (policy : Policy ℚ) (name : String) : ℚ := (policy.config.weights.lookup name).getD 0

/-- **A window without a deallocation** scores without the weight of that name. -/
theorem evaluate_le_of_deallocate (policy : Policy ℚ) (h : f.Fractions)
    (hdestructive : f.destructiveCommandSeen = false) (hdeallocate : f.deallocateFraction = 0)
    (hpos : 0 < totalWeight policy.config.weights) : (policy.evaluate f).score ≤
      (totalWeight policy.config.weights - policy.weight "deallocate") /
        totalWeight policy.config.weights := by
  have hweights := policy.valid.weights
  -- the score is a weighted sum of values of which that name's is 0
  have hsum : ∀ value : String → ℚ, value "deallocate" = 0 → (∀ name, value name ≤ 1) →
      weightedSum value policy.config.weights / totalWeight policy.config.weights ≤
        (totalWeight policy.config.weights - policy.weight "deallocate") /
          totalWeight policy.config.weights := by
    intro value hzero hvalue
    have hle := weightedSum_add_le hzero hvalue hweights
    refine div_le_div_of_nonneg_right ?_ (le_of_lt hpos)
    change weightedSum value policy.config.weights + policy.weight "deallocate" ≤ _ at hle
    linarith
  by_cases hshort : (f.operations : Int) < policy.config.minimumOperations
  · have hzero := hsum (fun _ => 0) rfl fun _ => zero_le_one
    rw [weightedSum_zero, zero_div] at hzero
    rw [evaluate_short_eq hdestructive hshort]
    exact hzero
  · have hcomponent : f.component "deallocate" = 0 := by
      have hvalue : f.component "deallocate" = clamp (f.deallocateFraction * 10) := rfl
      rw [hvalue, hdeallocate, clamp_rat]
      norm_num
    rw [(evaluate_scored hdestructive hshort).1, PolicyConfig.score_eq, if_neg (ne_of_gt hpos)]
    exact hsum f.component hcomponent fun name => (h.component name).2

end Policy

/-! ## 4. Main result -/

namespace WindowAnalyzer

variable {entropy : Bytes → ℚ} {a : WindowAnalyzer ℚ} {config : AnalyzerConfig ℚ}
  {es : List (IoEvent × Option Bytes)}

/-- A deallocation of the window is a destructive command. -/
theorem snapshot_quiet (h : ∀ o ∈ a.window, o.Sane)
    (hquiet : ∀ o ∈ a.window, o.destructive = false) :
    a.snapshot.destructiveCommandSeen = false ∧ a.snapshot.deallocateFraction = 0 := by
  constructor
  · exact List.any_eq_false.mpr fun o ho => by rw [hquiet o ho]; decide
  · have hcount : a.window.countP (fun o => o.kind = .deallocate) = 0 := by
      refine List.countP_eq_zero.mpr fun o ho hkind => ?_
      have hdestructive := (h o ho).destructive (of_decide_eq_true hkind)
      rw [hquiet o ho] at hdestructive
      cases hdestructive
    change (ratio (a.window.countP (fun o => o.kind = .deallocate)) _ : ℚ) = 0
    rw [hcount, ratio]
    split
    · rfl
    · exact zero_div _

/-- **Scores are bounded, monotone and consistent with the thresholds.**  `hblocks` is what the
engine promises: it takes the blocks of a write from the length of the payload. -/
theorem scores_bounded (policy : Policy ℚ) (h : Observes config entropy es a)
    (hblocks : ∀ e ∈ es, e.1.kind = .write → 0 ≤ e.1.blocks) :
    a.snapshot.Fractions ∧ Fraction (policy.evaluate a.snapshot).score ∧
      ((policy.evaluate a.snapshot).contain = true → (policy.evaluate a.snapshot).alert = true) ∧
      ((policy.evaluate a.snapshot).contain = true → policy.config.containmentEnabled = true) ∧
      ((∀ o ∈ a.window, o.destructive = false) → 0 < totalWeight policy.config.weights →
        (policy.evaluate a.snapshot).score ≤
          (totalWeight policy.config.weights - policy.weight "deallocate") /
            totalWeight policy.config.weights) ∧
      ∀ f g : FeatureVector ℚ, f.RaisedTo g →
        (policy.evaluate f).score ≤ (policy.evaluate g).score ∧
          ((policy.evaluate f).alert = true → (policy.evaluate g).alert = true) ∧
          ((policy.evaluate f).contain = true → (policy.evaluate g).contain = true) := by
  have hsane := h.sane hblocks
  have hfractions := fractions_snapshot hsane
  obtain ⟨hscore, halert, henabled⟩ := policy.evaluate_bounds hfractions.component
  refine ⟨hfractions, hscore, halert, henabled, fun hquiet hpos => ?_,
    fun f g hraised => policy.evaluate_mono hraised⟩
  obtain ⟨hdestructive, hdeallocate⟩ := snapshot_quiet hsane hquiet
  exact policy.evaluate_le_of_deallocate hfractions hdestructive hdeallocate hpos

/-- The default policy over exact numbers, where every payload has full entropy: it contains. -/
theorem scores_bounded_overwrites : ∃ (policy : Policy ℚ) (a : WindowAnalyzer ℚ),
    policy.config = PolicyConfig.standard ∧ (policy.evaluate a.snapshot).score = 43 / 50 ∧
      (policy.evaluate a.snapshot).contain = true ∧ (policy.evaluate a.snapshot).alert = true ∧
      (policy.evaluate a.snapshot).score ≤ (totalWeight policy.config.weights -
        policy.weight "deallocate") / totalWeight policy.config.weights := by
  let policy : Policy ℚ := ⟨PolicyConfig.standard, by decide +kernel⟩
  have h₀ : Observes ⟨16, 16, 15 / 2⟩ (fun _ => (8 : ℚ)) [] (new ⟨16, 16, 15 / 2⟩) := .init rfl
  have hall : ((new (⟨16, 16, 15 / 2⟩ : AnalyzerConfig ℚ)).observeAll (fun _ => 8) readAndOverwrite >>=
      fun a => (.ok ((policy.evaluate a.snapshot).score, (policy.evaluate a.snapshot).contain,
        a.window.all fun o => !o.destructive) : Except Raised _)) = .ok (43 / 50, true, true) := by
    decide +kernel
  obtain ⟨a, hrun, hfacts⟩ := bind_eq_ok.mp hall
  simp only [Except.ok.injEq, Prod.mk.injEq] at hfacts
  obtain ⟨hscore, hcontain, hquiet⟩ := hfacts
  have hblocks : ∀ e ∈ readAndOverwrite, e.1.kind = .write → 0 ≤ e.1.blocks := by decide
  obtain ⟨-, -, halert, -, hbound, -⟩ := scores_bounded policy (h₀.all hrun) hblocks
  refine ⟨policy, a, rfl, hscore, hcontain, halert hcontain, hbound (fun o ho => ?_)
    (by decide +kernel)⟩
  have hnot := List.all_eq_true.mp hquiet o ho
  rwa [Bool.not_eq_true'] at hnot

end WindowAnalyzer

end AegisShield
