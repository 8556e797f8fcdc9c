/-
# Coded payloads

Base64 or hexadecimal text has 64 byte values at most.  Its entropy is then at most 6, where the
scored component starts, and far from a high one.  So two of the eight components are 0, and without
a discard a third.  Whatever else is done, in whatever order and over however long a time, the score
stays below what the other weights can give: 0.74 of the default policy, which contains from 0.82 on
(`coded_writes_never_contain`).  It may alert, from 0.72 on.
-/
import AegisShield.Detection.Census
import AegisShield.Detection.Entropy
import AegisShield.Detection.Policy
import AegisShield.Lib.WeightedMean

namespace AegisShield

open Lib

/-! ## 1. Observations -/

/-- An event without a destructive command, whose payload has few byte values. -/
structure IoEvent.Coded (e : IoEvent) : Prop where
  admin : e.kind ≠ .admin
  deallocate : e.kind ≠ .deallocate
  payload : e.kind = .write → distinct e.payload ≤ 64

/-- What is observed of it. -/
structure Observation.Coded (o : Observation ℝ) : Prop where
  kind : o.kind ≠ .deallocate
  destructive : o.destructive = false
  entropy : o.entropy ≤ 6
  low : o.highEntropy = false
  changed : o.changedFraction ≤ 1

theorem logb_two_64 : Real.logb 2 (64 : Nat) = 6 := by
  have hpow : ((64 : Nat) : ℝ) = 2 ^ 6 := by norm_num
  rw [hpow, Real.logb_pow, Real.logb_self_eq_one one_lt_two]
  norm_num

/-- **The entropy of a coded payload.** -/
theorem shannonEntropy_coded {data : Bytes} (h : distinct data ≤ 64) :
    shannonEntropy (Real.logb 2) data ≤ 6 := by
  by_cases hnil : data = []
  · subst hnil
    have hzero : shannonEntropy (Real.logb 2) ([] : Bytes) = 0 := Rat.cast_zero
    rw [hzero]
    norm_num
  · have hle := shannonEntropy_le data
    have hlog := logb_distinct_le hnil h
    rw [logb_two_64] at hlog
    exact le_trans hle hlog

/-- A quotient of a part and the whole. -/
theorem cast_div_le_one {n d : ℚ} (hd : 0 ≤ d) (h : n ≤ d) : ((n / d : ℚ) : ℝ) ≤ 1 := by
  have hdiv : n / d ≤ 1 := div_le_one_of_le₀ h hd
  exact_mod_cast hdiv

theorem changedByteFraction_le {before after : Bytes} {x : ℝ}
    (h : changedByteFraction before after = .ok x) : x ≤ 1 := by
  unfold changedByteFraction at h
  split at h
  · cases h
  · split at h
    · cases h
      exact Rat.cast_zero.trans_le zero_le_one
    · cases h
      refine cast_div_le_one (Nat.cast_nonneg _) (Nat.cast_le.mpr ?_)
      refine le_trans List.countP_le_length ?_
      rw [List.length_zip]
      exact Nat.min_le_left _ _

namespace WindowAnalyzer

variable {a : WindowAnalyzer ℝ} {config : AnalyzerConfig ℝ} {event : IoEvent}
  {before : Option Bytes} {es : List (IoEvent × Option Bytes)}

theorem compare_le {r : Bool × ℝ} (h : a.compare event before = .ok r) : r.2 ≤ 1 := by
  unfold compare at h
  cases before with
  | none =>
    cases h
    exact Rat.cast_zero.trans_le zero_le_one
  | some bytes =>
    obtain ⟨x, hx, h⟩ := bind_eq_ok.mp h
    cases h
    exact changedByteFraction_le hx

/-- **A coded event is observed as one.** -/
theorem observation_coded {o : Observation ℝ} (hhigh : 6 < a.config.highEntropyBitsPerByte)
    (hcoded : event.Coded)
    (h : a.observation (shannonEntropy (Real.logb 2)) event before = .ok o) : o.Coded := by
  have hdestructive : (event.kind = .admin || event.kind = .deallocate : Bool) = false := by
    rw [decide_eq_false hcoded.admin, decide_eq_false hcoded.deallocate]
    rfl
  have hlow : ∀ x : ℝ, x ≤ 6 → Arith.le a.config.highEntropyBitsPerByte x = false :=
    fun x hx => decide_eq_false (not_le.mpr (lt_of_le_of_lt hx hhigh))
  unfold observation at h
  extract_lets destructive at h
  split at h
  · rename_i hwrite
    obtain ⟨⟨overwrite, change⟩, hcompare, h⟩ := bind_eq_ok.mp h
    cases h
    have hentropy := shannonEntropy_coded (hcoded.payload hwrite)
    exact ⟨hcoded.deallocate, hdestructive, hentropy, hlow _ hentropy, compare_le hcompare⟩
  · cases h
    have hzero : (Arith.ofRat 0 : ℝ) = 0 := Rat.cast_zero
    refine ⟨hcoded.deallocate, hdestructive, ?_, hlow _ ?_, ?_⟩
    · exact hzero.trans_le (by norm_num)
    · exact hzero.trans_le (by norm_num)
    · exact hzero.trans_le zero_le_one

/-- **Every observation of the window.** -/
theorem Observes.coded (h : Observes config (shannonEntropy (Real.logb 2)) es a)
    (hhigh : 6 < config.highEntropyBitsPerByte) :
    (∀ e ∈ es, e.1.Coded) → ∀ o ∈ a.window, o.Coded := by
  induction h with
  | init h =>
    unfold WindowAnalyzer.init at h
    split at h
    · cases h
    · cases h
      intro _ o ho
      exact absurd ho List.not_mem_nil
  | @observe es a a' event before f h hok ih =>
    intro hcoded
    obtain ⟨o, ho, rfl⟩ := observe_ok hok
    have hwindow := ih fun e he => hcoded e (List.mem_append_left _ he)
    have hlast : o.Coded := by
      refine observation_coded ?_ (hcoded (event, before)
        (List.mem_append_right _ (List.mem_singleton.mpr rfl))) ho
      rw [h.slides.sameConfig]
      exact hhigh
    intro o' ho'
    rcases List.mem_append.mp (List.mem_of_mem_drop ho') with hmem | hmem
    · exact hwindow o' hmem
    · rw [List.mem_singleton.mp hmem]
      exact hlast

/-! ## 2. Features -/

theorem ratio_le_one {n d : Int} (hd : 0 ≤ d) (hnd : n ≤ d) : (ratio n d : ℝ) ≤ 1 := by
  unfold ratio
  split
  · exact Rat.cast_zero.trans_le zero_le_one
  · exact cast_div_le_one (by exact_mod_cast hd) (Int.cast_le.mpr hnd)

theorem ratio_countP_le {α : Type} (p : α → Bool) (xs : List α) :
    (ratio (xs.countP p) xs.length : ℝ) ≤ 1 :=
  ratio_le_one (Int.natCast_nonneg _) (Int.ofNat_le.mpr List.countP_le_length)

theorem ratio_zero (d : Int) : (ratio 0 d : ℝ) = 0 := by
  unfold ratio
  split
  · exact Rat.cast_zero
  · rw [Int.cast_zero, zero_div]
    exact Rat.cast_zero

/-- The mean of numbers with a bound. -/
theorem meanOf_le {xs : List ℝ} {c : ℝ} (hc : 0 ≤ c) (h : ∀ x ∈ xs, x ≤ c) :
    (meanOf (Arith.sum xs) xs.length : ℝ) ≤ c := by
  have hsum : xs.sum ≤ xs.length • c := List.sum_le_card_nsmul xs c h
  unfold meanOf
  split
  · exact Rat.cast_zero.trans_le hc
  · rename_i hne
    have hpos : (0 : ℝ) < xs.length := by
      refine Nat.cast_pos.mpr (Nat.pos_of_ne_zero fun hzero => hne ?_)
      rw [hzero]
      rfl
    rw [nsmul_eq_mul, mul_comm] at hsum
    have hcast : (Arith.ofRat ((xs.length : Int) : ℚ) : ℝ) = xs.length := by
      change (((xs.length : Int) : ℚ) : ℝ) = _
      push_cast
      rfl
    rw [hcast]
    exact (div_le_iff₀ hpos).mpr hsum

end WindowAnalyzer

/-- The features of a window of coded events. -/
structure FeatureVector.Coded (f : FeatureVector ℝ) : Prop where
  destructive : f.destructiveCommandSeen = false
  entropy : f.meanWriteEntropy ≤ 6
  highEntropy : f.highEntropyWriteFraction = 0
  deallocate : f.deallocateFraction = 0
  overwrite : f.overwriteFraction ≤ 1
  changed : f.changedByteFraction ≤ 1
  readBeforeWrite : f.readBeforeWriteFraction ≤ 1
  write : f.writeFraction ≤ 1

/-- **The snapshot.** -/
theorem WindowAnalyzer.snapshot_coded {a : WindowAnalyzer ℝ} (h : ∀ o ∈ a.window, o.Coded) :
    a.snapshot.Coded := by
  have hwrites : ∀ o ∈ a.window.filter (fun o => o.kind = .write), o.Coded :=
    fun o ho => h o (List.mem_of_mem_filter ho)
  refine ⟨?_, ?_, ?_, ?_, ratio_countP_le _ _, ?_, ratio_countP_le _ _, ?_⟩
  · exact List.any_eq_false.mpr fun o ho => by rw [(h o ho).destructive]; decide
  · have hmean := meanOf_le (c := 6) (by norm_num)
      (List.forall_mem_map.mpr fun o ho => (hwrites o ho).entropy)
    rwa [List.length_map] at hmean
  · have hcount : (a.window.filter fun o => o.kind = .write).countP (fun o => o.highEntropy) = 0 :=
      List.countP_eq_zero.mpr fun o ho => by rw [(hwrites o ho).low]; decide
    change (ratio (((a.window.filter fun o => o.kind = .write).countP fun o => o.highEntropy : Nat)
      : Int) _ : ℝ) = 0
    rw [hcount]
    exact ratio_zero _
  · have hcount : a.window.countP (fun o => o.kind = .deallocate) = 0 :=
      List.countP_eq_zero.mpr fun o ho => by rw [decide_eq_false (h o ho).kind]; decide
    change (ratio ((a.window.countP (fun o => o.kind = .deallocate) : Nat) : Int) _ : ℝ) = 0
    rw [hcount]
    exact ratio_zero _
  · have hmean := meanOf_le (c := 1) zero_le_one
      (List.forall_mem_map.mpr fun o ho => (hwrites o ho).changed)
    rwa [List.length_map] at hmean
  · exact ratio_le_one (Int.natCast_nonneg _) (Int.ofNat_le.mpr (List.length_filter_le _ _))

/-! ## 3. Scores -/

theorem min_real (x y : ℝ) : Arith.min x y = min x y := by
  by_cases h : y < x
  · have hlt : Arith.lt y x = true := decide_eq_true h
    rw [Arith.min, if_pos hlt, min_eq_right (le_of_lt h)]
  · have hlt : ¬ Arith.lt y x = true := fun hlt => h (of_decide_eq_true hlt)
    rw [Arith.min, if_neg hlt, min_eq_left (not_lt.mp h)]

theorem max_real (x y : ℝ) : Arith.max x y = max x y := by
  by_cases h : x < y
  · have hlt : Arith.lt x y = true := decide_eq_true h
    rw [Arith.max, if_pos hlt, max_eq_right (le_of_lt h)]
  · have hlt : ¬ Arith.lt x y = true := fun hlt => h (of_decide_eq_true hlt)
    rw [Arith.max, if_neg hlt, max_eq_left (not_lt.mp h)]

theorem clamp_real (x : ℝ) : clamp x = max 0 (min 1 x) := by
  have hzero : (Arith.ofRat 0 : ℝ) = 0 := Rat.cast_zero
  have hone : (Arith.ofRat 1 : ℝ) = 1 := Rat.cast_one
  rw [clamp, max_real, min_real, hzero, hone]

theorem clamp_le_one (x : ℝ) : clamp x ≤ 1 := by
  rw [clamp_real]
  exact max_le zero_le_one (min_le_left _ _)

theorem clamp_of_nonpos {x : ℝ} (h : x ≤ 0) : clamp x = 0 := by
  rw [clamp_real, min_eq_right (le_trans h zero_le_one), max_eq_left h]

/-- The names that coded events leave at 0. -/
def codedNames : List String := ["entropy", "high_entropy", "deallocate"]

/-- The value of a component, 0 for a name that has none. -/
noncomputable def FeatureVector.value (f : FeatureVector ℝ) (name : String) : ℝ :=
  (f.components.lookup name).getD (Arith.ofRat 0)

/-- A value that is looked up is one of the table's, or 0. -/
theorem FeatureVector.value_cases (f : FeatureVector ℝ) (name : String) :
    (name, f.value name) ∈ f.components ∨ f.value name = 0 := by
  unfold value
  cases hlookup : f.components.lookup name with
  | none => exact Or.inr Rat.cast_zero
  | some x =>
    obtain ⟨pre, post, heq, -⟩ := List.lookup_eq_some_iff.mp hlookup
    exact Or.inl (by rw [heq]; exact List.mem_append_right _ List.mem_cons_self)

theorem FeatureVector.Coded.value_le {f : FeatureVector ℝ} (h : f.Coded) (name : String) :
    f.value name ≤ 1 := by
  have hall : ∀ c ∈ f.components, c.2 ≤ 1 := by
    simp only [components, List.forall_mem_cons, List.not_mem_nil, false_imp_iff, implies_true,
      and_true]
    exact ⟨clamp_le_one _, h.highEntropy.trans_le zero_le_one, h.overwrite, h.changed,
      clamp_le_one _, h.readBeforeWrite, h.write, clamp_le_one _⟩
  rcases f.value_cases name with hmem | hzero
  · exact hall _ hmem
  · exact hzero.trans_le zero_le_one

theorem FeatureVector.Coded.value_zero {f : FeatureVector ℝ} (h : f.Coded) (name : String)
    (hname : name ∈ codedNames) : f.value name = 0 := by
  have hentropy : f.value "entropy" = 0 := by
    refine clamp_of_nonpos ?_
    change (f.meanWriteEntropy - ((6 : ℚ) : ℝ)) / ((2 : ℚ) : ℝ) ≤ 0
    have hmean := h.entropy
    push_cast
    linarith
  have hdeallocate : f.value "deallocate" = 0 := by
    refine clamp_of_nonpos ?_
    change f.deallocateFraction * ((10 : ℚ) : ℝ) ≤ 0
    rw [h.deallocate, zero_mul]
  simp only [codedNames, List.mem_cons, List.not_mem_nil, or_false] at hname
  rcases hname with rfl | rfl | rfl
  · exact hentropy
  · exact h.highEntropy
  · exact hdeallocate

namespace Policy

variable {policy : Policy ℝ} {f : FeatureVector ℝ}

theorem weights_nonneg (policy : Policy ℝ) : ∀ w ∈ policy.config.weights, 0 ≤ w.2 := by
  have h := policy.accepted
  unfold PolicyConfig.check at h
  extract_lets unknown at h
  split at h
  · cases h
  · split at h
    · cases h
    · split at h
      · cases h
      · rename_i hweights
        intro w hw
        by_contra hneg
        refine hweights (List.any_eq_true.mpr ⟨w, hw, decide_eq_true ?_⟩)
        exact (not_le.mp hneg).trans_eq Rat.cast_zero.symm

/-- What the other names weigh. -/
noncomputable def restWeight (policy : Policy ℝ) : ℝ :=
  totalWeight (policy.config.weights.filter fun w => decide (w.1 ∉ codedNames))

/-- **The score of coded events** is at most the share of the other weights. -/
theorem score_coded (h : f.Coded) (hpos : 0 < totalWeight policy.config.weights) :
    policy.config.score f ≤ policy.restWeight / totalWeight policy.config.weights := by
  have hsum : weightedSum f.value policy.config.weights ≤ policy.restWeight := by
    refine weightedSum_le_filter (p := fun name => decide (name ∉ codedNames)) ?_ h.value_le
      policy.weights_nonneg
    intro name hname
    exact (h.value_zero name (by simpa using hname)).le
  have hscore : policy.config.score f =
      weightedSum f.value policy.config.weights / totalWeight policy.config.weights := by
    have htruthy : Arith.truthy (totalWeight policy.config.weights) = true := by
      refine Bool.or_eq_true_iff.mpr (Or.inr (decide_eq_true ?_))
      exact Rat.cast_zero.trans_lt hpos
    have hdef : policy.config.score f = weightedSum f.value policy.config.weights /
      (if Arith.truthy (totalWeight policy.config.weights) then totalWeight policy.config.weights
        else Arith.ofRat 1) := rfl
    rw [hdef, if_pos htruthy]
  rw [hscore]
  exact div_le_div_of_nonneg_right hsum hpos.le

theorem restWeight_nonneg (policy : Policy ℝ) : 0 ≤ policy.restWeight :=
  totalWeight_nonneg fun w hw => policy.weights_nonneg w (List.mem_of_mem_filter hw)

/-- **The verdict.** -/
theorem evaluate_coded (h : f.Coded) (hpos : 0 < totalWeight policy.config.weights)
    (hrest : policy.restWeight / totalWeight policy.config.weights <
      policy.config.containmentThreshold) :
    (policy.evaluate f).score ≤ policy.restWeight / totalWeight policy.config.weights ∧
      (policy.evaluate f).contain = false := by
  have hshare : 0 ≤ policy.restWeight / totalWeight policy.config.weights :=
    div_nonneg policy.restWeight_nonneg hpos.le
  unfold evaluate
  extract_lets config
  rw [if_neg (by rw [h.destructive]; decide)]
  by_cases hshort : (f.operations : Int) < config.minimumOperations
  · rw [if_pos hshort]
    exact ⟨Rat.cast_zero.trans_le hshare, rfl⟩
  · have hscore := score_coded h hpos
    rw [if_neg hshort]
    refine ⟨hscore, ?_⟩
    have hlow : Arith.le config.containmentThreshold (config.score f) = false :=
      decide_eq_false (not_le.mpr (lt_of_le_of_lt hscore hrest))
    exact Bool.and_eq_false_iff.mpr (Or.inr hlow)

end Policy

/-! ## 4. Main result -/

namespace WindowAnalyzer

variable {policy : Policy ℝ} {a : WindowAnalyzer ℝ} {config : AnalyzerConfig ℝ}
  {es : List (IoEvent × Option Bytes)} {blocks : Nat}

/-- **Every run of coded events**, under a policy that wants more than the other weights give. -/
theorem Observes.evaluate_coded (policy : Policy ℝ)
    (h : Observes config (shannonEntropy (Real.logb 2)) es a)
    (hhigh : 6 < config.highEntropyBitsPerByte) (hcoded : ∀ e ∈ es, e.1.Coded)
    (hpos : 0 < totalWeight policy.config.weights)
    (hrest : policy.restWeight / totalWeight policy.config.weights <
      policy.config.containmentThreshold) :
    (policy.evaluate a.snapshot).score ≤ policy.restWeight / totalWeight policy.config.weights ∧
      (policy.evaluate a.snapshot).contain = false :=
  Policy.evaluate_coded (snapshot_coded (h.coded hhigh hcoded)) hpos hrest

/-- The default weights. -/
theorem totalWeight_standard :
    totalWeight (PolicyConfig.standard : PolicyConfig ℝ).weights = 1 := by
  change totalWeight [_, _, _, _, _, _, _, _] = (1 : ℝ)
  simp only [totalWeight, List.map_cons, List.map_nil, List.sum_cons, List.sum_nil, Arith.ofRat]
  norm_num

theorem restWeight_standard (h : policy.config = PolicyConfig.standard) :
    policy.restWeight = 74 / 100 := by
  have hrest : policy.restWeight = totalWeight [("changed", (Arith.ofRat (10 / 100) : ℝ)),
      ("read_before_write", Arith.ofRat (24 / 100)), ("overwrite", Arith.ofRat (18 / 100)),
      ("coverage", Arith.ofRat (16 / 100)), ("write_fraction", Arith.ofRat (6 / 100))] := by
    rw [Policy.restWeight, h]
    rfl
  rw [hrest]
  simp only [totalWeight, List.map_cons, List.map_nil, List.sum_cons, List.sum_nil, Arith.ofRat]
  norm_num

/-- **Coded writes never contain.**  However the default analyzer and policy are driven with events
that are not destructive, whose payloads have no more than 64 byte values. -/
theorem coded_writes_never_contain (hpolicy : policy.config = PolicyConfig.standard)
    (h : Observes (AnalyzerConfig.forNamespace blocks) (shannonEntropy (Real.logb 2)) es a)
    (hcoded : ∀ e ∈ es, e.1.Coded) :
    (policy.evaluate a.snapshot).score ≤ 74 / 100 ∧
      (policy.evaluate a.snapshot).contain = false := by
  have htotal : totalWeight policy.config.weights = 1 := by rw [hpolicy, totalWeight_standard]
  have hthreshold : policy.config.containmentThreshold = 82 / 100 := by
    rw [hpolicy]
    change ((82 / 100 : ℚ) : ℝ) = _
    norm_num
  have hhigh : (6 : ℝ) <
      (AnalyzerConfig.forNamespace blocks : AnalyzerConfig ℝ).highEntropyBitsPerByte := by
    change (6 : ℝ) < ((75 / 10 : ℚ) : ℝ)
    norm_num
  have hbound := h.evaluate_coded policy hhigh hcoded (by rw [htotal]; norm_num)
    (by rw [htotal, restWeight_standard hpolicy, hthreshold]; norm_num)
  rwa [htotal, div_one, restWeight_standard hpolicy] at hbound

/-- The default policy is accepted. -/
theorem standard_accepted : (PolicyConfig.standard : PolicyConfig ℝ).check = .ok () := by
  have hle : ∀ x y : ℚ, x ≤ y → Arith.le (Arith.ofRat x : ℝ) (Arith.ofRat y) = true :=
    fun x y hxy => decide_eq_true (Rat.cast_le.mpr hxy)
  have hlt : ∀ x : ℚ, 0 ≤ x → Arith.lt (Arith.ofRat x : ℝ) (Arith.ofRat 0) = false :=
    fun x hx => decide_eq_false (not_lt.mpr (Rat.cast_le.mpr hx))
  have hnames : ((PolicyConfig.standard : PolicyConfig ℝ).weights.map Prod.fst).filter
      (fun name => name ∉ allowedWeights) = [] := rfl
  unfold PolicyConfig.check
  extract_lets unknown
  have hunknown : unknown = [] := (congrArg (fun names => List.mergeSort names _) hnames).trans
    List.mergeSort_nil
  have hthresholds :
      (Arith.le (Arith.ofRat 0) (PolicyConfig.standard : PolicyConfig ℝ).alertThreshold &&
      Arith.le (PolicyConfig.standard : PolicyConfig ℝ).alertThreshold
        (PolicyConfig.standard : PolicyConfig ℝ).containmentThreshold &&
      Arith.le (PolicyConfig.standard : PolicyConfig ℝ).containmentThreshold (Arith.ofRat 1)) =
        true := by
    rw [Bool.and_eq_true, Bool.and_eq_true]
    exact ⟨⟨hle _ _ (by norm_num), hle _ _ (by norm_num)⟩, hle _ _ (by norm_num)⟩
  have hweights : ((PolicyConfig.standard : PolicyConfig ℝ).weights.any
      fun w => Arith.lt w.2 (Arith.ofRat 0)) = false := by
    refine List.any_eq_false.mpr fun w hw => Bool.not_eq_true _ ▸ ?_
    simp only [PolicyConfig.standard, List.mem_cons, List.not_mem_nil, or_false] at hw
    rcases hw with rfl | rfl | rfl | rfl | rfl | rfl | rfl | rfl <;> exact hlt _ (by norm_num)
  rw [if_neg (not_not.mpr hunknown), hthresholds, hweights]
  rfl

/-- A device of sixteen blocks, and text over eight of them: the window is long enough to be scored,
and does not contain. -/
theorem coded_writes_never_contain_text : ∃ (policy : Policy ℝ) (a : WindowAnalyzer ℝ),
    policy.config = PolicyConfig.standard ∧
      policy.config.minimumOperations ≤ (a.snapshot.operations : Int) ∧
      (policy.evaluate a.snapshot).score ≤ 74 / 100 ∧
      (policy.evaluate a.snapshot).contain = false := by
  have h₀ : Observes (AnalyzerConfig.forNamespace 16) (shannonEntropy (Real.logb 2)) [] _ :=
    .init rfl
  have hfits : ∀ e ∈ readAndOverwrite, ∀ bytes ∈ e.2, bytes.length = e.1.payload.length := by
    decide
  have htext : distinct [81, 85] ≤ 64 := by decide
  have hcoded : ∀ e ∈ readAndOverwrite, e.1.Coded := by
    intro e he
    obtain ⟨n, -, he⟩ := List.mem_flatMap.mp he
    rcases List.mem_cons.mp he with rfl | he
    · constructor <;> simp
    · rw [List.mem_singleton.mp he]
      exact ⟨by simp, by simp, fun _ => htext⟩
  obtain ⟨a, ha⟩ := h₀.exists_all readAndOverwrite hfits
  have hlength : a.window.length = 16 := ha.slides.length_window
  refine ⟨⟨PolicyConfig.standard, standard_accepted⟩, a, rfl, ?_,
    coded_writes_never_contain rfl ha hcoded⟩
  show (16 : Int) ≤ (a.window.length : Int)
  rw [hlength]
  exact le_refl _

end WindowAnalyzer

end AegisShield
