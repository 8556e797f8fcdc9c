/-
# What the separation of a benchmark says (`core/benchmark.py`, `separation`)

"Positive means a threshold exists that separates the two sets cleanly.  Negative means no single
threshold can."  Over exact arithmetic this is so: a score depends on the thresholds of the policy
nowhere, a workload is contained just if its peak reaches the containment threshold, and so the gap
between the peaks is positive if and only if the benchmark can be run again, under a policy with
other thresholds, without a false positive and without a miss (`separation_pos_iff`).
-/
import AegisShield.Detection.Benchmark
import AegisShield.Detection.Scores

namespace AegisShield

open Lib

variable {entropy : Bytes → ℚ} {policy policy' : Policy ℚ} {blocks blockSize : Nat}

/-! ## 1. Bounds of a list -/

theorem le_foldl_min {t : ℚ} : ∀ {xs : List ℚ} {x : ℚ},
    t ≤ xs.foldl Arith.min x ↔ ∀ y ∈ x :: xs, t ≤ y
  | [], x => by simp
  | y :: xs, x => by
    rw [List.foldl_cons, le_foldl_min, min_rat]
    simp only [List.forall_mem_cons, le_min_iff, and_assoc]

theorem foldl_max_lt {t : ℚ} : ∀ {xs : List ℚ} {x : ℚ},
    xs.foldl Arith.max x < t ↔ ∀ y ∈ x :: xs, y < t
  | [], x => by simp
  | y :: xs, x => by
    rw [List.foldl_cons, foldl_max_lt, max_rat]
    simp only [List.forall_mem_cons, max_lt_iff, and_assoc]

/-- **The separation is positive** if and only if a number lies between the two sets. -/
theorem BenchmarkReport.separation_pos {r : BenchmarkReport ℚ} (hbenign : r.benign ≠ [])
    (hransomware : r.ransomware ≠ []) :
    0 < r.separation ↔
      ∃ t, (∀ x ∈ r.benign, x.peakScore < t) ∧ ∀ x ∈ r.ransomware, t ≤ x.peakScore := by
  obtain ⟨b, bs, hb⟩ := List.exists_cons_of_ne_nil hbenign
  obtain ⟨q, qs, hq⟩ := List.exists_cons_of_ne_nil hransomware
  have hseparation : r.separation =
      (qs.map (·.peakScore)).foldl Arith.min q.peakScore -
        (bs.map (·.peakScore)).foldl Arith.max b.peakScore := by
    rw [separation, hb, hq]
    rfl
  have hlow : ∀ t, (∀ x ∈ r.benign, x.peakScore < t) ↔
      (bs.map (·.peakScore)).foldl Arith.max b.peakScore < t := by
    intro t
    rw [foldl_max_lt, hb, ← List.map_cons, List.forall_mem_map]
  have hhigh : ∀ t, (∀ x ∈ r.ransomware, t ≤ x.peakScore) ↔
      t ≤ (qs.map (·.peakScore)).foldl Arith.min q.peakScore := by
    intro t
    rw [le_foldl_min, hq, ← List.map_cons, List.forall_mem_map]
  rw [hseparation, sub_pos]
  constructor
  · intro h
    exact ⟨_, (hlow _).mpr h, (hhigh _).mpr (le_refl _)⟩
  · rintro ⟨t, hbelow, habove⟩
    exact lt_of_lt_of_le ((hlow t).mp hbelow) ((hhigh t).mp habove)

/-! ## 2. Scores and thresholds -/

/-- Two policies that score alike; their thresholds may differ. -/
structure Policy.SameScores (policy policy' : Policy ℚ) : Prop where
  operations : policy'.config.minimumOperations = policy.config.minimumOperations
  weights : policy'.config.weights = policy.config.weights

/-- **A score depends on no threshold.** -/
theorem Policy.SameScores.score (h : policy.SameScores policy') (f : FeatureVector ℚ) :
    (policy'.evaluate f).score = (policy.evaluate f).score := by
  have hscore : policy'.config.score f = policy.config.score f := by
    rw [PolicyConfig.score, h.weights]
    rfl
  cases hdestructive : f.destructiveCommandSeen with
  | true => rw [evaluate_destructive_eq hdestructive, evaluate_destructive_eq hdestructive]
  | false =>
    by_cases hshort : (f.operations : Int) < policy.config.minimumOperations
    · rw [evaluate_short_eq hdestructive hshort,
        evaluate_short_eq hdestructive (by rwa [h.operations])]
    · rw [(evaluate_scored hdestructive hshort).1,
        (evaluate_scored hdestructive (by rwa [h.operations])).1, hscore]

/-- **A decision contains** just if its score reaches the threshold. -/
theorem Policy.contain_iff (hpos : 0 < policy.config.containmentThreshold) (f : FeatureVector ℚ) :
    (policy.evaluate f).contain = true ↔ policy.config.containmentEnabled = true ∧
      policy.config.containmentThreshold ≤ (policy.evaluate f).score := by
  cases hdestructive : f.destructiveCommandSeen with
  | true =>
    rw [evaluate_destructive_eq hdestructive]
    exact ⟨fun h => ⟨h, policy.valid.containment_le⟩, And.left⟩
  | false =>
    by_cases hshort : (f.operations : Int) < policy.config.minimumOperations
    · rw [evaluate_short_eq hdestructive hshort]
      have hnot : ¬ policy.config.containmentThreshold ≤ 0 := not_le.mpr hpos
      exact ⟨fun h => absurd h Bool.false_ne_true, fun h => absurd h.2 hnot⟩
    · obtain ⟨hscore, -, hcontain⟩ := evaluate_scored hdestructive hshort
      rw [hcontain, hscore]

/-! ## 3. A run of the benchmark -/

namespace Benchmarking

variable {b b' c : Benchmarking ℚ} {e : IoEvent} {v : Verdict ℚ}

theorem step_ok (h : b.step entropy policy blockSize e = .ok (b', v)) :
    ∃ o, b.analyzer.observation entropy e (b.before blockSize e) = .ok o ∧
      v = policy.evaluate (b.analyzer.record e o).snapshot ∧
      b' = b.tally e (b.analyzer.record e o) v := by
  obtain ⟨⟨a, f⟩, hobserve, h⟩ := bind_eq_ok.mp h
  obtain ⟨o, ho, hok⟩ := bind_eq_ok.mp hobserve
  cases hok
  cases h
  exact ⟨o, ho, rfl, rfl⟩

/-- **Invariants of the loop.** -/
theorem run_keeps {I : Benchmarking ℚ → Prop} : ∀ {events : List IoEvent} {b b' : Benchmarking ℚ},
    (∀ e ∈ events, ∀ b b' v, b.step entropy policy blockSize e = .ok (b', v) → I b → I b') →
    b.run entropy policy blockSize events = .ok b' → I b → I b'
  | [], b, b', _, h, hb => by
    cases h
    exact hb
  | e :: events, b, b', hstep, h, hb => by
    obtain ⟨⟨b₁, v⟩, hfirst, hrest⟩ := bind_eq_ok.mp h
    refine run_keeps (fun e' he' => hstep e' (List.mem_cons_of_mem _ he')) hrest ?_
    exact hstep e List.mem_cons_self b b₁ v hfirst hb

theorem peak_tally (e : IoEvent) (a : WindowAnalyzer ℚ) (v : Verdict ℚ) :
    (b.tally e a v).peak = max b.peak v.score := by
  have hpeak : (b.tally e a v).peak = Arith.max b.peak v.score := rfl
  rw [hpeak, max_rat]

/-- **Contained is: the peak has reached the threshold.** -/
theorem run_contained (hpos : 0 < policy.config.containmentThreshold) {events : List IoEvent}
    (h : b.run entropy policy blockSize events = .ok b')
    (hb : b.contained = true ↔ policy.config.containmentEnabled = true ∧
      policy.config.containmentThreshold ≤ b.peak) :
    b'.contained = true ↔ policy.config.containmentEnabled = true ∧
      policy.config.containmentThreshold ≤ b'.peak := by
  refine run_keeps (I := fun b => b.contained = true ↔ policy.config.containmentEnabled = true ∧
    policy.config.containmentThreshold ≤ b.peak) ?_ h hb
  intro e _ b₁ b₂ v hstep h₁
  obtain ⟨o, -, rfl, rfl⟩ := step_ok hstep
  rw [peak_tally, le_max_iff, and_or_left, ← h₁, ← Policy.contain_iff hpos]
  exact Bool.or_eq_true_iff

/-- **The peak is a fraction.** -/
theorem run_peak {events : List IoEvent} (h : b.run entropy policy blockSize events = .ok b')
    (hwindow : ∀ o ∈ b.analyzer.window, Fraction o.changedFraction) (hpeak : Fraction b.peak) :
    Fraction b'.peak := by
  refine (run_keeps (I := fun b => (∀ o ∈ b.analyzer.window, Fraction o.changedFraction) ∧
    Fraction b.peak) ?_ h ⟨hwindow, hpeak⟩).2
  rintro e he b₁ b₂ v hstep ⟨hwindow₁, hpeak₁⟩
  obtain ⟨o, ho, rfl, rfl⟩ := step_ok hstep
  have hwindow₂ : ∀ o' ∈ (b₁.analyzer.record e o).window, Fraction o'.changedFraction := by
    intro o' ho'
    rcases List.mem_append.mp (List.mem_of_mem_drop ho') with hmem | hmem
    · exact hwindow₁ o' hmem
    · rw [List.mem_singleton.mp hmem]
      exact WindowAnalyzer.observation_changed ho
  obtain ⟨hscore, -⟩ := policy.evaluate_bounds (WindowAnalyzer.components_snapshot hwindow₂)
  refine ⟨hwindow₂, ?_⟩
  rw [peak_tally]
  exact ⟨le_max_of_le_left hpeak₁.1, max_le hpeak₁.2 hscore.2⟩

/-- Two loops that have observed the same and peaked alike. -/
structure Alike (b c : Benchmarking ℚ) : Prop where
  analyzer : c.analyzer = b.analyzer
  written : c.written = b.written
  peak : c.peak = b.peak

/-- **The same run under other thresholds.** -/
theorem run_alike (hscores : policy.SameScores policy') : ∀ {events : List IoEvent}
    {b b' c : Benchmarking ℚ}, b.Alike c → b.run entropy policy blockSize events = .ok b' →
      ∃ c', c.run entropy policy' blockSize events = .ok c' ∧ b'.Alike c'
  | [], b, b', c, h, hrun => by
    cases hrun
    exact ⟨c, rfl, h⟩
  | e :: events, b, b', c, h, hrun => by
    obtain ⟨⟨b₁, v⟩, hfirst, hrest⟩ := bind_eq_ok.mp hrun
    obtain ⟨o, ho, rfl, rfl⟩ := step_ok hfirst
    let w := policy'.evaluate (c.analyzer.record e o).snapshot
    have hbefore : c.before blockSize e = b.before blockSize e := by
      rw [before, h.written]
      rfl
    have hobserve : c.analyzer.observe entropy e (c.before blockSize e) =
        .ok (c.analyzer.record e o, (c.analyzer.record e o).snapshot) := by
      rw [h.analyzer, hbefore]
      exact bind_eq_ok.mpr ⟨o, ho, rfl⟩
    have hstep : c.step entropy policy' blockSize e =
        .ok (c.tally e (c.analyzer.record e o) w, w) := by
      rw [step, bind_of_ok hobserve]
      rfl
    have halike : (b.tally e (b.analyzer.record e o)
        (policy.evaluate (b.analyzer.record e o).snapshot)).Alike
          (c.tally e (c.analyzer.record e o) w) := by
      refine ⟨congrArg (fun a => a.record e o) h.analyzer, ?_, ?_⟩
      · simp only [tally, h.written]
      · rw [peak_tally, peak_tally, h.peak, hscores.score, h.analyzer]
    obtain ⟨c', hc', hlast⟩ := run_alike hscores halike hrest
    refine ⟨c', ?_, hlast⟩
    rw [run, bind_of_ok hstep]
    exact hc'

end Benchmarking

/-! ## 4. Reports -/

section Report

variable {userText : Int → Nat → Nat → Bytes} {seed : Int} {w : Workload} {r : WorkloadResult ℚ}

/-- **A result** is contained just if its peak has reached the threshold. -/
theorem runWorkload_contained (hpos : 0 < policy.config.containmentThreshold)
    (h : runWorkload entropy userText policy blocks blockSize seed w = .ok r) :
    r.contained = true ↔ policy.config.containmentEnabled = true ∧
      policy.config.containmentThreshold ≤ r.peakScore := by
  obtain ⟨a, -, h⟩ := bind_eq_ok.mp h
  obtain ⟨b, hrun, h⟩ := bind_eq_ok.mp h
  cases h
  refine Benchmarking.run_contained hpos hrun ⟨fun h => absurd h Bool.false_ne_true, fun h => ?_⟩
  exact absurd h.2 (not_le.mpr hpos)

theorem runWorkload_peak
    (h : runWorkload entropy userText policy blocks blockSize seed w = .ok r) :
    Fraction r.peakScore := by
  obtain ⟨a, hinit, h⟩ := bind_eq_ok.mp h
  obtain ⟨b, hrun, h⟩ := bind_eq_ok.mp h
  cases h
  refine Benchmarking.run_peak hrun ?_ fraction_zero
  unfold WindowAnalyzer.init at hinit
  split at hinit
  · cases hinit
  · cases hinit
    exact fun o ho => absurd ho List.not_mem_nil

/-- The same workload under other thresholds. -/
theorem runWorkload_alike (hscores : policy.SameScores policy')
    (h : runWorkload entropy userText policy blocks blockSize seed w = .ok r) :
    ∃ r', runWorkload entropy userText policy' blocks blockSize seed w = .ok r' ∧
      r'.kind = r.kind ∧ r'.peakScore = r.peakScore := by
  obtain ⟨a, hinit, h⟩ := bind_eq_ok.mp h
  obtain ⟨b, hrun, h⟩ := bind_eq_ok.mp h
  cases h
  obtain ⟨c, hc, halike⟩ := Benchmarking.run_alike hscores ⟨rfl, rfl, rfl⟩ hrun
  exact ⟨c.result w, bind_eq_ok.mpr ⟨a, hinit, bind_eq_ok.mpr ⟨c, hc, rfl⟩⟩, rfl, halike.peak⟩

/-- The same benchmark under other thresholds. -/
theorem runBenchmark_alike (hscores : policy.SameScores policy') :
    ∀ {workloads : List Workload} {results : List (WorkloadResult ℚ)},
      List.Forall₂ (fun w r => runWorkload entropy userText policy blocks blockSize seed w = .ok r)
        workloads results →
      ∃ results', List.Forall₂
          (fun w r => runWorkload entropy userText policy' blocks blockSize seed w = .ok r)
          workloads results' ∧
        List.Forall₂ (fun r r' => r'.kind = r.kind ∧ r'.peakScore = r.peakScore) results results'
  | [], _, h => by
    cases h
    exact ⟨[], .nil, .nil⟩
  | w :: workloads, _, h => by
    cases h with
    | cons hw hrest =>
      obtain ⟨r', hr', hkind, hpeak⟩ := runWorkload_alike hscores hw
      obtain ⟨results', hresults', hsame⟩ := runBenchmark_alike hscores hrest
      exact ⟨r' :: results', .cons hr' hresults', .cons ⟨hkind, hpeak⟩ hsame⟩

/-- The same peaks in both sets. -/
theorem forall_same {results results' : List (WorkloadResult ℚ)}
    (h : List.Forall₂ (fun r r' => r'.kind = r.kind ∧ r'.peakScore = r.peakScore) results results')
    (kind : String) (P : ℚ → Prop) :
    (∀ x ∈ results'.filter (fun x => x.kind = kind), P x.peakScore) ↔
      ∀ x ∈ results.filter (fun x => x.kind = kind), P x.peakScore := by
  simp only [List.mem_filter, decide_eq_true_eq]
  induction h with
  | nil => simp
  | cons hr _ ih =>
    obtain ⟨hkind, hpeak⟩ := hr
    simp only [List.forall_mem_cons, and_imp] at ih ⊢
    rw [hkind, hpeak, ih]

/-- **No false positive and no miss**: the threshold lies between the two sets. -/
theorem clean_iff (hpos : 0 < policy.config.containmentThreshold)
    (henabled : policy.config.containmentEnabled = true) {workloads : List Workload}
    (report : BenchmarkReport ℚ) (h : List.Forall₂
      (fun w r => runWorkload entropy userText policy blocks blockSize seed w = .ok r) workloads
      report.results) :
    report.falsePositives = [] ∧ report.falseNegatives = [] ↔
      (∀ x ∈ report.benign, x.peakScore < policy.config.containmentThreshold) ∧
        ∀ x ∈ report.ransomware, policy.config.containmentThreshold ≤ x.peakScore := by
  have hcontained : ∀ x ∈ report.results,
      (x.contained = true ↔ policy.config.containmentThreshold ≤ x.peakScore) := by
    intro x hx
    obtain ⟨w, -, hw⟩ := exists_of_forall₂ h.flip x hx
    rw [runWorkload_contained hpos hw]
    exact and_iff_right henabled
  have hmem : ∀ kind, ∀ x ∈ report.results.filter (fun x => x.kind = kind),
      x ∈ report.results := fun _ _ hx => (List.mem_filter.mp hx).1
  rw [BenchmarkReport.falsePositives, BenchmarkReport.falseNegatives, List.filter_eq_nil_iff,
    List.filter_eq_nil_iff]
  refine and_congr ?_ ?_
  · refine forall₂_congr fun x hx => ?_
    rw [hcontained x (hmem _ x hx), not_le]
  · refine forall₂_congr fun x hx => ?_
    rw [Bool.not_eq_true', Bool.not_eq_false, hcontained x (hmem _ x hx)]

/-! ## 5. Main result -/

/-- A policy may be given any thresholds that are in order. -/
theorem PolicyConfig.check_thresholds {config : PolicyConfig ℚ} (h : config.check = .ok ()) {t : ℚ}
    (ht : Fraction t) : PolicyConfig.check { config with
      alertThreshold := 0, containmentThreshold := t, containmentEnabled := true } = .ok () := by
  unfold check at h ⊢
  extract_lets unknown at h ⊢
  split at h
  · cases h
  rename_i hknown
  split at h
  · cases h
  split at h
  · cases h
  rename_i hweights
  have hordered : (Arith.le (Arith.ofRat 0) (0 : ℚ) && Arith.le 0 t && Arith.le t (Arith.ofRat 1)) =
      true := by
    rw [Bool.and_eq_true, Bool.and_eq_true]
    exact ⟨⟨decide_eq_true (le_refl 0), decide_eq_true ht.1⟩, decide_eq_true ht.2⟩
  rw [if_neg hknown, hordered, if_neg (by decide), if_neg hweights]

/-- **A positive separation is a threshold that separates**: the benchmark has a gap between its
quietest attack and its loudest benign workload if and only if it can be run again, under a policy
with the same weights and another containment threshold, without a false positive and a miss. -/
theorem separation_pos_iff {workloads : List Workload} {report : BenchmarkReport ℚ}
    (hreport : runBenchmark entropy userText policy workloads blocks blockSize seed = .ok report)
    (hbenign : report.benign ≠ []) (hransomware : report.ransomware ≠ []) :
    0 < report.separation ↔ ∃ policy' : Policy ℚ, policy.SameScores policy' ∧
      policy'.config.containmentEnabled = true ∧ 0 < policy'.config.containmentThreshold ∧
      ∃ report', runBenchmark entropy userText policy' workloads blocks blockSize seed = .ok report' ∧
        report'.falsePositives = [] ∧ report'.falseNegatives = [] := by
  obtain ⟨results, hresults, h⟩ := bind_eq_ok.mp hreport
  cases h
  have hforall := mapM_eq_ok.mp hresults
  have hpeaks : ∀ x ∈ results, Fraction x.peakScore := by
    intro x hx
    obtain ⟨w, -, hrun⟩ := exists_of_forall₂ hforall.flip x hx
    exact runWorkload_peak hrun
  rw [BenchmarkReport.separation_pos hbenign hransomware]
  constructor
  · rintro ⟨t, hbelow, habove⟩
    -- the number between the two sets is a threshold
    obtain ⟨b, hb⟩ := List.exists_mem_of_ne_nil _ hbenign
    obtain ⟨q, hq⟩ := List.exists_mem_of_ne_nil _ hransomware
    have hpos : 0 < t := lt_of_le_of_lt (hpeaks b (List.mem_filter.mp hb).1).1 (hbelow b hb)
    have hle : t ≤ 1 := le_trans (habove q hq) (hpeaks q (List.mem_filter.mp hq).1).2
    let policy' : Policy ℚ :=
      ⟨_, PolicyConfig.check_thresholds policy.accepted ⟨le_of_lt hpos, hle⟩⟩
    have hscores : policy.SameScores policy' := ⟨rfl, rfl⟩
    obtain ⟨results', hresults', hsame⟩ := runBenchmark_alike hscores hforall
    have hclean := clean_iff hpos rfl ⟨results', policy'.config⟩ hresults'
    have hbelow' := (forall_same hsame "benign" (· < t)).mpr hbelow
    have habove' := (forall_same hsame "ransomware" (t ≤ ·)).mpr habove
    have hreport' : runBenchmark entropy userText policy' workloads blocks blockSize seed =
        .ok ⟨results', policy'.config⟩ :=
      bind_eq_ok.mpr ⟨results', mapM_eq_ok.mpr hresults', rfl⟩
    exact ⟨policy', hscores, rfl, hpos, _, hreport', hclean.mpr ⟨hbelow', habove'⟩⟩
  · rintro ⟨policy', hscores, henabled, hpos, report', hreport', hclean⟩
    obtain ⟨results', hresults', hsame⟩ := runBenchmark_alike hscores hforall
    obtain ⟨results'', hresults'', h⟩ := bind_eq_ok.mp hreport'
    cases h
    obtain rfl : results' = results'' :=
      Except.ok.inj ((mapM_eq_ok.mpr hresults').symm.trans hresults'')
    obtain ⟨hbelow', habove'⟩ := (clean_iff hpos henabled _ hresults').mp hclean
    exact ⟨_, (forall_same hsame "benign" (· < _)).mp hbelow',
      (forall_same hsame "ransomware" (_ ≤ ·)).mp habove'⟩

end Report

/-- One read, as a benign workload. -/
def oneRead : Workload where
  name := "one_read"
  kind := "benign"
  description := "One read"
  generate _ _ _ := [{ kind := .read, lba := 0, blocks := 1 }]

theorem separation_pos_iff_discard : ∃ (policy : Policy ℚ) (report : BenchmarkReport ℚ),
    runBenchmark (fun _ => 0) (fun _ size _ => List.replicate size 0) policy
      [oneRead, discardAndWrite] 4 512 1 = .ok report ∧
    (0 < report.separation ↔ ∃ policy' : Policy ℚ, policy.SameScores policy' ∧
      policy'.config.containmentEnabled = true ∧ 0 < policy'.config.containmentThreshold ∧
      ∃ report', runBenchmark (fun _ => 0) (fun _ size _ => List.replicate size 0) policy'
          [oneRead, discardAndWrite] 4 512 1 = .ok report' ∧
        report'.falsePositives = [] ∧ report'.falseNegatives = []) := by
  let policy : Policy ℚ := ⟨PolicyConfig.standard, by decide +kernel⟩
  have hplain : ∀ w ∈ [oneRead, discardAndWrite], ∀ e ∈ w.generate 4 512 1, e.Plain 4 512 := by
    intro w hw
    rcases List.mem_cons.mp hw with rfl | hw
    · intro e he
      rw [List.mem_singleton.mp he]
      exact ⟨Or.inl rfl, fun h => by cases h⟩
    · rw [List.mem_singleton.mp hw]
      exact discardAndWrite_plain
  have hreturns : ∀ w ∈ [oneRead, discardAndWrite], ∃ b : Benchmarking ℚ,
      runWorkload (fun _ => 0) (fun _ size _ => List.replicate size 0) policy 4 512 1 w =
        .ok (b.result w) := fun w hw =>
    runWorkload_returns _ _ (Nat.zero_lt_succ 3) (fun _ _ => List.length_replicate) (hplain w hw)
  obtain ⟨b, hb⟩ := hreturns oneRead List.mem_cons_self
  obtain ⟨c, hc⟩ := hreturns discardAndWrite (List.mem_cons_of_mem _ List.mem_cons_self)
  have hreport : runBenchmark (fun _ => 0) (fun _ size _ => List.replicate size 0) policy
      [oneRead, discardAndWrite] 4 512 1 =
        .ok ⟨[b.result oneRead, c.result discardAndWrite], policy.config⟩ :=
    bind_eq_ok.mpr ⟨_, mapM_eq_ok.mpr (.cons hb (.cons hc .nil)), rfl⟩
  have hbenign : BenchmarkReport.benign ⟨[b.result oneRead, c.result discardAndWrite],
      policy.config⟩ = [b.result oneRead] := rfl
  have hransomware : BenchmarkReport.ransomware ⟨[b.result oneRead, c.result discardAndWrite],
      policy.config⟩ = [c.result discardAndWrite] := rfl
  refine ⟨policy, _, hreport, separation_pos_iff hreport ?_ ?_⟩
  · rw [hbenign]
    exact List.cons_ne_nil _ _
  · rw [hransomware]
    exact List.cons_ne_nil _ _

end AegisShield
