/-
# The benchmark (`core/benchmark.py`)

`run_workload` scores a synthetic workload with an analyzer and a policy of its own, against a
dictionary that stands for a device in service.  The numbers it prints are meant for the device, so
it matters how the two compare: a device that holds the same contents and has just been started
takes the same events.

They observe the same.  But the device decides on a write, or a rejected command, while the
benchmark decides on every event, a read included, and a read may push a harmless write out of the
window.  So the benchmark errs on one side: what the device would contain it reports as contained
(`benchmark_covers_device`), and the converse fails just where it is a read that crosses the
threshold.
-/
import AegisShield.Engine.Maintenance

namespace AegisShield

open Lib Arith

/-! ## 1. The loop of `run_workload` -/

/-- `Workload`. -/
structure Workload where
  name : String
  kind : String
  description : String
  /-- `generate(blocks, block_size, seed)`. -/
  generate : Nat → Nat → Int → List IoEvent

/-- `WorkloadResult`.  `peak_features` is empty as long as no score is above 0. -/
structure WorkloadResult (K : Type) where
  name : String
  kind : String
  description : String
  peakScore : K
  meanScore : K
  alerted : Bool
  contained : Bool
  operations : Nat
  peakFeatures : Option (FeatureVector K)

/-- `correct`. -/
def WorkloadResult.correct {K : Type} (r : WorkloadResult K) : Bool :=
  if r.kind = "ransomware" then r.contained else !r.contained

/-- The variables of the loop. -/
structure Benchmarking (K : Type) where
  analyzer : WindowAnalyzer K
  /-- `written`, a `dict`. -/
  written : Int → Option Bytes
  peak : K
  total : K
  scored : Nat
  alerted : Bool
  contained : Bool
  peakFeatures : Option (FeatureVector K)

section Loop

variable {K : Type} [Arith K]

namespace Benchmarking

/-- Before the first event, over the contents of a device in service. -/
def start (analyzer : WindowAnalyzer K) (written : Int → Option Bytes) : Benchmarking K :=
  ⟨analyzer, written, ofRat 0, ofRat 0, 0, false, false, none⟩

/-- `before`. -/
def before (b : Benchmarking K) (blockSize : Nat) (event : IoEvent) : Option Bytes :=
  if event.kind = .write then some ((b.written event.lba).getD (List.replicate blockSize 0))
  else none

/-- The variables after a decision. -/
def tally (b : Benchmarking K) (event : IoEvent) (analyzer : WindowAnalyzer K)
    (decision : Verdict K) : Benchmarking K where
  analyzer := analyzer
  written := if event.kind = .write then
    Function.update b.written event.lba (some event.payload) else b.written
  peak := if lt b.peak decision.score then decision.score else b.peak
  total := add b.total decision.score
  scored := b.scored + 1
  alerted := b.alerted || decision.alert
  contained := b.contained || decision.contain
  peakFeatures := if lt b.peak decision.score then some decision.features else b.peakFeatures

/-- The body of the loop, and the decision made in it. -/
def step (entropy : Bytes → K) (policy : Policy K) (blockSize : Nat) (b : Benchmarking K)
    (event : IoEvent) : Except Raised (Benchmarking K × Verdict K) := do
  let (analyzer, features) ← b.analyzer.observe entropy event (b.before blockSize event)
  let decision := policy.evaluate features
  return (b.tally event analyzer decision, decision)

/-- The loop. -/
def run (entropy : Bytes → K) (policy : Policy K) (blockSize : Nat) :
    Benchmarking K → List IoEvent → Except Raised (Benchmarking K)
  | b, [] => .ok b
  | b, event :: events => do
    let (b', _) ← b.step entropy policy blockSize event
    run entropy policy blockSize b' events

/-- The result. -/
def result (b : Benchmarking K) (w : Workload) : WorkloadResult K where
  name := w.name
  kind := w.kind
  description := w.description
  peakScore := b.peak
  meanScore := if b.scored = 0 then ofRat 0 else div b.total (ofRat b.scored)
  alerted := b.alerted
  contained := b.contained
  operations := b.scored
  peakFeatures := b.peakFeatures

end Benchmarking

/-- `{block: _text(seed_rng, block_size, "user") for block in range(blocks)}`.  `text` gives what
the seeded generator makes of each block. -/
def prefilled (text : Nat → Bytes) (blocks : Nat) (block : Int) : Option Bytes :=
  if 0 ≤ block ∧ block < blocks then some (text block.toNat) else none

/-- `run_workload`, of a policy that `Policy(config)` accepts.  `userText seed block_size` gives
the texts of the seeded generator. -/
def runWorkload (entropy : Bytes → K) (userText : Int → Nat → Nat → Bytes) (policy : Policy K)
    (blocks blockSize : Nat) (seed : Int) (w : Workload) : Except Raised (WorkloadResult K) := do
  let analyzer ← WindowAnalyzer.init (AnalyzerConfig.forNamespace blocks)
  let b ← (Benchmarking.start analyzer (prefilled (userText seed blockSize) blocks)).run entropy
    policy blockSize (w.generate blocks blockSize seed)
  return b.result w

/-- `BenchmarkReport`. -/
structure BenchmarkReport (K : Type) where
  results : List (WorkloadResult K)
  config : PolicyConfig K

namespace BenchmarkReport

variable (r : BenchmarkReport K)

def benign : List (WorkloadResult K) := r.results.filter fun x => x.kind = "benign"

def ransomware : List (WorkloadResult K) := r.results.filter fun x => x.kind = "ransomware"

def falsePositives : List (WorkloadResult K) := r.benign.filter fun x => x.contained

def falseNegatives : List (WorkloadResult K) := r.ransomware.filter fun x => !x.contained

def falsePositiveRate : K :=
  if r.benign = [] then ofRat 0 else ofRat (r.falsePositives.length / r.benign.length)

def truePositiveRate : K :=
  if r.ransomware = [] then ofRat 0
  else ofRat ((r.ransomware.length - r.falseNegatives.length : Nat) / r.ransomware.length)

/-- The gap between the quietest attack and the loudest benign workload. -/
def separation : K :=
  match r.benign.map (·.peakScore), r.ransomware.map (·.peakScore) with
  | loud :: louder, quiet :: quieter =>
    sub (quieter.foldl Arith.min quiet) (louder.foldl Arith.max loud)
  | _, _ => ofRat 0

end BenchmarkReport

/-- `run_benchmark`. -/
def runBenchmark (entropy : Bytes → K) (userText : Int → Nat → Nat → Bytes) (policy : Policy K)
    (workloads : List Workload) (blocks blockSize : Nat) (seed : Int) :
    Except Raised (BenchmarkReport K) := do
  return ⟨← workloads.mapM (runWorkload entropy userText policy blocks blockSize seed),
    policy.config⟩

/-! ## 2. What the corpus is made of -/

/-- The events of the corpus: reads, writes of one block each, and discards. -/
structure IoEvent.Plain (blocks blockSize : Nat) (e : IoEvent) : Prop where
  kind : e.kind = .read ∨ e.kind = .write ∨ e.kind = .deallocate
  write : e.kind = .write →
    e.blocks = 1 ∧ e.payload.length = blockSize ∧ 0 ≤ e.lba ∧ e.lba < (blocks : Int)

/-- Some event of the run is decided in a way. -/
def Benchmarking.Fires (entropy : Bytes → K) (policy : Policy K) (blockSize : Nat)
    (P : IoEvent → Verdict K → Prop) : Benchmarking K → List IoEvent → Prop
  | _, [] => False
  | b, event :: events => match b.step entropy policy blockSize event with
    | .error _ => False
    | .ok (b', decision) => P event decision ∨ Fires entropy policy blockSize P b' events

/-- The decision would contain a device that takes the event. -/
def Stops (e : IoEvent) (decision : Verdict K) : Prop :=
  e.kind = .deallocate ∨ e.kind = .write ∧ decision.contain = true

/-- The decision would alert a device that takes the event. -/
def Warns (e : IoEvent) (decision : Verdict K) : Prop := e.kind = .write ∧ decision.alert = true

end Loop

/-! ## 3. The benchmark runs through -/

/-- A list of results. -/
theorem mapM_eq_ok {α β : Type} {f : α → Except Raised β} : ∀ {xs : List α} {ys : List β},
    xs.mapM f = .ok ys ↔ List.Forall₂ (fun x y => f x = .ok y) xs ys
  | [], ys => by
    rw [List.forall₂_nil_left_iff]
    exact ⟨fun h => (Except.ok.inj h).symm, fun h => congrArg Except.ok h.symm⟩
  | x :: xs, ys => by
    rw [List.mapM_cons, List.forall₂_cons_left_iff]
    constructor
    · intro h
      obtain ⟨y, hy, h⟩ := bind_eq_ok.mp h
      obtain ⟨ys', hys', h⟩ := bind_eq_ok.mp h
      cases h
      exact ⟨y, ys', hy, mapM_eq_ok.mp hys', rfl⟩
    · rintro ⟨y, ys', hy, hys', rfl⟩
      exact bind_eq_ok.mpr ⟨y, hy, bind_eq_ok.mpr ⟨ys', mapM_eq_ok.mpr hys', rfl⟩⟩

theorem exists_of_forall₂ {α β : Type} {P : α → β → Prop} {xs : List α} {ys : List β}
    (h : List.Forall₂ P xs ys) : ∀ x ∈ xs, ∃ y ∈ ys, P x y := by
  induction h with
  | nil => exact fun x hx => absurd hx List.not_mem_nil
  | @cons x₀ y₀ xs ys hfirst _ ih =>
    intro x hx
    rcases List.mem_cons.mp hx with rfl | hmem
    · exact ⟨y₀, List.mem_cons_self, hfirst⟩
    · obtain ⟨y, hy, hP⟩ := ih x hmem
      exact ⟨y, List.mem_cons_of_mem _ hy, hP⟩

section Benchmark

variable {K : Type} [Arith K] (entropy : Bytes → K) (policy : Policy K) {blocks blockSize : Nat}
  {b b' : Benchmarking K} {e : IoEvent} {v : Verdict K}

/-- What every step of the loop needs: a window, and contents of whole blocks. -/
structure Benchmarking.Ready (blockSize : Nat) (b : Benchmarking K) : Prop where
  window : 0 < b.analyzer.config.windowOperations
  sized : ∀ i bytes, b.written i = some bytes → bytes.length = blockSize

/-- **A step**: what the analyzer observes, and what the policy says of the window behind it. -/
theorem Benchmarking.Ready.step (h : b.Ready blockSize) (he : e.Plain blocks blockSize) :
    ∃ o, b.analyzer.observation entropy e (b.before blockSize e) = .ok o ∧
      o.destructive = (e.kind = .admin || e.kind = .deallocate : Bool) ∧
      b.step entropy policy blockSize e =
        .ok (b.tally e (b.analyzer.record e o) (policy.evaluate (b.analyzer.record e o).snapshot),
          policy.evaluate (b.analyzer.record e o).snapshot) := by
  have hbefore : ∀ bytes ∈ b.before blockSize e, bytes.length = e.payload.length := by
    intro bytes hbytes
    unfold Benchmarking.before at hbytes
    split at hbytes
    · rename_i hwrite
      obtain rfl := Option.mem_some_iff.mp hbytes
      rw [(he.write hwrite).2.1]
      cases hstored : b.written e.lba with
      | none => exact List.length_replicate
      | some bytes => exact h.sized e.lba bytes hstored
    · cases hbytes
  obtain ⟨o, ho, hdestructive⟩ := b.analyzer.observation_ok entropy e hbefore
  have hobserve : b.analyzer.observe entropy e (b.before blockSize e) =
      .ok (b.analyzer.record e o, (b.analyzer.record e o).snapshot) := bind_eq_ok.mpr ⟨o, ho, rfl⟩
  refine ⟨o, ho, hdestructive, ?_⟩
  rw [Benchmarking.step, bind_of_ok hobserve]
  rfl

theorem Benchmarking.Ready.tally (h : b.Ready blockSize) (he : e.Plain blocks blockSize)
    (o : Observation K) (decision : Verdict K) :
    (b.tally e (b.analyzer.record e o) decision).Ready blockSize := by
  refine ⟨h.window, ?_⟩
  intro i bytes hbytes
  simp only [Benchmarking.tally] at hbytes
  split at hbytes
  · rename_i hwrite
    by_cases hi : i = e.lba
    · subst hi
      rw [Function.update_self] at hbytes
      rw [← Option.some.inj hbytes]
      exact (he.write hwrite).2.1
    · rw [Function.update_of_ne hi] at hbytes
      exact h.sized i bytes hbytes
  · exact h.sized i bytes hbytes

omit [Arith K] in
/-- The last observation is in the window. -/
theorem mem_window_record (h : 0 < b.analyzer.config.windowOperations) (o : Observation K) :
    o ∈ (b.analyzer.record e o).window := by
  change o ∈ pushBounded _ _ o
  rw [pushBounded]
  have hdrop : b.analyzer.window.length + 1 - b.analyzer.config.windowOperations ≤
      b.analyzer.window.length := by omega
  rw [List.drop_append_of_le_length hdrop]
  exact List.mem_append_right _ (List.mem_singleton.mpr rfl)

/-- **A discard decides at once.** -/
theorem Benchmarking.Ready.discard (h : b.Ready blockSize) (he : e.Plain blocks blockSize)
    (hkind : e.kind = .deallocate) (hstep : b.step entropy policy blockSize e = .ok (b', v)) :
    v.alert = true ∧ v.contain = policy.config.containmentEnabled := by
  obtain ⟨o, -, hdestructive, hok⟩ := h.step entropy policy he
  rw [hok] at hstep
  obtain ⟨-, rfl⟩ := Prod.mk.inj (Except.ok.inj hstep)
  refine policy.evaluate_destructive (List.any_eq_true.mpr ⟨o, mem_window_record h.window o, ?_⟩)
  rw [hdestructive, hkind]
  rfl

variable {entropy policy} in
/-- What fires one way fires another way. -/
theorem Benchmarking.Ready.fires_mono {P Q : IoEvent → Verdict K → Prop}
    (hPQ : ∀ b : Benchmarking K, b.Ready blockSize → ∀ e : IoEvent, e.Plain blocks blockSize →
      ∀ b' v, b.step entropy policy blockSize e = .ok (b', v) → P e v → Q e v) :
    ∀ {b : Benchmarking K} {events : List IoEvent}, b.Ready blockSize →
      (∀ e ∈ events, e.Plain blocks blockSize) →
      b.Fires entropy policy blockSize P events → b.Fires entropy policy blockSize Q events
  | _, [], _, _, hfires => hfires
  | b, e :: events, h, hplain, hfires => by
    have he := hplain e List.mem_cons_self
    obtain ⟨o, -, -, hok⟩ := h.step entropy policy he
    simp only [Benchmarking.Fires, hok] at hfires ⊢
    rcases hfires with hP | hrest
    · exact Or.inl (hPQ b h e he _ _ hok hP)
    · exact Or.inr (fires_mono hPQ (h.tally he o _)
        (fun e' he' => hplain e' (List.mem_cons_of_mem _ he')) hrest)

/-- **The loop runs through**, and reports what some event was decided. -/
theorem Benchmarking.Ready.run : ∀ {b : Benchmarking K} {events : List IoEvent},
    b.Ready blockSize → (∀ e ∈ events, e.Plain blocks blockSize) →
    ∃ b', b.run entropy policy blockSize events = .ok b' ∧
      (b'.contained = true ↔ b.contained = true ∨
        b.Fires entropy policy blockSize (fun _ v => v.contain = true) events) ∧
      (b'.alerted = true ↔ b.alerted = true ∨
        b.Fires entropy policy blockSize (fun _ v => v.alert = true) events)
  | b, [], _, _ => ⟨b, rfl, (or_iff_left id).symm, (or_iff_left id).symm⟩
  | b, e :: events, h, hplain => by
    have he := hplain e List.mem_cons_self
    obtain ⟨o, -, -, hok⟩ := h.step entropy policy he
    obtain ⟨b', hrun, hcontained, halerted⟩ := Benchmarking.Ready.run (h.tally he o _)
      fun e' he' => hplain e' (List.mem_cons_of_mem _ he')
    refine ⟨b', ?_, ?_, ?_⟩
    · rw [Benchmarking.run, bind_of_ok hok]
      exact hrun
    · simp only [hcontained, Benchmarking.Fires, hok, Benchmarking.tally, Bool.or_eq_true, or_assoc]
    · simp only [halerted, Benchmarking.Fires, hok, Benchmarking.tally, Bool.or_eq_true, or_assoc]

/-- The start over contents of whole blocks. -/
theorem Benchmarking.start_ready {text : Nat → Bytes}
    (htext : ∀ n < blocks, (text n).length = blockSize) :
    (Benchmarking.start (WindowAnalyzer.new (AnalyzerConfig.forNamespace blocks : AnalyzerConfig K))
      (prefilled text blocks)).Ready blockSize := by
  refine ⟨Nat.zero_lt_succ 127, fun i bytes hbytes => ?_⟩
  have hprefilled : prefilled text blocks i = some bytes := hbytes
  unfold prefilled at hprefilled
  split at hprefilled
  · rename_i hin
    rw [← Option.some.inj hprefilled]
    exact htext i.toNat (by omega)
  · cases hprefilled

/-- **A workload is scored**, whatever its events are. -/
theorem runWorkload_returns (hblocks : 0 < blocks) {userText : Int → Nat → Nat → Bytes} {seed : Int}
    (htext : ∀ n < blocks, (userText seed blockSize n).length = blockSize) {w : Workload}
    (hplain : ∀ e ∈ w.generate blocks blockSize seed, e.Plain blocks blockSize) :
    ∃ b : Benchmarking K,
      runWorkload entropy userText policy blocks blockSize seed w = .ok (b.result w) := by
  have hinit : WindowAnalyzer.init (AnalyzerConfig.forNamespace blocks : AnalyzerConfig K) =
      .ok (WindowAnalyzer.new (AnalyzerConfig.forNamespace blocks)) := by
    refine if_neg ?_
    rintro (hwindow | hnone)
    · exact absurd hwindow (Nat.not_lt.mpr (Nat.le_add_left 1 127))
    · exact absurd hblocks (Nat.not_lt.mpr (Nat.lt_one_iff.mp hnone).le)
  obtain ⟨b, hrun, -, -⟩ := (Benchmarking.start_ready htext).run entropy policy hplain
  exact ⟨b, bind_eq_ok.mpr ⟨_, hinit, bind_eq_ok.mpr ⟨b, hrun, rfl⟩⟩⟩

end Benchmark

/-! ## 4. The device follows -/

/-- The call that an event of the corpus is.  A discard is refused under the operation code and the
name that the front end gives it. -/
def IoEvent.toCall (opcode : Int) (name : String) (e : IoEvent) : EngineCall :=
  match e.kind with
  | .read => .read e.lba e.blocks
  | .write => .write e.lba e.payload
  | _ => .rejectDestructiveCommand opcode name

/-- The device takes events. -/
def Sys.take {W : World} (opcode : Int) (name : String) (s : Sys W) (events : List IoEvent) : Sys W :=
  events.foldl (fun s e => ((e.toCall opcode name).run s).2) s

section Device

variable {R : Runtime} [Arith R.Float] {log2 : R.Float → R.Float} {policy : Policy R.Float}
  {clock : Clock} {md : Metadata} {ws : List (Write md)} {b : Benchmarking R.Float} {e : IoEvent}
  {s : Sys (World.deployed R log2 policy clock)}

/-- A device that accepts writes has what the benchmark has. -/
structure Follows (ws : List (Write md)) (s : Sys (World.deployed R log2 policy clock))
    (b : Benchmarking R.Float) : Prop where
  good : ∃ es p, Good ws es p s
  state : s.engine.state ∈ AegisState.writable
  analyzer : s.engine.analyzer = b.analyzer
  written : ∀ n < md.blocks, b.written n = some (imageOf s.disk.root.base ws n)

/-- Events that the analyzer does not tell apart. -/
structure IoEvent.Same (e e' : IoEvent) : Prop where
  kind : e'.kind = e.kind
  lba : e'.lba = e.lba
  blocks : e'.blocks = e.blocks
  payload : e.kind = .write → e'.payload = e.payload

theorem windowed_observe_same {a : WindowAnalyzer R.Float} {e e' : IoEvent} {before : Option Bytes}
    {o : Observation R.Float} (hsame : e.Same e')
    (ho : a.observation (shannonEntropy log2) e before = .ok o) :
    (Detector.windowed R log2 policy).observe a e' before = a.record e o := by
  obtain ⟨hkind, hlba, hblocks, hpayload⟩ := hsame
  have ho' : a.observation (shannonEntropy log2) e' before = .ok o := by
    rw [← ho]
    unfold WindowAnalyzer.observation WindowAnalyzer.compare
    rw [hkind, hlba, hblocks]
    by_cases hwrite : e.kind = .write
    · rw [hpayload hwrite]
    · simp only [if_neg hwrite]
  have hrecord : a.record e' o = a.record e o := by
    unfold WindowAnalyzer.record
    rw [hkind, hlba, hblocks]
  have hobserve : a.observe (shannonEntropy log2) e' before =
      .ok (a.record e' o, (a.record e' o).snapshot) := bind_eq_ok.mpr ⟨o, ho', rfl⟩
  unfold Detector.windowed
  dsimp only
  rw [hobserve]
  exact hrecord

/-- A contained device takes no event amiss. -/
theorem contained_toCall {W : World} {s : Sys W} (h : s.engine.state = .contained) (opcode : Int)
    (name : String) (e : IoEvent) : ((e.toCall opcode name).run s).2.engine.state = .contained := by
  have hlocked : s.engine.state ∉ AegisState.writable := by
    rw [h]
    decide
  unfold IoEvent.toCall
  split
  · exact h
  · change (s.write e.lba e.payload).2.engine.state = _
    rw [s.write_denied hlocked]
    exact h
  · change (s.rejectDestructiveCommand opcode name).2.engine.state = _
    unfold Sys.rejectDestructiveCommand
    extract_lets event s1 decision s2
    have hlocked₂ : s2.engine.state ∉ AegisState.writable := hlocked
    rw [if_neg hlocked₂]
    exact h

theorem contained_take {W : World} (opcode : Int) (name : String) (events : List IoEvent) {s : Sys W}
    (h : s.engine.state = .contained) : (s.take opcode name events).engine.state = .contained :=
  run_invariant (I := fun s : Sys W => s.engine.state = .contained) h events
    fun _ e _ hs => contained_toCall hs opcode name e

/-- **A rejected command contains.** -/
theorem rejectDestructiveCommand_contains {W : World} {s : Sys W}
    (h : s.engine.state ∈ AegisState.writable) (opcode : Int) (name : String) :
    (s.rejectDestructiveCommand opcode name).2.engine.state = .contained := by
  unfold Sys.rejectDestructiveCommand
  extract_lets event s1 decision s2
  have hwritable : s2.engine.state ∈ AegisState.writable := h
  have hallowed : AegisState.contained ∈ (s2.withEngine fun e =>
      { e with containmentSequence := .int e.journal.lastSequence }).engine.state.allowed :=
    AegisState.contained_allowed hwritable
  rw [if_pos hwritable]
  exact (transition_answer hallowed s!"rejected {name}" decision).2.1

/-- **A read** is observed. -/
theorem Follows.read (h : Follows ws s b) (hkind : e.kind = .read) {o : Observation R.Float}
    (ho : b.analyzer.observation (shannonEntropy log2) e none = .ok o) (decision : Verdict R.Float) :
    Follows ws (s.read e.lba e.blocks).2 (b.tally e (b.analyzer.record e o) decision) := by
  obtain ⟨es, p, hgood⟩ := h.good
  have hsame : e.Same { kind := .read, lba := e.lba, blocks := e.blocks
                        timestampNs := clock.timeNs s.ticks } :=
    ⟨hkind.symm, rfl, rfl, fun hwrite => by rw [hkind] at hwrite; cases hwrite⟩
  have hnot : ¬ e.kind = .write := by
    rw [hkind]
    decide
  have hobserve : (Detector.windowed R log2 policy).observe s.engine.analyzer
      { kind := .read, lba := e.lba, blocks := e.blocks, timestampNs := clock.timeNs s.ticks } none =
      b.analyzer.record e o := by
    rw [h.analyzer]
    exact windowed_observe_same hsame ho
  refine ⟨hgood.call_same (c := .read e.lba e.blocks) ⟨rfl, rfl⟩, h.state, hobserve, ?_⟩
  · intro n hn
    rw [Benchmarking.tally, if_neg hnot]
    exact h.written n hn

omit [Arith R.Float] in
theorem decided_writable {a : AegisState} {d : Decision R} (h : a ∈ AegisState.writable)
    (hcontain : d.contain = false) : a.decided d ∈ AegisState.writable := by
  rw [AegisState.decided, if_neg (by rw [hcontain]; decide)]
  split
  · decide
  · exact h

/-- **A write** is observed over the same contents, and the device acts on the decision. -/
theorem Follows.write (h : Follows ws s b) (hsize : 0 < md.blockSize) (hkind : e.kind = .write)
    (he : e.Plain md.blocks md.blockSize) {o : Observation R.Float}
    (ho : b.analyzer.observation (shannonEntropy log2) e (b.before md.blockSize e) = .ok o) :
    let v := policy.evaluate (b.analyzer.record e o).snapshot
    let s' := (s.write e.lba e.payload).2
    s'.engine.state = s.engine.state.decided v.toDecision ∧
      (v.contain = false → ∃ ws' : List (Write md),
        Follows ws' s' (b.tally e (b.analyzer.record e o) v)) := by
  obtain ⟨hblocks, hlength, hlow, hhigh⟩ := he.write hkind
  obtain ⟨es, p, hgood⟩ := h.good
  have hone : e.payload.length / md.blockSize = 1 := by rw [hlength, Nat.div_self hsize]
  obtain ⟨n, hlba⟩ := Int.eq_ofNat_of_zero_le hlow
  have hn : n < md.blocks := by omega
  let w : Write md :=
    { start := n
      data := e.payload
      nonempty := by
        intro hnil
        rw [hnil, List.length_nil] at hlength
        omega
      aligned := by rw [hlength, Nat.mod_self]
      inRange := by rw [hone]; exact hn }
  have hcount : w.count = 1 := hone
  have hbefore : b.before md.blockSize e =
      some (blocksOf (imageOf s.disk.root.base ws) w.start w.count) := by
    rw [Benchmarking.before, if_pos hkind, hlba, h.written n hn, hcount, blocksOf_one]
    rfl
  have hsame : e.Same (writeEvent md w.start w.data) := by
    refine ⟨hkind.symm, hlba.symm, ?_, fun _ => rfl⟩
    rw [hblocks]
    exact congrArg Nat.cast hone
  have hobserved : s.observed md (imageOf s.disk.root.base ws) w = b.analyzer.record e o := by
    rw [Sys.observed, h.analyzer, ← hbefore]
    exact windowed_observe_same hsame ho
  obtain ⟨-, hstate, hanalyzer⟩ := writeRecorded_answer (windowed_ignoresTime R log2 policy) h.state
    hgood.journal.metadata w (imageOf s.disk.root.base ws) (w.line R (cursorOf R ws))
    (s.journalWith ws w)
  rw [← write_eq hgood.toLedgers h.state w, hobserved] at hstate hanalyzer
  have hwrite : s.write e.lba e.payload = s.write w.start w.data := by rw [hlba]
  intro v s'
  have hs' : s' = (s.write w.start w.data).2 := congrArg Prod.snd hwrite
  rw [hs']
  refine ⟨hstate, fun hcontain => ⟨ws ++ [w], hgood.write h.state w, ?_, hanalyzer, ?_⟩⟩
  · rw [hstate]
    exact decided_writable h.state hcontain
  · intro m hm
    -- the `dict` of written blocks moves with the image
    have hbase : (s.write w.start w.data).2.disk.root.base = s.disk.root.base :=
      (write_extends hgood.toLedgers w.start w.data).base
    have hwritten : (b.tally e (b.analyzer.record e o) v).written =
        Function.update b.written (n : Int) (some e.payload) := by
      rw [Benchmarking.tally, if_pos hkind, hlba]
    rw [hbase, imageOf_concat, Patch.overwrite, hwritten]
    by_cases hmn : m = n
    · subst hmn
      have hcover : w.patch.Covers m := ⟨Nat.le_refl m, Nat.lt_add_of_pos_right w.count_pos⟩
      have hcontent : w.patch.content m = e.payload := by
        simp [Write.patch, w, ← hlength]
      rw [if_pos hcover, hcontent]
      exact Function.update_self ..
    · have hcover : ¬ w.patch.Covers m := by
        rintro ⟨hstart, hend⟩
        rw [Write.patch, hcount] at hend
        have hle : n ≤ m := hstart
        have hlt : m < n + 1 := hend
        omega
      rw [if_neg hcover, Function.update_of_ne (by omega)]
      exact h.written m hm

/-- **One event**: it stops the device, or the device follows. -/
theorem Follows.step (h : Follows ws s b) (hsize : 0 < md.blockSize)
    (he : e.Plain md.blocks md.blockSize) (opcode : Int) (name : String) {o : Observation R.Float}
    (ho : b.analyzer.observation (shannonEntropy log2) e (b.before md.blockSize e) = .ok o) :
    let v := policy.evaluate (b.analyzer.record e o).snapshot
    let s' := ((e.toCall opcode name).run s).2
    Stops e v ∧ s'.engine.state = .contained ∨
      ¬ Stops e v ∧ (s'.engine.state = .normal ↔ s.engine.state = .normal ∧ ¬ Warns e v) ∧
        ∃ ws' : List (Write md), Follows ws' s' (b.tally e (b.analyzer.record e o) v) := by
  intro v s'
  rcases he.kind with hkind | hkind | hkind
  · -- a read decides nothing on the device
    have hs' : s' = (s.read e.lba e.blocks).2 := by
      simp only [s', IoEvent.toCall, hkind]
      rfl
    have hbefore : b.before md.blockSize e = none := by
      rw [Benchmarking.before, if_neg (by rw [hkind]; decide)]
    rw [hbefore] at ho
    have hstop : ¬ Stops e v := by simp [Stops, hkind]
    have hwarn : ¬ Warns e v := by simp [Warns, hkind]
    rw [hs']
    refine Or.inr ⟨hstop, ?_, ws, h.read hkind ho v⟩
    exact ⟨fun hn => ⟨hn, hwarn⟩, And.left⟩
  · -- a write: the verdict is the decision
    have hs' : s' = (s.write e.lba e.payload).2 := by
      simp only [s', IoEvent.toCall, hkind]
      rfl
    obtain ⟨hstate, hfollows⟩ := h.write hsize hkind he ho
    rw [hs']
    cases hcontain : v.contain with
    | true =>
      refine Or.inl ⟨Or.inr ⟨hkind, hcontain⟩, hstate.trans ?_⟩
      exact if_pos hcontain
    | false =>
      have hstop : ¬ Stops e v := by simp [Stops, hkind, hcontain]
      refine Or.inr ⟨hstop, ?_, hfollows hcontain⟩
      have hdecided : s.engine.state.decided v.toDecision =
          if v.alert && s.engine.state = .normal then .elevated else s.engine.state :=
        if_neg (by rw [Bool.not_eq_true]; exact hcontain)
      rw [hstate, hdecided]
      cases halert : v.alert with
      | true =>
        have hwarn : Warns e v := ⟨hkind, halert⟩
        by_cases hnormal : s.engine.state = .normal
        · simp [hnormal, hwarn]
        · simp [hnormal]
      | false =>
        have hwarn : ¬ Warns e v := by simp [Warns, halert]
        simp [hwarn]
  · -- a destructive command contains whatever the verdict
    have hs' : s' = (s.rejectDestructiveCommand opcode name).2 := by
      simp only [s', IoEvent.toCall, hkind]
      rfl
    rw [hs']
    exact Or.inl ⟨Or.inl hkind, rejectDestructiveCommand_contains h.state opcode name⟩

/-- **A run of events.** -/
theorem Follows.take (hsize : 0 < md.blockSize) (opcode : Int) (name : String) :
    ∀ {events : List IoEvent} {ws : List (Write md)} {s : Sys (World.deployed R log2 policy clock)}
      {b : Benchmarking R.Float}, Follows ws s b → b.Ready md.blockSize →
      (∀ e ∈ events, e.Plain md.blocks md.blockSize) →
      ((s.take opcode name events).engine.state = .contained ↔
        b.Fires (shannonEntropy log2) policy md.blockSize Stops events) ∧
      ((s.take opcode name events).engine.state = .normal ↔ s.engine.state = .normal ∧
        ¬ b.Fires (shannonEntropy log2) policy md.blockSize Stops events ∧
        ¬ b.Fires (shannonEntropy log2) policy md.blockSize Warns events)
  | [], _, s, b, h, _, _ => by
    have hwritable := h.state
    refine ⟨⟨fun hc => ?_, False.elim⟩, ⟨fun hn => ⟨hn, id, id⟩, And.left⟩⟩
    have hc' : s.engine.state = .contained := hc
    rw [hc'] at hwritable
    exact absurd hwritable (by decide)
  | e :: events, ws, s, b, h, hready, hplain => by
    have he := hplain e List.mem_cons_self
    have hrest : ∀ e' ∈ events, e'.Plain md.blocks md.blockSize := fun e' he' =>
      hplain e' (List.mem_cons_of_mem _ he')
    obtain ⟨o, ho, -, hok⟩ := hready.step (shannonEntropy log2) policy he
    have htake : s.take opcode name (e :: events) =
        Sys.take opcode name ((e.toCall opcode name).run s).2 events := rfl
    simp only [Benchmarking.Fires, hok, htake]
    rcases h.step hsize he opcode name ho with ⟨hstop, hstate⟩ | ⟨hstop, hnormal, ws', h'⟩
    · have hcontained := contained_take opcode name events hstate
      rw [hcontained]
      refine ⟨⟨fun _ => Or.inl hstop, fun _ => rfl⟩, ⟨fun hn => ?_, fun hn => ?_⟩⟩
      · cases hn
      · exact absurd (Or.inl hstop) hn.2.1
    · obtain ⟨ihcontained, ihnormal⟩ := Follows.take hsize opcode name h' (hready.tally he o _) hrest
      rw [ihcontained, ihnormal, hnormal]
      refine ⟨(or_iff_right hstop).symm, ?_⟩
      rw [or_iff_right hstop, not_or, and_assoc, and_left_comm (a := ¬ Warns e _)]

/-! ## 5. Main result -/

/-- A device in service that has just been started, with these contents. -/
structure InService (s : Sys (World.deployed R log2 policy clock)) (text : Nat → Bytes) : Prop where
  state : s.engine.state = .normal
  analyzer : s.engine.analyzer =
    WindowAnalyzer.new (AnalyzerConfig.forNamespace s.engine.journal.blocks)
  blockSize : 0 < s.engine.journal.blockSize
  contents : ∀ n < s.engine.journal.blocks,
    s.engine.journal.read R s.disk.root.toDir n 1 none = .ok (text n)

/-- Such a device follows the benchmark from the start. -/
theorem InService.follows {text : Nat → Bytes} (hs : InService s text) {es : List (AuditEntry R)}
    {p : Saved R} (hgood : Good ws es p s) :
    let b := Benchmarking.start (WindowAnalyzer.new (AnalyzerConfig.forNamespace md.blocks))
      (prefilled text md.blocks)
    Follows ws s b ∧ b.Ready md.blockSize := by
  intro b
  have hblocks : s.engine.journal.blocks = md.blocks :=
    congrArg Metadata.blocks hgood.journal.metadata
  have himage : ∀ n < md.blocks, imageOf s.disk.root.base ws n = text n := by
    intro n hn
    have hread := hs.contents n (hblocks.symm ▸ hn)
    have hcurrent : s.engine.journal.read R s.disk.root.toDir n (1 : Nat) none = .ok _ :=
      hgood.journal.read_current (b := n) (c := 1) (Nat.le_refl 1) hn
    rw [blocksOf_one] at hcurrent
    exact Except.ok.inj (hcurrent.symm.trans hread)
  refine ⟨⟨⟨es, p, hgood⟩, by rw [hs.state]; decide, by rw [hs.analyzer, hblocks]; rfl, ?_⟩,
    Benchmarking.start_ready fun n hn => ?_⟩
  · intro n hn
    have hin : (0 : Int) ≤ n ∧ (n : Int) < md.blocks := ⟨by omega, by omega⟩
    rw [himage n hn]
    exact if_pos hin
  · rw [← himage n hn]
    exact length_imageOf hgood.journal.size ws hn

/-- A read crosses the threshold. -/
def ReadStops (e : IoEvent) (decision : Verdict R.Float) : Prop :=
  e.kind = .read ∧ decision.contain = true

/-- What fires one way or another. -/
theorem Benchmarking.fires_or {K : Type} [Arith K] {entropy : Bytes → K} {policy : Policy K}
    {blockSize : Nat} {P Q : IoEvent → Verdict K → Prop} :
    ∀ {b : Benchmarking K} {events : List IoEvent},
      b.Fires entropy policy blockSize (fun e v => P e v ∨ Q e v) events →
      b.Fires entropy policy blockSize P events ∨ b.Fires entropy policy blockSize Q events
  | _, [], h => h.elim
  | b, e :: events, h => by
    cases hstep : b.step entropy policy blockSize e with
    | error raised =>
      simp only [Benchmarking.Fires, hstep] at h
    | ok r =>
      simp only [Benchmarking.Fires, hstep] at h ⊢
      rcases h with (hP | hQ) | hrest
      · exact Or.inl (Or.inl hP)
      · exact Or.inr (Or.inl hQ)
      · exact (fires_or hrest).imp Or.inr Or.inr

/-- **The report of a workload**, and the device. -/
structure Covers (enabled : Bool) (r : WorkloadResult R.Float) (state : AegisState)
    (readStops : Prop) : Prop where
  contained : enabled = true → state = .contained → r.contained = true
  alerted : state = .elevated → r.alerted = true
  excess : r.contained = true → state = .contained ∨ readStops

theorem InService.covers {text : Nat → Bytes} (hs : InService s text) {es : List (AuditEntry R)}
    {p : Saved R} (hgood : Good ws es p s) {events : List IoEvent}
    (hplain : ∀ e ∈ events, e.Plain md.blocks md.blockSize) (opcode : Int) (name : String) :
    let b := Benchmarking.start (WindowAnalyzer.new (AnalyzerConfig.forNamespace md.blocks))
      (prefilled text md.blocks)
    ∃ b', b.run (shannonEntropy log2) policy md.blockSize events = .ok b' ∧
      ∀ w : Workload, Covers policy.config.containmentEnabled (b'.result w)
        (s.take opcode name events).engine.state
        (b.Fires (shannonEntropy log2) policy md.blockSize ReadStops events) := by
  intro b
  have hsize : s.engine.journal.blockSize = md.blockSize :=
    congrArg Metadata.blockSize hgood.journal.metadata
  obtain ⟨hfollows, hready⟩ := hs.follows hgood
  obtain ⟨b', hrun, hcontained, halerted⟩ :=
    hready.run (shannonEntropy log2) policy hplain
  obtain ⟨hstops, hnormal⟩ := hfollows.take (hsize ▸ hs.blockSize) opcode name hready hplain
  refine ⟨b', hrun, fun w => ⟨fun henabled hstate => ?_, fun hstate => ?_, fun hc => ?_⟩⟩
  · -- what stops the device contains in the benchmark
    refine hcontained.mpr (Or.inr (hready.fires_mono ?_ hplain (hstops.mp hstate)))
    rintro b₁ hb₁ e he b₂ v hstep (hkind | ⟨-, hcontain⟩)
    · exact ((hb₁.discard _ _ he hkind hstep).2).trans henabled
    · exact hcontain
  · have hwarns : b.Fires (shannonEntropy log2) policy md.blockSize Warns events := by
      by_contra hnot
      have hstopped : ¬ b.Fires (shannonEntropy log2) policy md.blockSize Stops events := by
        intro h
        rw [hstops.mpr h] at hstate
        cases hstate
      have h := hnormal.mpr ⟨hs.state, hstopped, hnot⟩
      rw [hstate] at h
      cases h
    refine halerted.mpr (Or.inr (hready.fires_mono ?_ hplain hwarns))
    rintro b₁ - e - b₂ v - ⟨-, halert⟩
    exact halert
  · rcases hcontained.mp hc with hstart | hfires
    · cases hstart
    · refine (Benchmarking.fires_or (hready.fires_mono ?_ hplain hfires)).imp_left hstops.mpr
      rintro b₁ hb₁ e he b₂ v hstep hcontain
      rcases he.kind with hkind | hkind | hkind
      · exact Or.inr ⟨hkind, hcontain⟩
      · exact Or.inl (Or.inr ⟨hkind, hcontain⟩)
      · exact Or.inl (Or.inl hkind)

/-- **The benchmark covers the device.**  A device in service, with the contents and the policy of a
benchmark, takes the events of one of its workloads.  If it ends contained, the workload is reported
as contained, and as a false positive if it is benign; and a workload reported as contained stops the
device as well, unless it is on a read that the benchmark decided so. -/
theorem benchmark_covers_device (h : Reachable _ (.on s)) {userText : Int → Nat → Nat → Bytes}
    {seed : Int} (hs : InService s (userText seed s.engine.journal.blockSize))
    {workloads : List Workload} {report : BenchmarkReport R.Float}
    (hreport : runBenchmark (shannonEntropy log2) userText policy workloads s.engine.journal.blocks
      s.engine.journal.blockSize seed = .ok report) {w : Workload} (hw : w ∈ workloads)
    (hplain : ∀ e ∈ w.generate s.engine.journal.blocks s.engine.journal.blockSize seed,
      e.Plain s.engine.journal.blocks s.engine.journal.blockSize) (opcode : Int) (name : String) :
    let events := w.generate s.engine.journal.blocks s.engine.journal.blockSize seed
    let state := (s.take opcode name events).engine.state
    ∃ r ∈ report.results, r.name = w.name ∧ r.kind = w.kind ∧
      Covers policy.config.containmentEnabled r state
        ((Benchmarking.start s.engine.analyzer
          (prefilled (userText seed s.engine.journal.blockSize) s.engine.journal.blocks)).Fires
            (shannonEntropy log2) policy s.engine.journal.blockSize ReadStops events) ∧
      (policy.config.containmentEnabled = true → state = .contained →
        w.kind = "benign" → r ∈ report.falsePositives) := by
  intro events state
  obtain ⟨md, ws, es, p, hgood⟩ := h.good
  have hanalyzer := hs.analyzer
  have hblocks : s.engine.journal.blocks = md.blocks :=
    congrArg Metadata.blocks hgood.journal.metadata
  have hsize : s.engine.journal.blockSize = md.blockSize :=
    congrArg Metadata.blockSize hgood.journal.metadata
  -- the result of this workload is one run of the loop from a fresh analyzer
  obtain ⟨results, hresults, hok⟩ := bind_eq_ok.mp hreport
  obtain rfl := Except.ok.inj hok
  obtain ⟨r, hr, hrun⟩ := exists_of_forall₂ (mapM_eq_ok.mp hresults) w hw
  obtain ⟨analyzer, hinit, hrun⟩ := bind_eq_ok.mp hrun
  obtain ⟨b', hb', hrun⟩ := bind_eq_ok.mp hrun
  obtain rfl := Except.ok.inj hrun
  have hnew : analyzer = WindowAnalyzer.new (AnalyzerConfig.forNamespace s.engine.journal.blocks) := by
    unfold WindowAnalyzer.init at hinit
    split at hinit
    · cases hinit
    · exact (Except.ok.inj hinit).symm
  rw [hnew] at hb'
  have hplain' : ∀ e ∈ events, e.Plain md.blocks md.blockSize := by
    rw [← hblocks, ← hsize]
    exact hplain
  have hfollowed := hs.covers hgood hplain' opcode name
  rw [← hblocks, ← hsize] at hfollowed
  obtain ⟨b'', hb'', hcovers⟩ := hfollowed
  obtain rfl : b' = b'' := Except.ok.inj (hb'.symm.trans hb'')
  rw [hanalyzer]
  refine ⟨b'.result w, hr, rfl, rfl, hcovers w, fun henabled hstate hbenign => ?_⟩
  refine List.mem_filter.mpr ⟨List.mem_filter.mpr ⟨hr, decide_eq_true hbenign⟩, ?_⟩
  exact (hcovers w).contained henabled hstate

end Device

/-- A discard, and a write behind it. -/
def discardAndWrite : Workload where
  name := "discard_and_write"
  kind := "ransomware"
  description := "A discard, and a write behind it"
  generate _ _ _ := [{ kind := .deallocate, lba := 0, blocks := 1 },
    { kind := .write, lba := sevens.start, blocks := 1, payload := sevens.data }]

/-- A device as it is provisioned is in service over zeros. -/
theorem inService_standardBoot {dir : Dir} (h : provision World.standard.R 4 512 "dev" = .ok dir) :
    InService (standardBoot dir) fun _ => List.replicate 512 0 := by
  obtain ⟨-, es, p, hsaved⟩ := reopen_fresh (W := World.standard) h 0
  have hbase : (standardBoot dir).disk.root.base = List.replicate (4 * 512) 0 := by
    have hdir := h
    rw [provision, if_neg (by decide)] at hdir
    cases hdir
    rfl
  have hblocks : (standardBoot dir).engine.journal.blocks = 4 := rfl
  refine ⟨rfl, rfl, Nat.zero_lt_succ 511, fun n hn => ?_⟩
  rw [hblocks] at hn
  have hread : (standardBoot dir).engine.journal.read World.standard.R
      (standardBoot dir).disk.root.toDir n (1 : Nat) none = .ok _ :=
    hsaved.toGood.journal.read_current (b := n) (c := 1) (Nat.le_refl 1) hn
  rw [blocksOf_one, hbase] at hread
  have himage : imageOf (List.replicate (4 * 512) 0) ([] : List (Write ⟨"dev", 4, 512⟩)) n =
      List.replicate 512 0 := blockOf_replicate 512 (4 * 512) n 0 (by omega)
  rw [himage] at hread
  exact hread

/-- The events of it. -/
theorem discardAndWrite_plain :
    ∀ e ∈ discardAndWrite.generate 4 512 1, e.Plain 4 512 := by
  intro e he
  simp only [discardAndWrite, List.mem_cons, List.not_mem_nil, or_false] at he
  rcases he with rfl | rfl
  · exact ⟨Or.inr (Or.inr rfl), fun h => by cases h⟩
  · exact ⟨Or.inr (Or.inl rfl), fun _ => ⟨rfl, List.length_replicate, by decide, by decide⟩⟩

theorem benchmark_covers_device_discard : ∃ dir report,
    provision World.standard.R 4 512 "dev" = .ok dir ∧
    runBenchmark (shannonEntropy TextFloat.log2) (fun _ size _ => List.replicate size 0)
      Policy.standard [discardAndWrite] 4 512 1 = .ok report ∧
    ∃ r ∈ report.results, r.name = "discard_and_write" ∧ r.contained = true := by
  obtain ⟨dir, hdir⟩ := provision_four_blocks
  have hservice := inService_standardBoot hdir
  have hreachable := reachable_standardBoot hdir
  obtain ⟨b, hworkload⟩ : ∃ b : Benchmarking TextFloat, runWorkload (shannonEntropy TextFloat.log2)
      (fun _ size _ => List.replicate size 0) Policy.standard 4 512 1 discardAndWrite =
      .ok (b.result discardAndWrite) :=
    runWorkload_returns _ _ (Nat.zero_lt_succ 3) (fun _ _ => List.length_replicate)
      discardAndWrite_plain
  have hreport : runBenchmark (shannonEntropy TextFloat.log2)
      (fun _ size _ => List.replicate size 0) Policy.standard [discardAndWrite] 4 512 1 =
      .ok ⟨[b.result discardAndWrite], Policy.standard.config⟩ :=
    bind_eq_ok.mpr ⟨_, mapM_eq_ok.mpr (.cons hworkload .nil), rfl⟩
  have hblocks : (standardBoot dir).engine.journal.blocks = 4 := rfl
  have hsize : (standardBoot dir).engine.journal.blockSize = 512 := rfl
  refine ⟨dir, _, hdir, hreport, ?_⟩
  generalize standardBoot dir = s at *
  have hcontained : (s.take 37 "DISCARD" (discardAndWrite.generate 4 512 1)).engine.state =
      .contained := by
    have hstopped := rejectDestructiveCommand_contains (s := s) (by rw [hservice.state]; decide) 37
      "DISCARD"
    exact contained_take 37 "DISCARD" [_] hstopped
  rw [← hblocks, ← hsize] at hreport hcontained
  rw [← hsize] at hservice
  obtain ⟨r, hr, hname, -, hcovers, -⟩ := benchmark_covers_device hreachable hservice hreport
    (List.mem_singleton.mpr rfl) (by rw [hblocks, hsize]; exact discardAndWrite_plain) 37 "DISCARD"
  exact ⟨r, hr, hname, hcovers.contained rfl hcontained⟩

end AegisShield
