/-
# The census of the window

`_written_blocks` is kept by hand: a full window retires its oldest observation just before the
bounded `deque` drops it, and a write adds its blocks behind that.  After every `observe` the window
holds the last events in order and the census is their tally, so that a write is an overwrite
exactly if a write of the window has covered one of its blocks or its before-image is not blank
(`census_is_window`).
-/
import AegisShield.Detection.Policy
import AegisShield.Lib.Tally

namespace AegisShield

open Lib Arith

/-! ## 1. Spans -/

/-- What an operation covers: its kind, its first block and their number. -/
abbrev Span := IoKind × Int × Int

/-- The span of an event. -/
def IoEvent.span (e : IoEvent) : Span := (e.kind, e.lba, e.blocks)

/-- The span of an observation. -/
def Observation.span {K : Type} (o : Observation K) : Span := (o.kind, o.lba, o.blocks)

/-- The blocks that an operation writes. -/
def Span.written (s : Span) : List Int := if s.1 = .write then blockRange s.2.1 s.2.2 else []

theorem blockRange_eq (lba blocks : Int) :
    blockRange lba blocks = (List.range blocks.toNat).map fun i : Nat => lba + i := by
  simp [blockRange, ← List.map_eq_flatMap]

theorem blockRange_nodup (lba blocks : Int) : (blockRange lba blocks).Nodup := by
  rw [blockRange_eq]
  exact List.Nodup.map (fun i j h => by simpa using h) List.nodup_range

theorem IoEvent.written (e : IoEvent) :
    e.span.written = if e.kind = .write then blockRange e.lba e.blocks else [] := rfl

theorem Observation.written {K : Type} (o : Observation K) :
    o.span.written = if o.kind = .write then blockRange o.lba o.blocks else [] := rfl

theorem Span.mem_written {s : Span} {b : Int} :
    b ∈ s.written ↔ s.1 = .write ∧ b ∈ blockRange s.2.1 s.2.2 := by
  unfold Span.written
  split
  · rename_i h
    exact ⟨fun hb => ⟨h, hb⟩, fun hb => hb.2⟩
  · rename_i h
    exact ⟨nofun, fun hb => absurd hb.1 h⟩

theorem Span.written_nodup (s : Span) : s.written.Nodup := by
  unfold Span.written
  split
  · exact blockRange_nodup _ _
  · exact List.nodup_nil

theorem pushBounded_rtake {α : Type} {n : Nat} (hn : 0 < n) (xs : List α) (x : α) :
    pushBounded n (xs.rtake n) x = (xs ++ [x]).rtake n := by
  rw [pushBounded, length_rtake]
  by_cases h : n ≤ xs.length
  · rw [rtake_concat_of_le hn h, List.drop_append_of_le_length (by rw [length_rtake]; omega),
      ← List.drop_one]
    congr 2
    omega
  · have h0 : min xs.length n + 1 - n = 0 := by omega
    rw [rtake_concat_of_lt (by omega), h0, List.drop_zero]

namespace WindowAnalyzer

variable {K : Type} [Arith K] {entropy : Bytes → K} {a a' : WindowAnalyzer K} {event : IoEvent}
  {before : Option Bytes} {f : FeatureVector K}

/-! ## 2. One observation -/

/-- **An observation**: the span of its event, and whether it overwrites. -/
theorem observation_spec {o : Observation K} (h : a.observation entropy event before = .ok o) :
    o.span = event.span ∧ (event.kind = .write → (o.overwrite = true ↔
      (∃ b ∈ blockRange event.lba event.blocks, censusCount a.writtenBlocks b ≠ 0) ∨
        ∃ bytes, before = some bytes ∧ ∃ x ∈ bytes, x ≠ 0)) := by
  unfold observation at h
  extract_lets destructive at h
  split at h
  · rename_i hwrite
    obtain ⟨⟨overwrite, change⟩, hcompare, h⟩ := bind_eq_ok.mp h
    cases h
    refine ⟨rfl, fun _ => ?_⟩
    dsimp only
    unfold compare at hcompare
    cases before with
    | none =>
      cases hcompare
      simp
    | some bytes =>
      obtain ⟨x, -, hx⟩ := bind_eq_ok.mp hcompare
      cases hx
      simp
  · rename_i hkind
    cases h
    exact ⟨rfl, fun hwrite => absurd hwrite hkind⟩

/-- **What `observe` does**, when it returns. -/
theorem observe_ok (h : a.observe entropy event before = .ok (a', f)) :
    ∃ o, a.observation entropy event before = .ok o ∧ a' = a.record event o := by
  obtain ⟨o, ho, h⟩ := bind_eq_ok.mp h
  cases h
  exact ⟨o, ho, rfl⟩

omit [Arith K] in
/-- The window slides. -/
theorem record_spans {spans : List Span} (hn : 0 < a.config.windowOperations)
    (hwindow : a.window.map Observation.span = spans.rtake a.config.windowOperations)
    {o : Observation K} (ho : o.span = event.span) :
    (a.record event o).window.map Observation.span =
      (spans ++ [event.span]).rtake a.config.windowOperations := by
  have hlen : a.window.length = (spans.rtake a.config.windowOperations).length := by
    rw [← hwindow, List.length_map]
  rw [← pushBounded_rtake hn, ← hwindow, ← ho]
  simp [record, pushBounded]

omit [Arith K] in
/-- **The census slides with it.** -/
theorem record_tallies (hn : 0 < a.config.windowOperations)
    (hlen : a.window.length ≤ a.config.windowOperations)
    (hcensus : Tallies Span.written a.writtenBlocks (a.window.map Observation.span))
    {o : Observation K} (ho : o.span = event.span) :
    Tallies Span.written (a.record event o).writtenBlocks
      ((a.record event o).window.map Observation.span) := by
  -- the census behind the retirement is that of the window without what the `deque` drops
  have hretired : ∃ census, Tallies Span.written census
      (a.window.drop (a.window.length + 1 - a.config.windowOperations) |>.map Observation.span) ∧
      (a.record event o).writtenBlocks = if event.kind = .write then
        (blockRange event.lba event.blocks).foldl censusAdd census else census := by
    cases hwindow : a.window with
    | nil =>
      refine ⟨a.writtenBlocks, ?_, by rw [record, hwindow]⟩
      rw [hwindow] at hcensus
      rw [List.drop_nil]
      exact hcensus
    | cons oldest rest =>
      rw [hwindow] at hcensus hlen
      -- the oldest observation is retired exactly when the `deque` is full
      by_cases hfull : (oldest :: rest).length = a.config.windowOperations
      · refine ⟨retire a.writtenBlocks oldest, ?_, by rw [record, hwindow]; simp only [if_pos hfull]⟩
        have hdrop : (oldest :: rest).length + 1 - a.config.windowOperations = 1 := by omega
        rw [hdrop, List.drop_one, List.tail_cons]
        have hleave := hcensus.leave (x := oldest.span) (Span.written_nodup _)
        have hretire : retire a.writtenBlocks oldest =
            oldest.span.written.foldl decrement a.writtenBlocks := by
          rw [retire, Observation.written]
          by_cases hkind : oldest.kind = .write
          · rw [if_neg (not_not.mpr hkind), if_pos hkind]
            rfl
          · rw [if_pos hkind, if_neg hkind]
            rfl
        rw [hretire]
        exact hleave
      · refine ⟨a.writtenBlocks, ?_, by rw [record, hwindow]; simp only [if_neg hfull]⟩
        have hdrop : (oldest :: rest).length + 1 - a.config.windowOperations = 0 := by omega
        rw [hdrop, List.drop_zero]
        exact hcensus
  obtain ⟨census, htallies, hcount⟩ := hretired
  have hwindow : (a.record event o).window.map Observation.span =
      (a.window.drop (a.window.length + 1 - a.config.windowOperations)).map Observation.span ++
        [event.span] := by
    rw [record, pushBounded, List.drop_append_of_le_length (by omega), List.map_append, ← ho]
    rfl
  have hadd : (a.record event o).writtenBlocks = event.span.written.foldl increment census := by
    rw [hcount, IoEvent.written]
    by_cases hkind : event.kind = .write
    · rw [if_pos hkind, if_pos hkind]
      rfl
    · rw [if_neg hkind, if_neg hkind]
      rfl
  rw [hwindow, hadd]
  exact htallies.enter (Span.written_nodup _)

/-! ## 3. Runs -/

/-- An analyzer that has observed a sequence of events, each with the before-image it was given.  A
call that raises has observed nothing. -/
inductive Observes (config : AnalyzerConfig K) (entropy : Bytes → K) :
    List (IoEvent × Option Bytes) → WindowAnalyzer K → Prop
  | init {a : WindowAnalyzer K} (h : WindowAnalyzer.init config = .ok a) : Observes config entropy [] a
  | observe {es : List (IoEvent × Option Bytes)} {a a' : WindowAnalyzer K} {event : IoEvent}
      {before : Option Bytes} {f : FeatureVector K} (h : Observes config entropy es a)
      (hok : a.observe entropy event before = .ok (a', f)) :
      Observes config entropy (es ++ [(event, before)]) a'

/-- The invariant: the window holds the last spans, and the census is its tally. -/
structure Slides (config : AnalyzerConfig K) (spans : List Span) (a : WindowAnalyzer K) : Prop where
  sameConfig : a.config = config
  positive : 0 < config.windowOperations
  window : a.window.map Observation.span = spans.rtake config.windowOperations
  census : Tallies Span.written a.writtenBlocks (a.window.map Observation.span)

variable {config : AnalyzerConfig K} {spans : List Span}

omit [Arith K] in
theorem Slides.length_window (h : Slides config spans a) :
    a.window.length = min spans.length config.windowOperations := by
  rw [← length_rtake, ← h.window, List.length_map]

omit [Arith K] in
theorem Slides.init (h : WindowAnalyzer.init config = .ok a) : Slides config [] a := by
  unfold WindowAnalyzer.init at h
  split at h
  · cases h
  · rename_i hpositive
    cases h
    exact ⟨rfl, by omega, by rw [List.rtake_nil]; rfl, Tallies.empty⟩

/-- **One event.** -/
theorem Slides.observe (h : Slides config spans a)
    (hok : a.observe entropy event before = .ok (a', f)) :
    Slides config (spans ++ [event.span]) a' := by
  obtain ⟨o, ho, rfl⟩ := observe_ok hok
  obtain ⟨hspan, -⟩ := observation_spec ho
  have hlen : a.window.length ≤ a.config.windowOperations := by
    rw [h.sameConfig, h.length_window]
    exact Nat.min_le_right _ _
  have hpositive : 0 < a.config.windowOperations := by
    rw [h.sameConfig]
    exact h.positive
  refine ⟨h.sameConfig, h.positive, ?_, record_tallies hpositive hlen h.census hspan⟩
  have hwindow := h.window
  rw [← h.sameConfig] at hwindow ⊢
  exact record_spans hpositive hwindow hspan

/-- **Every sequence of events.** -/
theorem Observes.slides {es : List (IoEvent × Option Bytes)} (h : Observes config entropy es a) :
    Slides config (es.map fun e => e.1.span) a := by
  induction h with
  | init h => exact Slides.init h
  | observe h hok ih =>
    rw [List.map_append, List.map_singleton]
    exact ih.observe hok

omit [Arith K] in
/-- A block is counted if a write of the last operations has covered it. -/
theorem Slides.counted (h : Slides config spans a) (b : Int) : censusCount a.writtenBlocks b ≠ 0 ↔
    ∃ s ∈ spans.rtake config.windowOperations, s.1 = .write ∧ b ∈ blockRange s.2.1 s.2.2 := by
  have hcount : censusCount a.writtenBlocks b = covering Span.written (a.window.map _) b :=
    h.census.getD b
  have hpos : (covering Span.written (a.window.map Observation.span) b : Int) ≠ 0 ↔
      0 < covering Span.written (a.window.map Observation.span) b := by omega
  rw [hcount, hpos, covering_pos, h.window]
  simp only [Span.mem_written]

/-! ## 4. Main result -/

/-- **The written-block census is exactly the window.**  The window holds the last events in order;
a block has the number of the window's writes that cover it, and no entry for none; and the next
write is an overwrite exactly if one of the last operations was a write that covers one of its
blocks, or its before-image has a byte other than 0. -/
theorem census_is_window {es : List (IoEvent × Option Bytes)} (h : Observes config entropy es a) :
    a.window.map Observation.span = (es.map fun e => e.1.span).rtake config.windowOperations ∧
      (∀ b, a.writtenBlocks b =
        entry (a.window.countP fun o => o.kind = .write ∧ b ∈ blockRange o.lba o.blocks)) ∧
      ∀ event before a' f, event.kind = .write → a.observe entropy event before = .ok (a', f) →
        ∃ o, a'.window.getLast? = some o ∧ (o.overwrite = true ↔
          (∃ e ∈ es.rtake config.windowOperations, e.1.kind = .write ∧
            ∃ b ∈ blockRange e.1.lba e.1.blocks, b ∈ blockRange event.lba event.blocks) ∨
          ∃ bytes, before = some bytes ∧ ∃ x ∈ bytes, x ≠ 0) := by
  have hslides := h.slides
  refine ⟨hslides.window, fun b => ?_, fun event before a' f hwrite hok => ?_⟩
  · -- the census counts the writes of the window that cover the block
    have hcount : covering Span.written (a.window.map Observation.span) b =
        a.window.countP fun o => o.kind = .write ∧ b ∈ blockRange o.lba o.blocks := by
      rw [covering, List.countP_map]
      refine List.countP_congr fun o _ => ?_
      simp only [Function.comp_apply, decide_eq_true_eq, Span.mem_written]
      exact Iff.rfl
    rw [← hcount]
    exact hslides.census b
  · obtain ⟨o, ho, rfl⟩ := observe_ok hok
    obtain ⟨-, hoverwrite⟩ := observation_spec ho
    have hlast : (a.record event o).window.getLast? = some o := by
      have hlen : a.window.length ≤ config.windowOperations := by
        rw [hslides.length_window]
        exact Nat.min_le_right _ _
      have hpositive := hslides.positive
      rw [record, pushBounded, List.drop_append_of_le_length (by rw [hslides.sameConfig]; omega)]
      exact List.getLast?_concat
    refine ⟨o, hlast, (hoverwrite hwrite).trans (or_congr ?_ Iff.rfl)⟩
    constructor
    · rintro ⟨b, hb, hcount⟩
      obtain ⟨s, hs, hkind, hcovers⟩ := (hslides.counted b).mp hcount
      rw [← map_rtake] at hs
      obtain ⟨e, he, rfl⟩ := List.mem_map.mp hs
      exact ⟨e, he, hkind, b, hcovers, hb⟩
    · rintro ⟨e, he, hkind, b, hcovers, hb⟩
      refine ⟨b, hb, (hslides.counted b).mpr ⟨e.1.span, ?_, hkind, hcovers⟩⟩
      rw [← map_rtake]
      exact List.mem_map_of_mem he

/-- An event whose before-image fits is observed. -/
theorem Observes.next {es : List (IoEvent × Option Bytes)} (h : Observes config entropy es a)
    (event : IoEvent) (before : Option Bytes)
    (hfits : ∀ bytes ∈ before, bytes.length = event.payload.length) :
    ∃ a', Observes config entropy (es ++ [(event, before)]) a' := by
  obtain ⟨o, ho, -⟩ := a.observation_ok entropy event hfits
  exact ⟨_, h.observe (bind_eq_ok.mpr ⟨o, ho, rfl⟩)⟩

theorem Observes.exists_all : ∀ {es : List (IoEvent × Option Bytes)}
    (more : List (IoEvent × Option Bytes)) {a : WindowAnalyzer K}, Observes config entropy es a →
      (∀ e ∈ more, ∀ bytes ∈ e.2, bytes.length = e.1.payload.length) →
      ∃ a', Observes config entropy (es ++ more) a'
  | es, [], a, h, _ => ⟨a, by rwa [List.append_nil]⟩
  | es, (event, before) :: more, a, h, hfits => by
    obtain ⟨hfirst, hrest⟩ := List.forall_mem_cons.mp hfits
    obtain ⟨a₁, h₁⟩ := h.next event before hfirst
    obtain ⟨a', h'⟩ := h₁.exists_all more hrest
    rw [List.append_assoc] at h'
    exact ⟨a', h'⟩

/-- `observe`, event by event. -/
def observeAll (entropy : Bytes → K) :
    WindowAnalyzer K → List (IoEvent × Option Bytes) → Except Raised (WindowAnalyzer K)
  | a, [] => .ok a
  | a, (event, before) :: es => do
    let r ← a.observe entropy event before
    observeAll entropy r.1 es

theorem Observes.all : ∀ {es more : List (IoEvent × Option Bytes)} {a a' : WindowAnalyzer K},
    Observes config entropy es a → a.observeAll entropy more = .ok a' →
      Observes config entropy (es ++ more) a'
  | es, [], a, a', h, hrun => by
    cases hrun
    rwa [List.append_nil]
  | es, (event, before) :: more, a, a', h, hrun => by
    obtain ⟨⟨a₁, f⟩, hok, hrest⟩ := bind_eq_ok.mp hrun
    have hnext := (h.observe hok).all hrest
    rwa [List.append_assoc] at hnext

/-- A block of two bytes is read and then overwritten with text, eight times. -/
def readAndOverwrite : List (IoEvent × Option Bytes) :=
  (List.range 8).flatMap fun n =>
    [({ kind := .read, lba := n, blocks := 1 }, none),
      ({ kind := .write, lba := n, blocks := 1, payload := [81, 85] }, some [81, 0])]

/-- A window of two operations after three events. -/
theorem census_is_window_three_events : ∃ a : WindowAnalyzer TextFloat,
    a.window.map Observation.span = [(.read, 0, 1), (.write, 2, 2)] ∧
      ∀ b, a.writtenBlocks b =
        entry (a.window.countP fun o => o.kind = .write ∧ b ∈ blockRange o.lba o.blocks) := by
  have h₀ : Observes ⟨2, 4, ofRat (75 / 10)⟩ (shannonEntropy TextFloat.log2) [] _ := .init rfl
  obtain ⟨a₁, h₁⟩ := h₀.next { kind := .write, lba := 1, blocks := 2 } none nofun
  obtain ⟨a₂, h₂⟩ := h₁.next { kind := .read, lba := 0, blocks := 1 } none nofun
  obtain ⟨a₃, h₃⟩ := h₂.next { kind := .write, lba := 2, blocks := 2 } none nofun
  obtain ⟨hwindow, hcensus, -⟩ := census_is_window h₃
  exact ⟨a₃, hwindow, hcensus⟩

end WindowAnalyzer

end AegisShield
