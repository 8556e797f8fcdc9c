/-
# The reads a write is compared with

`_recent_reads` is a bounded queue of its own.  It is as long as the window, but it moves on at a
READ only, where the window moves on at every operation: what it holds are the last reads, however
many operations ago they were (`Observes.recentReads`).

So the flag of a write is about the window exactly if a read of the window shares a block with the
write, or no queued read reaches into it (`read_scope_iff`).  A read that has left the window stays
in the queue until enough other reads have come: one read, and every later write to its blocks is a
read-before-write for as long as nothing else is read (`read_outlives_window`).
-/
import AegisShield.Detection.Census

namespace AegisShield

open Lib Arith

/-! ## 1. The two horizons -/

/-- The part of a filtered list that the window holds is the end of what a queue of its own holds. -/
theorem filter_rtake_suffix {α : Type} (p : α → Bool) (xs : List α) (n : Nat) :
    (xs.rtake n).filter p <:+ (xs.filter p).rtake n := by
  have hwindow : (xs.rtake n).filter p <:+ xs.filter p := (List.drop_suffix _ xs).filter p
  have hqueue : (xs.filter p).rtake n <:+ xs.filter p := List.drop_suffix _ _
  refine List.suffix_of_suffix_length_le hwindow hqueue ?_
  have hshort : ((xs.rtake n).filter p).length ≤ (xs.rtake n).length := List.length_filter_le _ _
  have hlong := hwindow.length_le
  rw [length_rtake] at hshort ⊢
  omega

/-- The operation is a read. -/
def IoEvent.isRead (e : IoEvent) : Bool := e.kind = .read

/-- The two operations have a block in common. -/
def IoEvent.Shares (r w : IoEvent) : Prop :=
  ∃ b ∈ blockRange r.lba r.blocks, b ∈ blockRange w.lba w.blocks

/-- The interval test of `observe`. -/
def IoEvent.Reaches (r w : IoEvent) : Prop := w.lba < r.lba + r.blocks ∧ w.lba + w.blocks > r.lba

theorem mem_blockRange {lba blocks b : Int} :
    b ∈ blockRange lba blocks ↔ lba ≤ b ∧ b < lba + blocks := by
  rw [blockRange_eq, List.mem_map]
  constructor
  · rintro ⟨i, hi, rfl⟩
    have := List.mem_range.mp hi
    omega
  · rintro ⟨hlow, hhigh⟩
    exact ⟨(b - lba).toNat, List.mem_range.mpr (by omega), by omega⟩

/-- A read that shares a block with a write reaches into it. -/
theorem IoEvent.Shares.reaches {r w : IoEvent} (h : r.Shares w) : r.Reaches w := by
  obtain ⟨b, hr, hw⟩ := h
  rw [mem_blockRange] at hr hw
  exact ⟨by omega, by omega⟩

/-- The reads that `_recent_reads` holds after the events. -/
def queuedReads (maxlen : Nat) (es : List (IoEvent × Option Bytes)) :
    List (IoEvent × Option Bytes) :=
  (es.filter fun e => e.1.isRead).rtake maxlen

/-- A read of the last operations shares a block with the write. -/
def ReadInWindow (maxlen : Nat) (es : List (IoEvent × Option Bytes)) (w : IoEvent) : Prop :=
  ∃ e ∈ es.rtake maxlen, e.1.kind = .read ∧ e.1.Shares w

/-- The window decides about the write: one of its reads shares a block with it, or no queued read
reaches into it. -/
def WindowDecides (maxlen : Nat) (es : List (IoEvent × Option Bytes)) (w : IoEvent) : Prop :=
  ReadInWindow maxlen es w ∨ ∀ r ∈ queuedReads maxlen es, ¬ r.1.Reaches w

/-- The reads of the window are queued. -/
theorem mem_queuedReads {maxlen : Nat} {es : List (IoEvent × Option Bytes)}
    {e : IoEvent × Option Bytes} (h : e ∈ es.rtake maxlen) (hread : e.1.kind = .read) :
    e ∈ queuedReads maxlen es := by
  refine (filter_rtake_suffix _ es maxlen).subset (List.mem_filter.mpr ⟨h, ?_⟩)
  exact decide_eq_true hread

namespace WindowAnalyzer

variable {K : Type} [Arith K] {entropy : Bytes → K} {a a' : WindowAnalyzer K} {event : IoEvent}
  {before : Option Bytes} {f : FeatureVector K} {config : AnalyzerConfig K}
  {es : List (IoEvent × Option Bytes)}

/-! ## 2. The queue -/

/-- What the queue has of a read. -/
def extent (e : IoEvent × Option Bytes) : Int × Int := (e.1.lba, e.1.lba + e.1.blocks)

omit [Arith K] in
/-- **One event.** -/
theorem record_recentReads (hn : 0 < a.config.windowOperations)
    (h : a.recentReads = (queuedReads a.config.windowOperations es).map extent)
    (o : Observation K) : (a.record event o).recentReads =
      (queuedReads a.config.windowOperations (es ++ [(event, before)])).map extent := by
  unfold queuedReads at h ⊢
  rw [List.filter_append, map_rtake, List.map_append]
  rw [map_rtake] at h
  by_cases hread : event.kind = .read
  · have hfilter : [(event, before)].filter (fun e => e.1.isRead) = [(event, before)] :=
      List.filter_cons_of_pos (decide_eq_true hread)
    rw [hfilter, List.map_singleton, ← pushBounded_rtake hn, ← h]
    exact if_pos hread
  · have hfilter : [(event, before)].filter (fun e => e.1.isRead) = [] :=
      List.filter_cons_of_neg (by simpa [IoEvent.isRead] using hread)
    rw [hfilter, List.map_nil, List.append_nil, ← h]
    exact if_neg hread

/-- **The queue holds the last reads**, in the window or not. -/
theorem Observes.recentReads (h : Observes config entropy es a) :
    a.recentReads = (queuedReads config.windowOperations es).map extent := by
  induction h with
  | init h =>
    unfold WindowAnalyzer.init at h
    split at h
    · cases h
    · cases h
      rw [queuedReads, List.filter_nil, List.rtake_nil]
      rfl
  | observe h hok ih =>
    have hslides := h.slides
    obtain ⟨o, -, rfl⟩ := observe_ok hok
    rw [← hslides.sameConfig] at ih ⊢
    refine record_recentReads ?_ ih o
    rw [hslides.sameConfig]
    exact hslides.positive

/-! ## 3. The flag -/

/-- **The flag of a write**: a read of the queue reaches into it. -/
theorem Observes.readBeforeWrite (h : Observes config entropy es a) (hwrite : event.kind = .write)
    {o : Observation K} (ho : a.observation entropy event before = .ok o) :
    o.readBeforeWrite = true ↔ ∃ r ∈ queuedReads config.windowOperations es, r.1.Reaches event := by
  have hflag : o.readBeforeWrite = a.recentReads.any fun r =>
      event.lba < r.2 && event.lba + event.blocks > r.1 := by
    rw [observation, if_pos hwrite] at ho
    obtain ⟨⟨overwrite, change⟩, -, ho⟩ := bind_eq_ok.mp ho
    cases ho
    rfl
  rw [hflag, h.recentReads, List.any_map, List.any_eq_true]
  refine exists_congr fun r => and_congr_right fun _ => ?_
  simp only [Function.comp_apply, extent, Bool.and_eq_true]
  exact and_congr decide_eq_true_iff decide_eq_true_iff

/-- The observation of an event is the last one of the window. -/
theorem Observes.getLast? (h : Observes config entropy es a) (o : Observation K) :
    (a.record event o).window.getLast? = some o := by
  have hslides := h.slides
  have hpositive := hslides.positive
  have hlen : a.window.length ≤ config.windowOperations := by
    rw [hslides.length_window]
    exact Nat.min_le_right _ _
  rw [record, pushBounded, List.drop_append_of_le_length (by rw [hslides.sameConfig]; omega)]
  exact List.getLast?_concat

/-- **When the flag of a write is about the window.**  It says that a read of the last operations
shares a block with the write exactly if one does, or no queued read reaches into the write. -/
theorem read_scope_iff (h : Observes config entropy es a) (hwrite : event.kind = .write)
    (hok : a.observe entropy event before = .ok (a', f)) :
    ∃ o, a'.window.getLast? = some o ∧
      ((o.readBeforeWrite = true ↔ ReadInWindow config.windowOperations es event) ↔
        WindowDecides config.windowOperations es event) := by
  obtain ⟨o, ho, rfl⟩ := observe_ok hok
  have hflag := h.readBeforeWrite hwrite ho
  refine ⟨o, h.getLast? o, ?_⟩
  rw [hflag]
  constructor
  · intro hiff
    by_cases hwindow : ReadInWindow config.windowOperations es event
    · exact Or.inl hwindow
    · exact Or.inr fun r hr hreaches => hwindow (hiff.mp ⟨r, hr, hreaches⟩)
  · rintro (hwindow | hnone)
    · refine ⟨fun _ => hwindow, fun _ => ?_⟩
      obtain ⟨e, he, hread, hshares⟩ := hwindow
      exact ⟨e, mem_queuedReads he hread, hshares.reaches⟩
    · constructor
      · rintro ⟨r, hr, hreaches⟩
        exact absurd hreaches (hnone r hr)
      · rintro ⟨e, he, hread, hshares⟩
        exact absurd hshares.reaches (hnone e (mem_queuedReads he hread))

/-- A write right behind a read of its block. -/
theorem read_scope_iff_at_once : ∃ (a a' : WindowAnalyzer TextFloat) (f : FeatureVector TextFloat)
    (o : Observation TextFloat),
    Observes ⟨1, 4, ofRat (75 / 10)⟩ (shannonEntropy TextFloat.log2)
        [({ kind := .read, lba := 0, blocks := 1 }, none)] a ∧
      a.observe (shannonEntropy TextFloat.log2) { kind := .write, lba := 0, blocks := 1 } none =
        .ok (a', f) ∧
      a'.window.getLast? = some o ∧ o.readBeforeWrite = true := by
  have h₀ : Observes ⟨1, 4, ofRat (75 / 10)⟩ (shannonEntropy TextFloat.log2) [] _ := .init rfl
  obtain ⟨a, h⟩ := h₀.next { kind := .read, lba := 0, blocks := 1 } none nofun
  have hnone : ∀ bytes ∈ (none : Option Bytes), bytes.length = 0 := nofun
  obtain ⟨o, ho, -⟩ := a.observation_ok (shannonEntropy TextFloat.log2)
    { kind := .write, lba := 0, blocks := 1 } hnone
  obtain ⟨o, hlast, hiff⟩ := read_scope_iff h rfl (bind_eq_ok.mpr ⟨o, ho, rfl⟩)
  have hwindow : ReadInWindow 1 [(({ kind := .read, lba := 0, blocks := 1 } : IoEvent), none)]
      { kind := .write, lba := 0, blocks := 1 } :=
    ⟨_, List.mem_singleton.mpr rfl, rfl, 0, by decide, by decide⟩
  exact ⟨a, _, _, o, h, bind_eq_ok.mpr ⟨_, ho, rfl⟩, hlast,
    (hiff.mpr (Or.inl hwindow)).mpr hwindow⟩

/-- **A read outlives the window.**  In a window of one operation, a write to block 0 is a
read-before-write although the operation before it was a write elsewhere. -/
theorem read_outlives_window : ∃ (a a' : WindowAnalyzer TextFloat) (f : FeatureVector TextFloat)
    (o : Observation TextFloat),
    Observes ⟨1, 8, ofRat (75 / 10)⟩ (shannonEntropy TextFloat.log2)
        [({ kind := .read, lba := 0, blocks := 1 }, none),
          ({ kind := .write, lba := 5, blocks := 1 }, none)] a ∧
      a.observe (shannonEntropy TextFloat.log2) { kind := .write, lba := 0, blocks := 1 } none =
        .ok (a', f) ∧
      a'.window.getLast? = some o ∧ o.readBeforeWrite = true ∧
      ¬ ReadInWindow 1 [(({ kind := .read, lba := 0, blocks := 1 } : IoEvent), none),
        ({ kind := .write, lba := 5, blocks := 1 }, none)]
          { kind := .write, lba := 0, blocks := 1 } := by
  have h₀ : Observes ⟨1, 8, ofRat (75 / 10)⟩ (shannonEntropy TextFloat.log2) [] _ := .init rfl
  obtain ⟨a₁, h₁⟩ := h₀.next { kind := .read, lba := 0, blocks := 1 } none nofun
  obtain ⟨a, h⟩ := h₁.next { kind := .write, lba := 5, blocks := 1 } none nofun
  have hnone : ∀ bytes ∈ (none : Option Bytes), bytes.length = 0 := nofun
  obtain ⟨o, ho, -⟩ := a.observation_ok (shannonEntropy TextFloat.log2)
    { kind := .write, lba := 0, blocks := 1 } hnone
  refine ⟨a, _, _, o, h, bind_eq_ok.mpr ⟨o, ho, rfl⟩, h.getLast? o, ?_, ?_⟩
  · exact (h.readBeforeWrite rfl ho).mpr ⟨_, List.mem_singleton.mpr rfl, by decide, by decide⟩
  · rintro ⟨e, he, hread, -⟩
    cases List.mem_singleton.mp he
    cases hread

end WindowAnalyzer

end AegisShield
