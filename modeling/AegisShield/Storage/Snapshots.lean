/-
# Snapshots are isolated

A snapshot keeps its slot until a `gc` that goes beyond its generation empties it, and no later
snapshot gets its nonce (`Kept`, `Dropped`).  So a snapshot reads what was committed when it was
taken, until it is stale for good (`snapshots_isolated`).
-/
import AegisShield.Storage.Held

namespace AegisShield.Storage

open Lib

/-! ## 1. The set of snapshots -/

namespace SnapshotSet

/-- The snapshot is in its slot, and in no other. -/
structure Kept (set : SnapshotSet) (id : SnapshotId) (state : StoreState) : Prop where
  slot : ∃ h : id.slot < maxSnapshots, set.slots ⟨id.slot, h⟩ = ⟨true, id.nonce, state⟩
  only : ∀ i, (set.slots i).present = true → (set.slots i).nonce = id.nonce → i.val = id.slot
  fresh : id.nonce < set.nextNonce
  generation : state.generation = id.generation

/-- The snapshot is in no slot any more. -/
structure Dropped (set : SnapshotSet) (id : SnapshotId) : Prop where
  none : ∀ i, (set.slots i).present = true → (set.slots i).nonce ≠ id.nonce
  fresh : id.nonce < set.nextNonce

variable {set set' : SnapshotSet} {id : SnapshotId} {state other : StoreState}

theorem Kept.state_eq (h : set.Kept id state) : set.state id = .ok state := by
  obtain ⟨hlt, hslot⟩ := h.slot
  unfold SnapshotSet.state
  rw [dif_pos hlt, hslot]
  simp [h.generation]

theorem Dropped.state_eq (h : set.Dropped id) : set.state id = .error .staleSnapshot := by
  unfold SnapshotSet.state
  split
  · rename_i hlt
    refine if_pos ?_
    cases hp : (set.slots ⟨id.slot, hlt⟩).present with
    | false => exact Or.inl rfl
    | true => exact Or.inr (Or.inl (h.none _ hp))
  · rfl

/-- **A snapshot that was taken is kept.** -/
theorem kept_of_capture (hs : ∀ i, (set.slots i).present = true → (set.slots i).nonce < set.nextNonce)
    (h : set.capture state = (.ok id, set')) : set'.Kept id state ∧ id.nonce = set.nextNonce := by
  rcases set.capture_cases state with ⟨e, -, hc⟩ | ⟨i, -, hc⟩
  · rw [hc] at h
    cases h
  · rw [hc] at h
    cases h
    refine ⟨⟨⟨i.isLt, Function.update_self _ _ _⟩, ?_, Nat.lt_succ_self _, rfl⟩, rfl⟩
    intro j hp hn
    by_cases hj : j = i
    · exact congrArg Fin.val hj
    · simp only [Function.update_of_ne hj] at hp hn
      exact absurd hn (Nat.ne_of_lt (hs j hp))

/-- A later snapshot takes a free slot and a new nonce. -/
theorem Kept.capture (h : set.Kept id state) : (set.capture other).2.Kept id state := by
  rcases set.capture_cases other with ⟨e, -, hc⟩ | ⟨i, hfree, hc⟩
  · rw [hc]
    exact h
  · rw [hc]
    obtain ⟨hlt, hslot⟩ := h.slot
    have hne : (⟨id.slot, hlt⟩ : Fin maxSnapshots) ≠ i := by
      rintro rfl
      rw [hslot] at hfree
      cases hfree
    refine ⟨⟨hlt, (Function.update_of_ne hne _ _).trans hslot⟩, ?_, Nat.lt_succ_of_lt h.fresh,
      h.generation⟩
    intro j hp hn
    by_cases hj : j = i
    · subst hj
      simp only [Function.update_self] at hn
      exact absurd hn (Nat.ne_of_gt h.fresh)
    · simp only [Function.update_of_ne hj] at hp hn
      exact h.only j hp hn

theorem Dropped.capture (h : set.Dropped id) : (set.capture other).2.Dropped id := by
  rcases set.capture_cases other with ⟨e, -, hc⟩ | ⟨i, -, hc⟩
  · rw [hc]
    exact h
  · rw [hc]
    refine ⟨?_, Nat.lt_succ_of_lt h.fresh⟩
    intro j hp
    by_cases hj : j = i
    · subst hj
      simp only [Function.update_self]
      exact Nat.ne_of_gt h.fresh
    · simp only [Function.update_of_ne hj] at hp ⊢
      exact h.none j hp

/-- A slot that is full after `gc` was full before. -/
theorem gc_present {retainFrom : Generation} {i : Fin maxSnapshots}
    (h : ((set.gc retainFrom).2.slots i).present = true) :
    (set.gc retainFrom).2.slots i = set.slots i ∧ (set.slots i).old retainFrom = false := by
  rcases set.gc_slot retainFrom i with ⟨hslot, -⟩ | hkept
  · rw [hslot] at h
    cases h
  · exact hkept

theorem Kept.gc (h : set.Kept id state) {retainFrom : Generation}
    (hg : ¬ id.generation < retainFrom) : (set.gc retainFrom).2.Kept id state := by
  obtain ⟨hlt, hslot⟩ := h.slot
  refine ⟨⟨hlt, ?_⟩, ?_, h.fresh, h.generation⟩
  · rcases set.gc_slot retainFrom ⟨id.slot, hlt⟩ with ⟨-, hold⟩ | ⟨hkept, -⟩
    · rw [hslot] at hold
      have hlt' : state.generation < retainFrom := of_decide_eq_true hold
      rw [h.generation] at hlt'
      exact absurd hlt' hg
    · exact hkept.trans hslot
  · intro i hp hn
    obtain ⟨hkept, -⟩ := gc_present hp
    rw [hkept] at hp hn
    exact h.only i hp hn

/-- **A `gc` beyond its generation drops a snapshot.** -/
theorem Kept.gc_dropped (h : set.Kept id state) {retainFrom : Generation}
    (hg : id.generation < retainFrom) : (set.gc retainFrom).2.Dropped id := by
  refine ⟨?_, h.fresh⟩
  intro i hp hn
  obtain ⟨hkept, hold⟩ := gc_present hp
  rw [hkept] at hp hn
  obtain ⟨hlt, hslot⟩ := h.slot
  obtain rfl : i = ⟨id.slot, hlt⟩ := Fin.ext (h.only i hp hn)
  rw [hslot] at hold
  have hnot : ¬ state.generation < retainFrom := of_decide_eq_false hold
  rw [h.generation] at hnot
  exact hnot hg

theorem Dropped.gc (h : set.Dropped id) (retainFrom : Generation) :
    (set.gc retainFrom).2.Dropped id := by
  refine ⟨?_, h.fresh⟩
  intro i hp
  obtain ⟨hkept, -⟩ := gc_present hp
  rw [hkept] at hp ⊢
  exact h.none i hp

end SnapshotSet

/-! ## 2. Every run -/

section Run

variable {variant : VariantId} {config : Config} {v v' : View} {c : Call} {seen : Seen}

theorem Moves.gc_snapshots {retainFrom : Generation} (h : Moves variant v (.gc retainFrom) seen v') :
    v'.snapshots = (v.snapshots.gc retainFrom).2 := by
  cases h with
  | ideal => rfl
  | reclaimed => rfl

/-- Only `snapshot` and `gc` change the snapshots. -/
theorem Changed.snapshots_eq (h : Changed v c seen v') (hgc : ∀ retainFrom, c ≠ .gc retainFrom) :
    v'.snapshots = v.snapshots ∨ v'.snapshots = (v.snapshots.capture v.committed).2 := by
  cases h with
  | captured id set hcap => exact Or.inr (congrArg Prod.snd hcap).symm
  | collected retainFrom => exact absurd rfl (hgc retainFrom)
  | _ => exact Or.inl rfl

/-- A `gc` beyond the generation of the snapshot was called. -/
def Collected (id : SnapshotId) (calls : List Call) : Prop :=
  ∃ retainFrom, Call.gc retainFrom ∈ calls ∧ id.generation < retainFrom

/-- The snapshot is dropped once it was collected, and kept until then. -/
def Tracks (id : SnapshotId) (state : StoreState) (calls : List Call) (v : View) : Prop :=
  (Collected id calls → v.snapshots.Dropped id) ∧ (¬ Collected id calls → v.snapshots.Kept id state)

theorem collected_concat {id : SnapshotId} {calls : List Call} :
    Collected id (calls ++ [c]) ↔ Collected id calls ∨ Collected id [c] := by
  unfold Collected
  simp only [List.mem_append, or_and_right, exists_or]

/-- **One call.** -/
theorem Moves.tracks (hs : v.Sound) (h : Moves variant v c seen v') {id : SnapshotId}
    {state : StoreState} {calls : List Call} (ht : Tracks id state calls v) :
    Tracks id state (calls ++ [c]) v' := by
  unfold Tracks
  rw [collected_concat]
  by_cases hgc : ∃ retainFrom, c = .gc retainFrom
  · obtain ⟨retainFrom, rfl⟩ := hgc
    have hone : Collected id [.gc retainFrom] ↔ id.generation < retainFrom := by
      unfold Collected
      simp
    rw [h.gc_snapshots, hone]
    constructor
    · intro hcol
      by_cases hbefore : Collected id calls
      · exact (ht.1 hbefore).gc retainFrom
      · exact (ht.2 hbefore).gc_dropped (hcol.resolve_left hbefore)
    · intro hno
      obtain ⟨hbefore, hg⟩ := not_or.mp hno
      exact (ht.2 hbefore).gc hg
  · have hone : ¬ Collected id [c] := by
      rintro ⟨retainFrom, hmem, -⟩
      exact hgc ⟨retainFrom, (List.mem_singleton.mp hmem).symm⟩
    have hset := (h.changed hs).snapshots_eq (not_exists.mp hgc)
    constructor
    · intro hcol
      have hdropped := ht.1 (hcol.resolve_right hone)
      rcases hset with hset | hset
      · rw [hset]
        exact hdropped
      · rw [hset]
        exact hdropped.capture
    · intro hno
      have hkept := ht.2 (not_or.mp hno).1
      rcases hset with hset | hset
      · rw [hset]
        exact hkept
      · rw [hset]
        exact hkept.capture

/-- The view after a snapshot was taken. -/
theorem Shows.captured {s : Store variant} (h : Shows s v) {id : SnapshotId}
    (hid : (TransactionalStore.snapshot s).1 = .ok id) :
    ∃ v', Shows (TransactionalStore.snapshot s).2 v' ∧ v'.snapshots.Kept id v.committed ∧
      id.nonce = v.snapshots.nextNonce := by
  obtain ⟨v', hv', hmove⟩ := h.step .snapshot
  have hmove' : Moves variant v .snapshot (.snapshot (TransactionalStore.snapshot s).1) v' := hmove
  have hv'' : Shows (TransactionalStore.snapshot s).2 v' := hv'
  rw [hid] at hmove'
  generalize hseen : Seen.snapshot (.ok id) = seen at hmove'
  cases hmove' with
  | ideal =>
    have hcap : v.snapshots.capture v.committed = (.ok id, (v.snapshots.capture v.committed).2) :=
      Prod.ext (Seen.snapshot.inj hseen).symm rfl
    exact ⟨_, hv'', SnapshotSet.kept_of_capture (fun i => (h.sound.snapshots i).2) hcap⟩

/-- **What a snapshot has become at a later point of the run.** -/
theorem Shows.tracks {s : Store variant} (h : Shows s v) {id : SnapshotId}
    (hid : (TransactionalStore.snapshot s).1 = .ok id) (post : List Call) :
    ∃ v', Shows (runCalls (TransactionalStore.snapshot s).2 post) v' ∧
      Tracks id v.committed post v' := by
  obtain ⟨u, hu, hkept, -⟩ := h.captured hid
  refine hu.run (P := Tracks id v.committed) ⟨?_, fun _ => hkept⟩ post ?_
  · rintro ⟨retainFrom, hmem, -⟩
    cases hmem
  · intro pre c rest _ u u' hu' ht hmove
    exact hmove.tracks hu'.sound ht

/-- **Snapshots are isolated and never confused.** -/
theorem snapshots_isolated {s₀ : Store variant} (hnew : TransactionalStore.new config = .ok s₀)
    (pre post : List Call) {id : SnapshotId}
    (hid : (TransactionalStore.snapshot (runCalls s₀ pre)).1 = .ok id) :
    (∀ handle offset output,
        (TransactionalStore.readSnapshot (runCalls s₀ (pre ++ .snapshot :: post)) id handle offset
            output = .error .staleSnapshot ↔ Collected id post) ∧
          (¬ Collected id post →
            TransactionalStore.readSnapshot (runCalls s₀ (pre ++ .snapshot :: post)) id handle
              offset output =
              TransactionalStore.read (runCalls s₀ pre) handle offset output)) ∧
      ∀ mid rest id', post = mid ++ .snapshot :: rest →
        (TransactionalStore.snapshot (runCalls s₀ (pre ++ .snapshot :: mid))).1 = .ok id' →
        id' ≠ id := by
  obtain ⟨v, hv⟩ := (shows_new hnew).reach pre
  have hrun : ∀ calls, runCalls s₀ (pre ++ .snapshot :: calls) =
      runCalls (TransactionalStore.snapshot (runCalls s₀ pre)).2 calls := by
    intro calls
    rw [runCalls_append, runCalls_cons]
    rfl
  constructor
  · intro handle offset output
    obtain ⟨u, hu, ht⟩ := hv.tracks hid post
    rw [hrun, readSnapshot_eq, hu.snapshots, read_eq, hv.committed]
    by_cases hcol : Collected id post
    · rw [(ht.1 hcol).state_eq]
      exact ⟨⟨fun _ => hcol, fun _ => rfl⟩, fun hno => absurd hcol hno⟩
    · rw [(ht.2 hcol).state_eq]
      refine ⟨⟨fun hstale => ?_, fun h => absurd h hcol⟩, fun _ => rfl⟩
      rcases StoreState.read_error hstale with h | h <;> cases h
  · rintro mid rest id' - hid' rfl
    obtain ⟨u, hu, ht⟩ := hv.tracks hid mid
    rw [hrun] at hid'
    obtain ⟨-, -, -, hnonce⟩ := hu.captured hid'
    have hfresh : id'.nonce < u.snapshots.nextNonce := by
      by_cases hcol : Collected id' mid
      · exact (ht.1 hcol).fresh
      · exact (ht.2 hcol).fresh
    exact Nat.ne_of_lt hfresh hnonce

theorem snapshots_isolated_collected :
    ∃ s₀ : Store .cow, TransactionalStore.new roomy = .ok s₀ ∧
      (TransactionalStore.snapshot (runCalls s₀ [])).1 = .ok ⟨0, 0, 1⟩ ∧
      TransactionalStore.readSnapshot (runCalls s₀ ([] ++ .snapshot :: [.gc 1])) ⟨0, 0, 1⟩ ⟨1, 1⟩ 0
        [0] = .error .staleSnapshot := by
  obtain ⟨s₀, hnew⟩ := exists_new .cow roomy
  have hid : (TransactionalStore.snapshot (runCalls s₀ [])).1 = .ok ⟨0, 0, 1⟩ := by
    have hseen := (shows_new hnew).cow_seen (c := .snapshot) rfl
    exact Seen.snapshot.inj hseen
  have hcol : Collected ⟨0, 0, 1⟩ [.gc 1] := ⟨1, List.mem_singleton_self _, Nat.one_pos⟩
  exact ⟨s₀, hnew, hid, (((snapshots_isolated hnew [] [.gc 1] hid).1 ⟨1, 1⟩ 0 [0]).1).mpr hcol⟩

end Run

end AegisShield.Storage
