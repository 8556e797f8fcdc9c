/-
# Every state a store holds is well formed

A store holds more states than the committed and the working one: the other bank, the snapshots,
and the states that `recover` goes through when it replays the log.  All of them are well formed at
every point of every run (`held_states_wf`), so the checks for broken invariants never fail.
-/
import AegisShield.Storage.Runs

namespace AegisShield.Storage

open Lib

/-! ## 1. The states a store holds -/

/-- The states that the loop of `recover` goes through. -/
inductive WalStore.Visits (config : Config) (transaction : TransactionId) :
    List WalEntry → StoreState → Bool → StoreState → Prop
  | here (log : List WalEntry) (state : StoreState) (committed : Bool) :
      Visits config transaction log state committed state
  | next (entry : WalEntry) (log : List WalEntry) {state next last : StoreState}
      {committed committed' : Bool}
      (h : replayEntry config transaction entry state committed = .ok (some (next, committed')))
      (hrest : Visits config transaction log next committed' last) :
      Visits config transaction (entry :: log) state committed last

/-- The states of the transaction and of the snapshots. -/
def HoldsCopy (active : Option WorkingTransaction) (snapshots : SnapshotSet) (state : StoreState) :
    Prop :=
  (∃ w, active = some w ∧ w.state = state) ∨ ∃ i, (snapshots.slots i).state = state

/-- The store holds the state: as committed, working, pending, replayed or snapshot. -/
def Holds : (variant : VariantId) → Store variant → StoreState → Prop
  | .cow, s, state => (∃ i, CowStore.banks s i = state) ∨ HoldsCopy s.active s.snapshots state
  | .wal, s, state => WalStore.base s = state ∨ HoldsCopy s.active s.snapshots state ∨
      ∃ first rest transaction, s.log = first :: rest ∧
        WalStore.Visits s.config transaction rest s.base false state

/-! ## 2. Replay keeps states well formed -/

section Replay

variable {config : Config} {s s' : StoreState}

/-- A creation that is replayed is one that could have been made. -/
theorem StoreState.create_of_replayCreate {handle : ObjectHandle}
    (h : s.replayCreate handle = (.ok (), s')) : s.create = (.ok handle, s') := by
  unfold replayCreate at h
  split at h
  · cases h
  · rename_i hsame
    rw [not_or, not_not, not_not] at hsame
    obtain ⟨hid, hgen⟩ := hsame
    unfold create
    cases hi : position (fun o => !o.present) s.objects with
    | none =>
      rw [hi] at h
      cases h
    | some i =>
      rw [hi, okOr_some, attempt_ok, hid, hgen] at h
      rw [okOr_some, attempt_ok]
      cases hn : checkedAdd s.nextObjectId 1 with
      | none =>
        rw [hn] at h
        cases h
      | some nextId =>
        rw [hn, okOr_some, attempt_ok] at h
        rw [okOr_some, attempt_ok]
        cases hg : checkedAdd s.nextObjectGeneration 1 with
        | none =>
          rw [hg] at h
          cases h
        | some nextGeneration =>
          rw [hg, okOr_some, attempt_ok] at h
          rw [okOr_some, attempt_ok]
          cases h
          cases handle
          cases hid
          cases hgen
          rfl

theorem WalStore.keep_eq_some {r : Except Error Unit × StoreState}
    (h : WalStore.keep r = some s') : r = (.ok (), s') := by
  unfold WalStore.keep at h
  obtain ⟨x, state⟩ := r
  cases x with
  | error e => cases h
  | ok u =>
    cases h
    rfl

theorem Mutation.apply_wf (h : s.Wf config) {m : Mutation} {r : Option ObjectHandle}
    (hm : m.apply config s = (.ok r, s')) : s'.Wf config := by
  rcases Mutation.apply_cases h m with ⟨e, -, he⟩ | ⟨r', s'', he, hedit⟩
  · rw [he] at hm
    cases hm
  · rw [he] at hm
    cases hm
    exact hedit.wf

/-- The record of an operation is replayed to a well-formed state. -/
theorem WalRecord.replay_wf (h : s.Wf config) {record : WalRecord}
    (hr : record.replay config s = some s') : s'.Wf config := by
  have hnone : ∀ r : Except Error Unit × StoreState, WalStore.keep r = some s' →
      ((r.1.map fun _ => (none : Option ObjectHandle)), r.2) = (.ok none, s') := by
    intro r hkeep
    rw [WalStore.keep_eq_some hkeep]
    rfl
  cases record with
  | empty => cases hr
  | «begin» transaction => cases hr
  | commit generation checksum => cases hr
  | create handle =>
    have hcreate := StoreState.create_of_replayCreate (WalStore.keep_eq_some hr)
    refine Mutation.apply_wf h (m := .create) (r := some handle) ?_
    unfold Mutation.apply
    rw [hcreate]
    rfl
  | write handle offset payload =>
    exact Mutation.apply_wf h (m := .write handle offset payload.asBytes) (hnone _ hr)
  | truncate handle newLen =>
    exact Mutation.apply_wf h (m := .truncate handle newLen) (hnone _ hr)
  | delete handle => exact Mutation.apply_wf h (m := .delete handle) (hnone _ hr)
  | bind name handle => exact Mutation.apply_wf h (m := .bind name handle) (hnone _ hr)

/-- **One round of the loop of `recover`**, whatever the entry. -/
theorem WalStore.replayEntry_wf (h : s.Wf config) {transaction : TransactionId} {entry : WalEntry}
    {committed committed' : Bool}
    (he : replayEntry config transaction entry s committed = .ok (some (s', committed'))) :
    s'.Wf config := by
  -- an operation is the replay of its record; a receipt only sets the generation
  have hop : ∀ r : Except Error Unit × StoreState, entry.record.replay config s = keep r →
      (Except.ok ((keep r).map fun state => (state, committed)) : Except Error _) =
        .ok (some (s', committed')) → s'.Wf config := by
    intro r hr heq
    obtain ⟨state, hstate, hpair⟩ := Option.map_eq_some_iff.mp (Except.ok.inj heq)
    cases hpair
    exact WalRecord.replay_wf h (hr.trans hstate)
  unfold replayEntry at he
  cases hr : entry.record with
  | empty =>
    rw [hr] at he
    cases he
  | «begin» t =>
    rw [hr] at he
    cases he
  | create _ | write _ _ _ | truncate _ _ | delete _ | bind _ _ =>
    rw [hr] at he hop
    exact hop _ rfl he
  | commit generation checksum =>
    rw [hr] at he
    -- five checks, each of which ends the loop
    simp only [Bind.bind, Except.bind] at he
    split at he
    · cases he
    · split at he
      · cases he
      · split at he
        · cases he
        · split at he
          · cases he
          · split at he
            · cases he
            · cases he
              exact h.stamp generation

/-- **All states that a replay goes through are well formed.** -/
theorem WalStore.Visits.wf {transaction : TransactionId} {log : List WalEntry} {committed : Bool}
    (h : WalStore.Visits config transaction log s committed s') (hwf : s.Wf config) :
    s'.Wf config := by
  induction h with
  | here => exact hwf
  | next entry log he hrest ih => exact ih (replayEntry_wf hwf he)

end Replay

/-! ## 3. Errors -/

section Errors

variable {config : Config} {s : StoreState}

theorem StoreState.read_error {handle : ObjectHandle} {offset : Nat} {output : Bytes} {e : Error}
    (h : s.read handle offset output = .error e) : e = .staleHandle ∨ e = .offsetOutOfRange := by
  unfold read at h
  rcases s.objectIndex_cases handle with ⟨-, hi⟩ | ⟨i, hi, -, -⟩
  · rw [hi] at h
    cases h
    exact Or.inl rfl
  · rw [hi] at h
    unfold tryUsize at h
    simp only [Bind.bind, Except.bind] at h
    split at h
    · rename_i heq
      split at heq
      · cases heq
      · cases heq
        cases h
        exact Or.inr rfl
    · split at h
      · cases h
        exact Or.inr rfl
      · cases h

theorem StoreState.lookup_error {name : Name} {e : Error} (h : s.lookup name = .error e) :
    e = .nameNotFound := by
  unfold lookup at h
  cases hp : position (fun slot => slot.present && slot.name = name) s.namespaces with
  | none =>
    rw [hp] at h
    cases h
    rfl
  | some i =>
    rw [hp] at h
    cases h

theorem SnapshotSet.state_error {set : SnapshotSet} {id : SnapshotId} {e : Error}
    (h : set.state id = .error e) : e = .staleSnapshot := by
  unfold state at h
  split at h
  · dsimp only at h
    split at h
    · cases h
      rfl
    · cases h
  · cases h
    rfl

/-- A live handle can be truncated to any length up to the one it has. -/
theorem StoreState.Wf.truncate_shorter (h : s.Wf config) {handle : ObjectHandle}
    {i : Fin maxObjects} (hi : s.objectIndex handle = .ok i) {newLen : Nat}
    (hle : newLen ≤ (s.objects i).len) : (s.truncate handle newLen config).1 = .ok () := by
  have hmax : maxObjectBytes = 128 := rfl
  have hlen := h.len_le i
  have hquota := h.quota
  have hused := len_le_used (objectIndex_ok hi).1
  have hensure : s.ensureQuota (s.objects i).len newLen config = .ok () := by
    rw [h.ensureQuota_eq (objectIndex_ok hi).1 (Nat.le_trans hle hlen)]
    rw [if_neg (by omega), if_neg (by omega)]
  have husize : tryUsize newLen .objectTooLarge = .ok newLen := if_pos (by omega)
  have hu16 : tryU16 newLen .objectTooLarge = .ok newLen := if_pos (by omega)
  unfold truncate
  simp only [husize, attempt_ok, hi, hensure, hu16]
  rw [if_neg (by omega)]

end Errors

/-! ## 4. Every run -/

section Run

variable {variant : VariantId} {config : Config} {s : Store variant} {v : View}

theorem Shows.holdsCopy_wf (h : Shows s v) {state : StoreState}
    (hheld : HoldsCopy v.active v.snapshots state) : state.Wf v.config := by
  rcases hheld with ⟨w, hw, rfl⟩ | ⟨i, rfl⟩
  · exact (h.sound.active w hw).1
  · exact (h.sound.snapshots i).1

theorem Shows.holds_wf (h : Shows s v) {state : StoreState} (hheld : Holds variant s state) :
    state.Wf v.config := by
  cases variant with
  | cow =>
    have hrep : CowStore.Rep s v := h.rep
    rcases hheld with ⟨i, rfl⟩ | hheld
    · rw [← hrep.config]
      exact hrep.wf i
    · rw [hrep.active, hrep.snapshots] at hheld
      exact h.holdsCopy_wf hheld
  | wal =>
    have hrep : WalStore.Rep s v := h.rep
    rcases hheld with rfl | hheld | ⟨first, rest, transaction, -, hvisits⟩
    · rw [hrep.base]
      exact h.sound.committed
    · rw [hrep.active, hrep.snapshots] at hheld
      exact h.holdsCopy_wf hheld
    · rw [hrep.config, hrep.base] at hvisits
      exact hvisits.wf h.sound.committed

/-- A run keeps the configuration. -/
theorem reach_config {s₀ : Store variant} (hnew : TransactionalStore.new config = .ok s₀)
    (calls : List Call) : ∃ v, Shows (runCalls s₀ calls) v ∧ v.config = config := by
  refine (shows_new hnew).run (P := fun _ u => u.config = config) rfl calls ?_
  intro pre c post hcalls u u' hu hP hmove
  rw [(hmove.changed hu.sound).config_eq, hP]

/-- What the calls that only look fail with. -/
theorem looks_error (s : Store variant) {c : Call} (hl : c.looks = true) {e : Error}
    (he : (c.run s).1.seen.error? = some e) :
    e = .staleHandle ∨ e = .offsetOutOfRange ∨ e = .nameNotFound ∨ e = .staleSnapshot := by
  have hbytes : ∀ {r : Except Error (Nat × Bytes)}, (Seen.bytes r).error? = some e → r = .error e := by
    intro r hr
    cases r with
    | error e' =>
      cases hr
      rfl
    | ok x => cases hr
  cases c with
  | read handle offset output =>
    have hread := hbytes he
    rw [read_eq] at hread
    rcases StoreState.read_error hread with rfl | rfl
    · exact Or.inl rfl
    · exact Or.inr (Or.inl rfl)
  | lookup name =>
    have hlookup : TransactionalStore.lookup s name = .error e := by
      cases hr : TransactionalStore.lookup s name with
      | error e' =>
        have he' : (Seen.handle (TransactionalStore.lookup s name)).error? = some e := he
        rw [hr] at he'
        cases he'
        rfl
      | ok x =>
        have he' : (Seen.handle (TransactionalStore.lookup s name)).error? = some e := he
        rw [hr] at he'
        cases he'
    rw [lookup_eq] at hlookup
    exact Or.inr (Or.inr (Or.inl (StoreState.lookup_error hlookup)))
  | readSnapshot id handle offset output =>
    have hread := hbytes he
    rw [readSnapshot_eq] at hread
    cases hstate : (Parts.snapshots s).state id with
    | error e' =>
      rw [hstate] at hread
      cases hread
      exact Or.inr (Or.inr (Or.inr (SnapshotSet.state_error hstate)))
    | ok state =>
      rw [hstate] at hread
      -- reading a snapshot fails like reading the store, once the snapshot is found
      rcases StoreState.read_error hread with rfl | rfl
      · exact Or.inl rfl
      · exact Or.inr (Or.inl rfl)
  | _ => cases hl

/-- **No call finds a broken invariant.** -/
theorem Shows.no_violation (h : Shows s v) (c : Call) :
    (c.run s).1.seen.error? ≠ some .invariantViolation := by
  intro he
  by_cases hl : c.looks = true
  · rcases looks_error s hl he with h' | h' | h' | h' <;> cases h'
  · obtain ⟨v', -, hmove⟩ := h.step c
    have hchanged := hmove.changed h.sound
    generalize (c.run s).1.seen = seen at hchanged he
    cases hchanged with
    | refused _ _ e he' hi hv => exact hv (Option.some.inj (he'.symm.trans he))
    | looked _ _ hl' => exact hl hl'
    | corrupted r pending hp hr => rcases hr with rfl | rfl <;> cases he
    | _ => cases he

/-- A store does not refuse a shorter length for the quota. -/
theorem Shows.truncate_shorter (h : Shows s v) {w : WorkingTransaction}
    (hw : Parts.active s = some w) (transaction : TransactionId) (now : Tick)
    {handle : ObjectHandle} {i : Fin maxObjects} (hi : w.state.objectIndex handle = .ok i)
    {newLen : Nat} (hle : newLen ≤ (w.state.objects i).len) :
    (TransactionalStore.truncate s transaction now handle newLen).1 ≠ .error .quotaExceeded ∧
      (TransactionalStore.truncate s transaction now handle newLen).1 ≠
        .error .recoveryReserveProtected := by
  have ha : v.active = some w := h.active.symm.trans hw
  -- no error that the operation can end with is one of the two
  have hno : ∀ e : Error, e ≠ .walFull → e.ofCheck = false →
      (TransactionalStore.truncate s transaction now handle newLen).1 ≠ .error e := by
    intro e hfull hcheck he
    have hrun : ((Mutation.truncate handle newLen).run s transaction now).1 = .error e :=
      congrArg (Except.map fun _ => none) he
    rcases h.mutate_cases transaction now (.truncate handle newLen) with
      ⟨e', he', -, hr⟩ | ⟨w', ha', -, -, hr | ⟨hr, -⟩⟩
    · cases hrun.symm.trans hr
      rw [hcheck] at he'
      cases he'
    · obtain rfl : w' = w := Option.some.inj (ha'.symm.trans ha)
      have hok := (h.sound.active w' ha').1.truncate_shorter hi hle
      have hmap : ((Mutation.truncate handle newLen).apply v.config w'.state).1 = .ok none :=
        congrArg (Except.map fun _ => none) hok
      rw [hmap, hrun] at hr
      cases hr
    · cases hrun.symm.trans hr
      exact hfull rfl
  exact ⟨hno .quotaExceeded nofun rfl, hno .recoveryReserveProtected nofun rfl⟩

/-- **Every state that a store holds is well formed**, at every point of every run; no call finds a
broken invariant, the sums of the quota check do not overflow, and no object is refused a shorter
length. -/
theorem held_states_wf {s₀ : Store variant} (hnew : TransactionalStore.new config = .ok s₀)
    (calls : List Call) :
    (∀ state, Holds variant (runCalls s₀ calls) state → state.Wf config) ∧
      (∀ c : Call, (c.run (runCalls s₀ calls)).1.seen.error? ≠ some .invariantViolation) ∧
      (∀ state, Holds variant (runCalls s₀ calls) state → (∃ n, state.usedBytes = .ok n) ∧
        ∀ i newLen e, (state.objects i).present = true → newLen ≤ maxObjectBytes →
          state.ensureQuota (state.objects i).len newLen config = .error e →
          e = .quotaExceeded ∨ e = .recoveryReserveProtected) ∧
      (∀ w transaction now handle i newLen, Parts.active (runCalls s₀ calls) = some w →
        w.state.objectIndex handle = .ok i → newLen ≤ (w.state.objects i).len →
        (TransactionalStore.truncate (runCalls s₀ calls) transaction now handle newLen).1 ≠
            .error .quotaExceeded ∧
          (TransactionalStore.truncate (runCalls s₀ calls) transaction now handle newLen).1 ≠
            .error .recoveryReserveProtected) := by
  obtain ⟨v, hv, hconfig⟩ := reach_config hnew calls
  have hwf : ∀ state, Holds variant (runCalls s₀ calls) state → state.Wf config := by
    intro state hheld
    rw [← hconfig]
    exact hv.holds_wf hheld
  refine ⟨hwf, hv.no_violation, ?_, ?_⟩
  · intro state hheld
    refine ⟨⟨_, StoreState.usedBytes_eq (hwf state hheld).len_le⟩, ?_⟩
    intro i newLen e hp hnew he
    rw [(hwf state hheld).ensureQuota_eq hp hnew] at he
    split at he
    · cases he
      exact Or.inl rfl
    · split at he
      · cases he
        exact Or.inr rfl
      · cases he
  · intro w transaction now handle i newLen hw hi hle
    exact hv.truncate_shorter hw transaction now hi hle

theorem held_states_wf_roomy :
    ∃ s₀ : Store .wal, TransactionalStore.new roomy = .ok s₀ ∧
      ∀ state, Holds .wal (runCalls s₀ [.begin 0 9, .mutate ⟨1, 0⟩ 0 .create]) state →
        state.Wf roomy := by
  obtain ⟨s₀, hnew⟩ := exists_new .wal roomy
  exact ⟨s₀, hnew, (held_states_wf hnew [.begin 0 9, .mutate ⟨1, 0⟩ 0 .create]).1⟩

end Run

end AegisShield.Storage
