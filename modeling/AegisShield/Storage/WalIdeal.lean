/-
# The write-ahead-log store is an ideal store

The base is the committed state.  The log of a working transaction replays from the base to its
working state (`Traces`), so what an interrupted commit leaves behind is what `recover` rebuilds:
nothing, or with a receipt the state that was to be committed (`LogIs`).  Every call keeps this and
does what the ideal store does, or one of its deviations (`Rep.step`).
-/
import AegisShield.Storage.Ideal
import Mathlib.Data.List.GetD

namespace AegisShield.Storage

open Lib

/-! ## 1. Records -/

/-- What an operation appends to the log when it has returned `r`. -/
def Mutation.record (r : Option ObjectHandle) : Mutation → WalRecord
  | .create => .create (r.getD ⟨0, 0⟩)
  | .write handle offset input => .write handle offset ⟨input.length, fun i => input.getD i 0⟩
  | .truncate handle newLen => .truncate handle newLen
  | .delete handle => .delete handle
  | .bind name handle => .bind name handle

/-- The operation that a record stands for, on a state. -/
def WalRecord.replay (config : Config) (s : StoreState) : WalRecord → Option StoreState
  | .empty | .begin _ | .commit _ _ => none
  | .create handle => WalStore.keep (s.replayCreate handle)
  | .write handle offset payload => WalStore.keep (s.write handle offset payload.asBytes config)
  | .truncate handle newLen => WalStore.keep (s.truncate handle newLen config)
  | .delete handle => WalStore.keep (s.delete handle)
  | .bind name handle => WalStore.keep (s.bind name handle)

theorem WritePayload.new_tooLarge {input : Bytes} (h : input.length > maxIoBytes) :
    WritePayload.new input = .error .ioTooLarge := by
  unfold WritePayload.new
  rw [if_pos h]
  rfl

theorem WritePayload.new_fits {input : Bytes} (h : input.length ≤ maxIoBytes) :
    WritePayload.new input = .ok ⟨input.length, fun i => input.getD i 0⟩ := by
  have hmax : maxIoBytes = 64 := rfl
  have hu8 : tryU8 input.length .ioTooLarge = .ok input.length := if_pos (by omega)
  unfold WritePayload.new
  rw [if_neg (Nat.not_lt.mpr h), hu8]
  rfl

/-- **The payload of a record is the input of the write.** -/
theorem WritePayload.asBytes_of_input {input : Bytes} (h : input.length ≤ maxIoBytes) :
    (⟨input.length, fun i => input.getD i 0⟩ : WritePayload).asBytes = input := by
  show (List.ofFn fun i : Fin maxIoBytes => input.getD i 0).take input.length = input
  apply List.ext_getElem
  · rw [List.length_take, List.length_ofFn]
    exact Nat.min_eq_left h
  · intro i h1 h2
    rw [List.getElem_take, List.getElem_ofFn]
    exact List.getD_eq_getElem input 0 h2

theorem WalStore.keep_ok {r : Except Error Unit × StoreState} {u : Unit} (h : r.1 = .ok u) :
    WalStore.keep r = some r.2 := by
  unfold WalStore.keep
  rw [h]

/-- **Replaying the record of an operation is the operation.** -/
theorem Mutation.replay_record {config : Config} {s s' : StoreState} {m : Mutation}
    {r : Option ObjectHandle} (h : m.apply config s = (.ok r, s')) :
    (m.record r).replay config s = some s' := by
  have h1 := congrArg Prod.fst h
  have h2 := congrArg Prod.snd h
  cases m with
  | create =>
    obtain ⟨handle, hr, rfl⟩ := map_eq_ok h1
    have hc : s.create = (.ok handle, s') := Prod.ext hr h2
    show WalStore.keep (s.replayCreate handle) = _
    rw [StoreState.replayCreate_of_create hc]
    rfl
  | write handle offset input =>
    obtain ⟨u, hr, rfl⟩ := map_eq_ok h1
    have hio : input.length ≤ maxIoBytes := by
      by_contra hgt
      unfold StoreState.write at hr
      rw [if_pos (Nat.lt_of_not_le hgt)] at hr
      cases hr
    show WalStore.keep (s.write handle offset _ config) = _
    rw [WritePayload.asBytes_of_input hio, WalStore.keep_ok hr]
    exact congrArg some h2
  | truncate handle newLen =>
    obtain ⟨u, hr, rfl⟩ := map_eq_ok h1
    exact (WalStore.keep_ok hr).trans (congrArg some h2)
  | delete handle =>
    obtain ⟨u, hr, rfl⟩ := map_eq_ok h1
    exact (WalStore.keep_ok hr).trans (congrArg some h2)
  | bind name handle =>
    obtain ⟨u, hr, rfl⟩ := map_eq_ok h1
    exact (WalStore.keep_ok hr).trans (congrArg some h2)

/-! ## 2. Logs -/

/-- The state that the records of a log replay to. -/
def replays (config : Config) (s : StoreState) (log : List WalEntry) : Option StoreState :=
  log.foldlM (fun s entry => entry.record.replay config s) s

theorem replays_cons {config : Config} {s : StoreState} {entry : WalEntry} {log : List WalEntry} :
    replays config s (entry :: log) =
      (entry.record.replay config s).bind fun s' => replays config s' log := List.foldlM_cons

theorem replays_concat {config : Config} {s s' s'' : StoreState} {log : List WalEntry}
    (h : replays config s log = some s') {entry : WalEntry}
    (he : entry.record.replay config s' = some s'') :
    replays config s (log ++ [entry]) = some s'' := by
  unfold replays at h ⊢
  rw [List.foldlM_append, h]
  show (entry.record.replay config s').bind some = _
  rw [he]
  rfl

/-- One round of the loop of `recover`, for a record of an operation. -/
theorem WalStore.replayEntry_replay {config : Config} {transaction : TransactionId}
    {entry : WalEntry} {s s' : StoreState} (h : entry.record.replay config s = some s')
    (committed : Bool) :
    replayEntry config transaction entry s committed = .ok (some (s', committed)) := by
  unfold replayEntry
  cases hr : entry.record with
  | empty => rw [hr] at h; cases h
  | «begin» t => rw [hr] at h; cases h
  | commit g c => rw [hr] at h; cases h
  | create _ | write _ _ _ | truncate _ _ | delete _ | bind _ _ =>
    rw [hr] at h
    simp only [WalRecord.replay] at h
    simp only [h, Option.map_some]

/-- **The loop of `recover` over the operations of a log.** -/
theorem WalStore.replay_of_replays {config : Config} {transaction : TransactionId} :
    ∀ {ops : List WalEntry} {s s' : StoreState}, replays config s ops = some s' →
      ∀ rest, replay config transaction (ops ++ rest) s false =
        replay config transaction rest s' false := by
  intro ops
  induction ops with
  | nil =>
    intro s s' h rest
    cases h
    rfl
  | cons entry ops ih =>
    intro s s' h rest
    rw [replays_cons] at h
    obtain ⟨next, hnext, hrest⟩ := Option.bind_eq_some_iff.mp h
    rw [List.cons_append, replay, replayEntry_replay hnext false]
    exact ih hrest rest

/-- A receipt of the replayed state ends the loop. -/
theorem WalStore.replay_receipt {config : Config} {transaction : TransactionId} {entry : WalEntry}
    {s : StoreState} {generation : Generation}
    (hg : nextGeneration transaction.baseGeneration = .ok generation)
    (hr : entry.record = .commit generation { s with generation := generation }.checksum)
    (hv : entry.verify = true) :
    replay config transaction [entry] s false =
      .ok (some ({ s with generation := generation }, true)) := by
  have hsum : entry.checksum = entry.record.checksum := by
    unfold WalEntry.verify at hv
    rw [Bool.and_eq_true, decide_eq_true_eq] at hv
    exact hv.2
  have hentry : replayEntry config transaction entry s false =
      .ok (some ({ s with generation := generation }, true)) := by
    unfold replayEntry
    simp only [hsum, hr, hg, Bind.bind, Except.bind]
    simp only [Bool.false_eq_true, if_false, ne_eq, not_true_eq_false]
    rfl
  rw [replay, hentry]
  rfl

/-! ## 3. The representation -/

/-- **The log of a transaction**: its begin record, then operations that replay from the base to the
state. -/
def Traces (config : Config) (base : StoreState) (transaction : TransactionId) (state : StoreState)
    (log : List WalEntry) : Prop :=
  ∃ first ops, log = first :: ops ∧ first.record = .begin transaction ∧
    replays config base ops = some state

/-- The log of a transaction that has its receipt. -/
def Receipted (config : Config) (base state : StoreState) (log : List WalEntry) : Prop :=
  ∃ transaction working ops receipt, log = ops ++ [receipt] ∧
    Traces config base transaction working ops ∧
    nextGeneration transaction.baseGeneration = .ok state.generation ∧
    transaction.baseGeneration = base.generation ∧
    state = { working with generation := state.generation } ∧
    receipt.record = .commit state.generation state.checksum

/-- What the log is. -/
def LogIs (v : View) (log : List WalEntry) : Prop :=
  match v.active with
  | some w => v.pending = .nothing ∧ Traces v.config v.committed w.id w.state log ∧
      (v.tampered = false → ∀ e ∈ log, e.verify = true)
  | none =>
    match v.pending with
    | .nothing => log = []
    | .torn => ∃ transaction state, transaction.baseGeneration = v.committed.generation ∧
        Traces v.config v.committed transaction state log
    | .receipted state valid =>
      Receipted v.config v.committed state log ∧ (valid = true ↔ ∀ e ∈ log, e.verify = true)

theorem WalEntry.verify_new (record : WalRecord) : (WalEntry.new record).verify = true := by
  unfold verify WalEntry.new
  rw [decide_eq_true rfl]
  rfl

theorem WalEntry.verify_flip (record : WalRecord) : (WalEntry.new record).flip.verify = false := by
  unfold verify WalEntry.new flip
  generalize record.checksum = c
  rw [decide_eq_false (xor_one_ne c), Bool.and_false]

section Log

variable {config : Config} {base state : StoreState} {transaction : TransactionId}
  {log : List WalEntry}

theorem traces_begin : Traces config base transaction base [WalEntry.new (.begin transaction)] :=
  ⟨_, [], rfl, rfl, rfl⟩

theorem Traces.ne_nil (h : Traces config base transaction state log) : log ≠ [] := by
  obtain ⟨first, ops, rfl, -⟩ := h
  exact List.cons_ne_nil _ _

/-- The log of a transaction grows with its operations. -/
theorem Traces.concat (h : Traces config base transaction state log) {entry : WalEntry}
    {state' : StoreState} (he : entry.record.replay config state = some state') :
    Traces config base transaction state' (log ++ [entry]) := by
  obtain ⟨first, ops, rfl, hfirst, hops⟩ := h
  exact ⟨first, ops ++ [entry], rfl, hfirst, replays_concat hops he⟩

/-- Only the records of the log matter. -/
theorem replays_congr {log log' : List WalEntry}
    (h : log'.map WalEntry.record = log.map WalEntry.record) (s : StoreState) :
    replays config s log' = replays config s log := by
  have hmap : ∀ l : List WalEntry, replays config s l =
      (l.map WalEntry.record).foldlM (fun s record => record.replay config s) s :=
    fun l => List.foldlM_map.symm
  rw [hmap, hmap, h]

theorem Traces.congr (h : Traces config base transaction state log) {log' : List WalEntry}
    (hr : log'.map WalEntry.record = log.map WalEntry.record) :
    Traces config base transaction state log' := by
  obtain ⟨first, ops, rfl, hfirst, hops⟩ := h
  rw [List.map_cons] at hr
  obtain ⟨first', ops', rfl, hfirst', hops'⟩ := List.map_eq_cons_iff.mp hr
  exact ⟨first', ops', rfl, hfirst'.trans hfirst, (replays_congr hops' base).trans hops⟩

theorem Receipted.congr (h : Receipted config base state log) {log' : List WalEntry}
    (hr : log'.map WalEntry.record = log.map WalEntry.record) :
    Receipted config base state log' := by
  obtain ⟨transaction, working, ops, receipt, rfl, htrace, hnext, hbase, hstate, hreceipt⟩ := h
  rw [List.map_append] at hr
  obtain ⟨ops', last, rfl, hops', hlast⟩ := List.map_eq_append_iff.mp hr
  obtain ⟨receipt', rest, rfl, hreceipt', hrest⟩ := List.map_eq_cons_iff.mp hlast
  obtain rfl := List.map_eq_nil_iff.mp hrest
  exact ⟨transaction, working, ops', receipt', rfl, htrace.congr hops', hnext, hbase, hstate,
    hreceipt'.trans hreceipt⟩

/-- **What `corrupt_pending_metadata` does to a log**: the records stay. -/
theorem flipLast_cases (log : List WalEntry) (e : Error) :
    (log = [] ∧ flipLast log e = .error e) ∨
      ∃ log', flipLast log e = .ok log' ∧ log'.map WalEntry.record = log.map WalEntry.record := by
  unfold flipLast
  rcases List.eq_nil_or_concat log with rfl | ⟨init, last, rfl⟩
  · exact Or.inl ⟨rfl, rfl⟩
  · rw [List.concat_eq_append, List.getLast?_concat]
    refine Or.inr ⟨_, rfl, ?_⟩
    rw [List.dropLast_concat, List.map_append, List.map_append]
    rfl

end Log

namespace WalStore

/-- **The store is a view.** -/
structure Rep (s : WalStore) (v : View) : Prop where
  config : s.config = v.config
  base : s.base = v.committed
  active : s.active = v.active
  nextTransaction : s.nextTransaction = v.nextTransaction
  snapshots : s.snapshots = v.snapshots
  fault : s.fault = v.fault
  log : LogIs v s.log

theorem rep_new {config : Config} {s : WalStore} (h : WalStore.new config = .ok s) :
    s.Rep (View.new config) := by
  unfold WalStore.new at h
  rw [config.new_self] at h
  cases h
  exact ⟨rfl, rfl, rfl, rfl, rfl, rfl, rfl⟩

variable {s : WalStore} {v : View}

/-! ## 4. Calls that leave the log alone -/

theorem Rep.check (h : s.Rep v) (transaction : TransactionId) (now : Tick) :
    s.checkTransaction transaction now = v.check transaction now := by
  unfold checkTransaction View.check
  rw [h.active]

/-- The log is empty if nothing is pending or in progress. -/
theorem Rep.log_eq_nil (h : s.Rep v) (ha : v.active = none) (hp : v.pending = .nothing) :
    s.log = [] := by
  have hlog := h.log
  unfold LogIs at hlog
  rw [ha, hp] at hlog
  exact hlog

theorem Rep.log_ne_nil (h : s.Rep v) (ha : v.active = none) (hp : v.pending ≠ .nothing) :
    s.log ≠ [] := by
  have hlog := h.log
  unfold LogIs at hlog
  rw [ha] at hlog
  cases hpend : v.pending with
  | nothing => exact absurd hpend hp
  | torn =>
    rw [hpend] at hlog
    obtain ⟨_, _, -, htrace⟩ := hlog
    exact htrace.ne_nil
  | receipted state valid =>
    rw [hpend] at hlog
    obtain ⟨⟨_, _, ops, receipt, hlog, -⟩, -⟩ := hlog
    rw [hlog]
    exact List.append_ne_nil_of_right_ne_nil _ (List.cons_ne_nil _ _)

theorem Rep.cancel (h : s.Rep v) (transaction : TransactionId) :
    (s.cancel transaction).1 = (v.cancel transaction).1 ∧
      (s.cancel transaction).2.Rep (v.cancel transaction).2 := by
  have hlog := h.log
  unfold LogIs at hlog
  unfold WalStore.cancel View.cancel
  rw [h.active]
  cases ha : v.active with
  | none => exact ⟨rfl, h⟩
  | some w =>
    rw [ha] at hlog
    simp only [okOr_some, attempt_ok]
    split
    · exact ⟨rfl, h⟩
    · exact ⟨rfl, h.config, h.base, rfl, h.nextTransaction, h.snapshots, h.fault, hlog⟩

theorem Rep.snapshot (h : s.Rep v) :
    s.snapshot.1 = v.snapshot.1 ∧ s.snapshot.2.Rep v.snapshot.2 := by
  unfold WalStore.snapshot View.snapshot
  rw [h.snapshots, h.base]
  exact ⟨rfl, h.config, rfl, h.active, h.nextTransaction, rfl, h.fault, h.log⟩

theorem Rep.readSnapshot (h : s.Rep v) (id : SnapshotId) (handle : ObjectHandle) (offset : Nat)
    (output : Bytes) :
    s.readSnapshot id handle offset output = v.readSnapshot id handle offset output := by
  unfold WalStore.readSnapshot View.readSnapshot
  rw [h.snapshots]

/-! ## 5. Transactions -/

/-- With nothing pending, `begin` logs its record. -/
theorem Rep.begin_nothing (h : s.Rep v) (ha : v.active = none) (hp : v.pending = .nothing)
    (now : Tick) (deadline : Deadline) :
    (s.begin now deadline).1 = (v.begin now deadline).1 ∧
      (s.begin now deadline).2.Rep (v.begin now deadline).2 := by
  have hnil := h.log_eq_nil ha hp
  unfold WalStore.begin View.begin
  rw [h.active, ha, hnil, h.nextTransaction, h.base]
  simp only [Option.isSome_none, Bool.false_eq_true, if_false, List.length_nil, ne_eq,
    not_true_eq_false]
  split
  · exact ⟨rfl, h⟩
  · cases checkedAdd v.nextTransaction 1 with
    | none => exact ⟨rfl, h⟩
    | some next =>
      have happend : ∀ record, s.append record = (.ok (), { s with log := [WalEntry.new record] }) := by
        intro record
        unfold append
        rw [hnil]
        rfl
      simp only [okOr_some, attempt_ok, happend]
      refine ⟨trivial, h.config, h.base, ?_, rfl, h.snapshots, h.fault, hp, traces_begin, ?_⟩
      · simp only [h.base]
      · intro _ e he
        rw [List.mem_singleton.mp he]
        exact WalEntry.verify_new _

theorem Rep.begin (h : s.Rep v) (now : Tick) (deadline : Deadline) :
    ∃ v', (s.begin now deadline).2.Rep v' ∧
      Moves .wal v (.begin now deadline) (.transaction (s.begin now deadline).1) v' := by
  cases ha : v.active with
  | some w =>
    have hbusy : s.begin now deadline = (.error .transactionBusy, s) := by
      unfold WalStore.begin
      rw [h.active, ha]
      rfl
    have hbusy' : v.begin now deadline = (.error .transactionBusy, v) := by
      unfold View.begin
      rw [ha]
      rfl
    have hmove : Moves .wal v (.begin now deadline) (.transaction (v.begin now deadline).1)
        (v.begin now deadline).2 := Moves.ideal _ fun _ hn => nomatch ha.symm.trans hn
    rw [hbusy'] at hmove
    rw [hbusy]
    exact ⟨v, h, hmove⟩
  | none =>
    by_cases hp : v.pending = .nothing
    · obtain ⟨hsame, hrep⟩ := h.begin_nothing ha hp now deadline
      rw [hsame]
      exact ⟨_, hrep, Moves.ideal (.begin now deadline) fun _ _ hn => absurd hp hn⟩
    · have hrequired : s.begin now deadline = (.error .recoveryRequired, s) := by
        unfold WalStore.begin
        rw [h.active, ha, if_neg (by exact Bool.false_ne_true), if_pos]
        exact fun hlen => h.log_ne_nil ha hp (List.length_eq_zero_iff.mp hlen)
      rw [hrequired]
      exact ⟨v, h, Moves.recoveryRequired now deadline rfl ha hp⟩

/-- An operation on the log: the operation, its record, and the new working state. -/
def perform (s : WalStore) (m : Mutation) : Except Error (Option ObjectHandle) × WalStore :=
  attempt (okOr s.active .noActiveTransaction) s fun working =>
  let r := m.apply s.config working.state
  attempt r.1 s fun a =>
  if s.log.length < maxWalRecords then
    (.ok a, { s with
      log := s.log ++ [WalEntry.new (m.record a)]
      active := some { working with state := r.2 } })
  else (.error .walFull, s)

theorem logged_eq {α : Type} (s : WalStore) (op : StoreState → Except Error α × StoreState)
    (record : α → WalRecord) (m : Mutation) (f : α → Option ObjectHandle)
    (hop : ∀ state, m.apply s.config state = ((op state).1.map f, (op state).2))
    (hrecord : ∀ a, m.record (f a) = record a) :
    ((s.logged op record).1.map f, (s.logged op record).2) = s.perform m := by
  unfold logged perform append
  cases s.active with
  | none => rfl
  | some w =>
    simp only [okOr_some, attempt_ok, hop]
    cases (op w.state).1 with
    | error e => rfl
    | ok a =>
      simp only [attempt_ok]
      split
      · simp only [attempt_ok, okOr_some, Except.map, hrecord]
      · rfl

theorem mutate_eq {α : Type} (s : WalStore) (transaction : TransactionId) (now : Tick)
    (op : StoreState → Except Error α × StoreState) (record : α → WalRecord) (m : Mutation)
    (f : α → Option ObjectHandle)
    (hop : ∀ state, m.apply s.config state = ((op state).1.map f, (op state).2))
    (hrecord : ∀ a, m.record (f a) = record a) :
    ((s.mutate transaction now op record).1.map f, (s.mutate transaction now op record).2) =
      attempt (s.checkTransaction transaction now) s fun _ => s.perform m := by
  unfold mutate
  cases s.checkTransaction transaction now with
  | error e => rfl
  | ok u => exact s.logged_eq op record m f hop hrecord

/-- `write` puts its payload between the check and the log.  An input that makes no payload is one
that the state refuses with the same error. -/
theorem write_eq (s : WalStore) (transaction : TransactionId) (now : Tick) (handle : ObjectHandle)
    (offset : Nat) (input : Bytes) :
    ((s.write transaction now handle offset input).1.map fun _ => none,
      (s.write transaction now handle offset input).2) =
      attempt (s.checkTransaction transaction now) s fun _ =>
        s.perform (.write handle offset input) := by
  unfold write
  cases hcheck : s.checkTransaction transaction now with
  | error e => rfl
  | ok u =>
    simp only [attempt_ok]
    by_cases hio : input.length > maxIoBytes
    · rw [WritePayload.new_tooLarge hio]
      unfold perform
      cases ha : s.active with
      | none =>
        -- the check has found a transaction
        unfold checkTransaction at hcheck
        rw [ha] at hcheck
        cases hcheck
      | some w =>
        have hwrite : w.state.write handle offset input s.config = (.error .ioTooLarge, w.state) :=
          if_pos hio
        simp only [okOr_some, attempt_ok, attempt_error, Mutation.apply, hwrite]
        rfl
    · rw [WritePayload.new_fits (Nat.le_of_not_lt hio)]
      exact s.logged_eq _ _ (.write handle offset input) _ (fun _ => rfl) fun _ => rfl

/-- The five operations are one. -/
theorem run_mutation (s : WalStore) (transaction : TransactionId) (now : Tick) (m : Mutation) :
    m.run s transaction now =
      attempt (s.checkTransaction transaction now) s fun _ => s.perform m := by
  cases m with
  | create => exact s.mutate_eq transaction now _ _ .create some (fun _ => rfl) fun _ => rfl
  | write handle offset input => exact s.write_eq transaction now handle offset input
  | truncate handle newLen =>
    exact s.mutate_eq transaction now _ _ (.truncate handle newLen) _ (fun _ => rfl) fun _ => rfl
  | delete handle =>
    exact s.mutate_eq transaction now _ _ (.delete handle) _ (fun _ => rfl) fun _ => rfl
  | bind name handle =>
    exact s.mutate_eq transaction now _ _ (.bind name handle) _ (fun _ => rfl) fun _ => rfl

/-- An operation fails, finds the log full, or is logged. -/
theorem Rep.mutate (h : s.Rep v) (hs : v.Sound) (transaction : TransactionId) (now : Tick)
    (m : Mutation) :
    ∃ v', (m.run s transaction now).2.Rep v' ∧
      Moves .wal v (.mutate transaction now m) (.mutated (m.run s transaction now).1) v' := by
  have hideal : Moves .wal v (.mutate transaction now m) (.mutated (v.mutate transaction now m).1)
      (v.mutate transaction now m).2 := Moves.ideal _ nofun
  rw [run_mutation, h.check]
  unfold View.mutate at hideal
  rcases v.check_cases transaction now with ⟨e, -, hc⟩ | ⟨w, ha, -, hc⟩
  · rw [hc] at hideal ⊢
    exact ⟨v, h, hideal⟩
  · rw [hc, ha] at hideal
    rw [hc, attempt_ok]
    unfold perform
    rw [h.active, ha, okOr_some, attempt_ok, h.config]
    simp only [okOr_some, attempt_ok] at hideal
    rcases Mutation.apply_cases (hs.active w ha).1 m with ⟨e, -, hm⟩ | ⟨r, state, hm, -⟩
    · simp only [hm] at hideal ⊢
      rw [← ha] at hideal
      exact ⟨v, h, hideal⟩
    · simp only [hm, attempt_ok] at hideal ⊢
      split
      · have hlog := h.log
        unfold LogIs at hlog
        rw [ha] at hlog
        obtain ⟨hp, htrace, hverify⟩ := hlog
        refine ⟨_, ?_, hideal⟩
        refine ⟨rfl, h.base, rfl, h.nextTransaction, h.snapshots, h.fault, hp, ?_, ?_⟩
        · exact htrace.concat (Mutation.replay_record hm)
        · intro ht e he
          rcases List.mem_append.mp he with he | he
          · exact hverify ht e he
          · rw [List.mem_singleton.mp he]
            exact WalEntry.verify_new _
      · have hok : (v.mutate transaction now m).1 = .ok r := by
          unfold View.mutate
          rw [hc, attempt_ok, ha, okOr_some, attempt_ok]
          exact congrArg Prod.fst hm
        exact ⟨v, h, Moves.full transaction now m rfl r hok⟩

/-- `abort` clears the log. -/
theorem Rep.abort (h : s.Rep v) (transaction : TransactionId) :
    (s.abort transaction).1 = (v.abort transaction).1 ∧
      (s.abort transaction).2.Rep (v.abort transaction).2 := by
  have hlog := h.log
  unfold LogIs at hlog
  unfold WalStore.abort View.abort
  rw [h.active]
  cases ha : v.active with
  | none => exact ⟨rfl, h⟩
  | some w =>
    rw [ha] at hlog
    simp only [okOr_some, attempt_ok]
    split
    · exact ⟨rfl, h⟩
    · refine ⟨rfl, h.config, h.base, rfl, h.nextTransaction, h.snapshots, h.fault, ?_⟩
      unfold LogIs
      simp only [hlog.1]
      rfl

/-- `corrupt_pending_metadata` changes a checksum and no record. -/
theorem Rep.corruptPendingMetadata (h : s.Rep v) :
    ∃ v', s.corruptPendingMetadata.2.Rep v' ∧
      Moves .wal v .corruptPendingMetadata (.done s.corruptPendingMetadata.1) v' := by
  have hlog := h.log
  unfold LogIs at hlog
  unfold WalStore.corruptPendingMetadata
  rcases flipLast_cases s.log .noPendingRecovery with ⟨-, he⟩ | ⟨log, hok, hr⟩
  · rw [he]
    exact ⟨v, h, Moves.ideal _ nofun⟩
  · rw [hok, attempt_ok]
    -- the flipped log is described by the same view, up to the validity of a receipt
    have hmove : ∀ pending, v.pending.Resembles pending →
        LogIs { v with pending := pending, tampered := true } log →
        ∃ v', ({ s with log := log } : WalStore).Rep v' ∧
          Moves .wal v .corruptPendingMetadata (.done (.ok ())) v' := by
      intro pending hp hlog'
      refine ⟨_, ?_, Moves.corrupted _ (Or.inl rfl) pending hp⟩
      exact ⟨h.config, h.base, h.active, h.nextTransaction, h.snapshots, h.fault, hlog'⟩
    cases ha : v.active with
    | some w =>
      rw [ha] at hlog
      obtain ⟨hp, htrace, -⟩ := hlog
      refine hmove .nothing (by rw [hp]; trivial) ?_
      unfold LogIs
      simp only [ha]
      exact ⟨trivial, htrace.congr hr, nofun⟩
    | none =>
      rw [ha] at hlog
      cases hp : v.pending with
      | nothing =>
        rw [hp] at hlog
        rw [hlog] at hok
        cases hok
      | torn =>
        rw [hp] at hlog
        obtain ⟨transaction, state, hbase, htrace⟩ := hlog
        refine hmove .torn (by rw [hp]; trivial) ?_
        unfold LogIs
        simp only [ha]
        exact ⟨transaction, state, hbase, htrace.congr hr⟩
      | receipted state valid =>
        rw [hp] at hlog
        refine hmove (.receipted state (decide (∀ e ∈ log, e.verify = true))) (by rw [hp]; exact rfl) ?_
        unfold LogIs
        simp only [ha]
        exact ⟨hlog.1.congr hr, decide_eq_true_iff⟩

/-! ## 6. Commits -/

/-- The receipt of a commit. -/
def receipt (candidate : StoreState) : WalEntry :=
  WalEntry.new (.commit candidate.generation candidate.checksum)

/-- **What a commit does from its fault point on.** -/
theorem publish_cases (s : WalStore) (candidate : StoreState) (durability : CommitDurability) :
    (s.fault = .beforeCommitReceipt ∧ s.publish candidate durability =
        (.error (.interrupted .beforeCommitReceipt), { s with fault := .none, active := none })) ∨
      s.publish candidate durability = (.error .walFull, { s with fault := .none }) ∨
      (s.fault = .none ∧ s.publish candidate durability =
        (.ok (CommitReceipt.new .wal candidate.generation candidate.checksum durability),
          { s with fault := .none, active := none, base := candidate, log := [] })) ∨
      (s.fault = .afterCommitReceipt ∧ s.publish candidate durability =
        (.error (.interrupted .afterCommitReceipt),
          { s with fault := .none, active := none, log := s.log ++ [receipt candidate] })) ∨
      (s.fault = .corruptCommitReceipt ∧ s.publish candidate durability =
        (.error (.interrupted .corruptCommitReceipt),
          { s with fault := .none, active := none, log := s.log ++ [(receipt candidate).flip] })) := by
  unfold publish append
  cases hf : s.fault with
  | beforeCommitReceipt => exact Or.inl ⟨rfl, rfl⟩
  | none =>
    rw [if_neg nofun]
    split
    · exact Or.inr (Or.inr (Or.inl ⟨rfl, rfl⟩))
    · exact Or.inr (Or.inl rfl)
  | afterCommitReceipt =>
    rw [if_neg nofun]
    split
    · exact Or.inr (Or.inr (Or.inr (Or.inl ⟨rfl, rfl⟩)))
    · exact Or.inr (Or.inl rfl)
  | corruptCommitReceipt =>
    rw [if_neg nofun]
    split
    · have hflip : ∀ log : List WalEntry, flipLast (log ++ [receipt candidate]) .invariantViolation =
          .ok (log ++ [(receipt candidate).flip]) := by
        intro log
        unfold flipLast
        rw [List.getLast?_concat, List.dropLast_concat]
      refine Or.inr (Or.inr (Or.inr (Or.inr ⟨rfl, ?_⟩)))
      simp only [attempt_ok, if_true]
      unfold receipt at hflip ⊢
      rw [hflip]
      rfl
    · exact Or.inr (Or.inl rfl)

/-- The log of a transaction with its receipt. -/
theorem receipted_concat {w : WorkingTransaction} {log : List WalEntry} {entry : WalEntry}
    (htrace : Traces v.config v.committed w.id w.state log)
    (hbase : w.id.baseGeneration = v.committed.generation)
    (hnext : nextGeneration w.id.baseGeneration = .ok (v.candidate w).generation)
    (hentry : entry.record = .commit (v.candidate w).generation (v.candidate w).checksum) :
    Receipted v.config v.committed (v.candidate w) (log ++ [entry]) :=
  ⟨w.id, w.state, log, entry, rfl, htrace, hnext, hbase, rfl, hentry⟩

/-- **A commit from its fault point on** does what the ideal store does, unless it finds the log
full or corrupted. -/
theorem Rep.publish (h : s.Rep v) (hs : v.Sound) {w : WorkingTransaction} (ha : v.active = some w)
    (hnext : nextGeneration w.id.baseGeneration = .ok (v.candidate w).generation)
    (durability : CommitDurability) {seen : Except Error (Generation × UInt64)}
    (hseen : ((s.publish (v.candidate w) durability).1.map fun c =>
      (c.generation, c.stateChecksum)) = seen) :
    ∃ v', (s.publish (v.candidate w) durability).2.Rep v' ∧
      ((seen = (v.publish (v.candidate w)).1 ∧ v' = (v.publish (v.candidate w)).2) ∨
        (seen = .error .walFull ∧ v' = { v with fault := .none }) ∨
        (v.tampered = true ∧ seen = (v.publish (v.candidate w)).1 ∧
          (v.publish (v.candidate w)).1 = .error (.interrupted .afterCommitReceipt) ∧
          (v.publish (v.candidate w)).2.pending = .receipted (v.candidate w) true ∧
          v' = { (v.publish (v.candidate w)).2 with
            pending := .receipted (v.candidate w) false })) := by
  have hlog := h.log
  unfold LogIs at hlog
  rw [ha] at hlog
  obtain ⟨-, htrace, hverify⟩ := hlog
  obtain ⟨-, -, -, hbase, -⟩ := hs.active w ha
  unfold View.publish
  rw [← hseen]
  rcases s.publish_cases (v.candidate w) durability with
    ⟨hf, hpub⟩ | hpub | ⟨hf, hpub⟩ | ⟨hf, hpub⟩ | ⟨hf, hpub⟩
  · -- the receipt was not written: the log keeps the operations alone
    rw [hpub, ← h.fault, hf]
    refine ⟨_, ?_, Or.inl ⟨rfl, rfl⟩⟩
    exact ⟨h.config, h.base, rfl, h.nextTransaction, h.snapshots, rfl, w.id, w.state, hbase, htrace⟩
  · -- no room for the receipt
    rw [hpub]
    refine ⟨_, ?_, Or.inr (Or.inl ⟨rfl, rfl⟩)⟩
    exact ⟨h.config, h.base, h.active, h.nextTransaction, h.snapshots, rfl, h.log⟩
  · -- published: the log is cleared
    rw [hpub, ← h.fault, hf]
    refine ⟨_, ?_, Or.inl ⟨rfl, rfl⟩⟩
    exact ⟨h.config, rfl, rfl, h.nextTransaction, h.snapshots, rfl, rfl⟩
  · have hreceipt : Receipted v.config v.committed (v.candidate w)
        (s.log ++ [receipt (v.candidate w)]) := receipted_concat htrace hbase hnext rfl
    rw [hpub, ← h.fault, hf]
    by_cases hall : ∀ e ∈ s.log ++ [receipt (v.candidate w)], e.verify = true
    · refine ⟨_, ?_, Or.inl ⟨rfl, rfl⟩⟩
      exact ⟨h.config, h.base, rfl, h.nextTransaction, h.snapshots, rfl, hreceipt,
        fun _ => hall, fun _ => rfl⟩
    · -- an entry that does not verify was corrupted
      have ht : v.tampered = true := by
        by_contra hno
        refine hall fun e he => ?_
        rcases List.mem_append.mp he with he | he
        · exact hverify (Bool.eq_false_iff.mpr hno) e he
        · rw [List.mem_singleton.mp he]
          exact WalEntry.verify_new _
      refine ⟨_, ?_, Or.inr (Or.inr ⟨ht, rfl, rfl, rfl, rfl⟩)⟩
      exact ⟨h.config, h.base, rfl, h.nextTransaction, h.snapshots, rfl, hreceipt,
        nofun, fun hv => absurd hv hall⟩
  · -- a receipt that was damaged does not verify
    have hreceipt : Receipted v.config v.committed (v.candidate w)
        (s.log ++ [(receipt (v.candidate w)).flip]) := receipted_concat htrace hbase hnext rfl
    rw [hpub, ← h.fault, hf]
    refine ⟨_, ?_, Or.inl ⟨rfl, rfl⟩⟩
    refine ⟨h.config, h.base, rfl, h.nextTransaction, h.snapshots, rfl, hreceipt, nofun, ?_⟩
    intro hall
    have hlast := hall _ (List.mem_append.mpr (Or.inr (List.mem_singleton_self _)))
    rw [receipt, WalEntry.verify_flip] at hlast
    exact hlast

/-- A commit is refused as the ideal one is, or publishes. -/
theorem Rep.commit (h : s.Rep v) (hs : v.Sound) (transaction : TransactionId) (now : Tick)
    (durability : Durability) :
    ∃ v', (s.commit transaction now durability).2.Rep v' ∧
      Moves .wal v (.commit transaction now durability)
        (.receipt ((s.commit transaction now durability).1.map fun c =>
          (c.generation, c.stateChecksum))) v' := by
  have hideal : Moves .wal v (.commit transaction now durability)
      (.receipt (v.commit .wal transaction now durability).1)
      (v.commit .wal transaction now durability).2 := Moves.ideal _ nofun
  have hcommit : v.commit .wal transaction now durability =
      v.commit .wal transaction now durability := rfl
  unfold WalStore.commit
  rw [h.check, h.active]
  nth_rewrite 2 [View.commit] at hcommit
  -- the checks agree one by one, and a check that fails leaves both stores as they were
  rcases v.check_cases transaction now with ⟨e, -, hc⟩ | ⟨w, ha, hid, hc⟩
  · rw [hc] at hcommit ⊢
    rw [hcommit] at hideal
    exact ⟨v, h, hideal⟩
  · rw [hc, attempt_ok, ha, okOr_some, attempt_ok] at hcommit ⊢
    obtain ⟨-, -, -, hbase, -⟩ := hs.active w ha
    have hbase' : transaction.baseGeneration = v.committed.generation := by rw [← hid, hbase]
    rcases nextGeneration_cases transaction.baseGeneration with hg | hg
    · rw [hg] at hcommit ⊢
      rw [hcommit] at hideal
      exact ⟨v, h, hideal⟩
    · have hnext : nextGeneration w.id.baseGeneration = .ok (v.candidate w).generation := by
        rw [hid, hg, hbase']
        rfl
      rw [hg, attempt_ok, hbase'] at hcommit ⊢
      change v.commit .wal transaction now durability = attempt (validateDurability durability .wal
        transaction (v.candidate w).generation (v.candidate w).checksum) v fun _ =>
          v.publish (v.candidate w) at hcommit
      show ∃ v', (attempt (validateDurability durability .wal transaction
          (v.candidate w).generation (v.candidate w).checksum) s fun d =>
            s.publish (v.candidate w) d).2.Rep v' ∧ Moves .wal v _
        (.receipt ((attempt (validateDurability durability .wal transaction
          (v.candidate w).generation (v.candidate w).checksum) s fun d =>
            s.publish (v.candidate w) d).1.map fun c => (c.generation, c.stateChecksum))) v'
      rcases validateDurability_cases durability .wal transaction (v.candidate w).generation
        (v.candidate w).checksum with hd | ⟨d, hd⟩
      · rw [hd] at hcommit ⊢
        rw [hcommit] at hideal
        exact ⟨v, h, hideal⟩
      · rw [hd, attempt_ok] at hcommit ⊢
        -- what is left are the outcomes of the publication
        obtain ⟨v', hrep, ⟨hseen, rfl⟩ | ⟨hseen, rfl⟩ | ⟨ht, hseen, hi, hp, rfl⟩⟩ :=
          h.publish hs ha hnext d rfl
        · rw [hseen]
          rw [hcommit] at hideal
          exact ⟨_, hrep, hideal⟩
        · rw [hseen]
          exact ⟨_, hrep, Moves.commitFull transaction now durability rfl hc⟩
        · rw [← hcommit] at hseen hi hp hrep
          rw [hseen]
          exact ⟨_, hrep, Moves.untrusted transaction now durability rfl ht _ hp hi⟩

/-! ## 7. Recovery -/

theorem recover_empty (hlog : s.log = []) :
    s.recover = (.ok ⟨s.base.generation, false, 0, false⟩,
      { s with active := none, fault := .none }) := by
  unfold recover
  simp only [hlog]

/-- A log with an entry that does not verify is rejected. -/
theorem recover_rejected {entry : WalEntry} (he : entry ∈ s.log) (hv : entry.verify = false) :
    s.recover = (.ok ⟨s.base.generation, true, 1, true⟩,
      { s with active := none, fault := .none, log := [] }) := by
  have hany : (s.log.any fun entry => !entry.verify) = true :=
    List.any_eq_true.mpr ⟨entry, he, by rw [hv]; rfl⟩
  unfold recover
  cases hlog : s.log with
  | nil =>
    rw [hlog] at he
    cases he
  | cons first rest =>
    rw [hlog] at hany
    simp only [hany, if_true]
    rfl

/-- A log that verifies is replayed. -/
theorem recover_replayed {first : WalEntry} {rest : List WalEntry} {transaction : TransactionId}
    {state : StoreState} {committed : Bool} (hlog : s.log = first :: rest)
    (hfirst : first.record = .begin transaction)
    (hbase : transaction.baseGeneration = s.base.generation)
    (hall : ∀ e ∈ s.log, e.verify = true)
    (hreplay : replay s.config transaction rest s.base false = .ok (some (state, committed))) :
    s.recover = (.ok ⟨(if committed then state else s.base).generation, true, 0, !committed⟩,
      { s with
        active := none, fault := .none, log := []
        base := if committed then state else s.base }) := by
  have hany : ((first :: rest).any fun entry => !entry.verify) = false := by
    rw [List.any_eq_false]
    intro e he
    rw [hall e (hlog ▸ he)]
    exact Bool.false_ne_true
  unfold recover
  simp only [hlog, hany, Bool.false_eq_true, if_false, hfirst, hbase, ne_eq, not_true_eq_false,
    hreplay, attempt_ok]
  cases committed <;> rfl

/-- The log of a transaction without a receipt is discarded. -/
theorem Rep.recover_trace (h : s.Rep v) {transaction : TransactionId} {state : StoreState}
    (hbase : transaction.baseGeneration = v.committed.generation)
    (htrace : Traces v.config v.committed transaction state s.log) :
    ∃ report : RecoveryReport, report.selectedGeneration = v.committed.generation ∧
      s.recover = (.ok report, { s with active := none, fault := .none, log := [] }) := by
  by_cases hall : ∀ e ∈ s.log, e.verify = true
  · obtain ⟨first, ops, hlog, hfirst, hops⟩ := htrace
    rw [← h.base, ← h.config] at hops
    have hreplay : replay s.config transaction ops s.base false = .ok (some (state, false)) := by
      have h1 : replay s.config transaction (ops ++ []) s.base false =
          replay s.config transaction [] state false := replay_of_replays hops []
      rw [List.append_nil] at h1
      exact h1
    rw [← h.base] at hbase ⊢
    exact ⟨_, rfl, recover_replayed hlog hfirst hbase hall hreplay⟩
  · obtain ⟨e, he, hv⟩ := not_forall₂.mp hall
    rw [← h.base]
    exact ⟨_, rfl, recover_rejected he (Bool.eq_false_iff.mpr hv)⟩

/-- **A log with a receipt is replayed to the state of the receipt**, or rejected if it is not
valid. -/
theorem Rep.recover_receipted (h : s.Rep v) {state : StoreState} {valid : Bool}
    (hp : v.pending = .receipted state valid)
    (hreceipt : Receipted v.config v.committed state s.log)
    (hvalid : valid = true ↔ ∀ e ∈ s.log, e.verify = true) :
    ∃ report : RecoveryReport, report.selectedGeneration =
        (v.pending.installed v.committed).generation ∧
      s.recover = (.ok report, { s with
        active := none, fault := .none, log := []
        base := v.pending.installed v.committed }) := by
  obtain ⟨transaction, working, ops, receipt, hlog, htrace, hnext, hbase, hstate, hrecord⟩ :=
    hreceipt
  rw [hp]
  cases valid with
  | false =>
    -- an entry does not verify: the log is rejected whole
    have hno : ¬ ∀ e ∈ s.log, e.verify = true := fun hall => nomatch hvalid.mpr hall
    obtain ⟨e, he, hv⟩ := not_forall₂.mp hno
    show ∃ report : RecoveryReport, report.selectedGeneration = v.committed.generation ∧
      s.recover = (.ok report, { s with
        active := none, fault := .none, log := [], base := v.committed })
    rw [← h.base]
    exact ⟨_, rfl, recover_rejected he (Bool.eq_false_iff.mpr hv)⟩
  | true =>
    -- every entry verifies: the log is replayed up to its receipt
    have hall := hvalid.mp rfl
    obtain ⟨first, rest, rfl, hfirst, hops⟩ := htrace
    rw [← h.base, ← h.config] at hops
    have hverify : receipt.verify = true := by
      refine hall receipt ?_
      rw [hlog]
      exact List.mem_append.mpr (Or.inr (List.mem_singleton_self _))
    have hreplay : replay s.config transaction (rest ++ [receipt]) s.base false =
        .ok (some (state, true)) := by
      rw [hstate] at hrecord ⊢
      rw [replay_of_replays hops, replay_receipt hnext hrecord hverify]
    rw [← h.base] at hbase
    exact ⟨_, rfl, recover_replayed hlog hfirst hbase hall hreplay⟩

/-- **`recover` does what the ideal store does.** -/
theorem Rep.recover (h : s.Rep v) (hs : v.Sound) :
    (s.recover.1.map fun r => r.selectedGeneration) = .ok v.recover.committed.generation ∧
      s.recover.2.Rep v.recover := by
  have hlog := h.log
  unfold LogIs at hlog
  -- it is enough that the log is cleared and the base is the state to be installed
  have hdone : ∀ report : RecoveryReport,
      report.selectedGeneration = (v.pending.installed v.committed).generation →
      s.recover = (.ok report, { s with
        active := none, fault := .none, log := [], base := v.pending.installed v.committed }) →
      (s.recover.1.map fun r => r.selectedGeneration) = .ok v.recover.committed.generation ∧
        s.recover.2.Rep v.recover := by
    intro report hreport hrecover
    rw [hrecover]
    refine ⟨congrArg Except.ok hreport, ?_⟩
    exact ⟨h.config, rfl, rfl, h.nextTransaction, h.snapshots, rfl, rfl⟩
  -- without a receipt that is the base
  have hkept : v.pending.installed v.committed = v.committed → ∀ report : RecoveryReport,
      report.selectedGeneration = v.committed.generation →
      s.recover = (.ok report, { s with active := none, fault := .none, log := [] }) →
      (s.recover.1.map fun r => r.selectedGeneration) = .ok v.recover.committed.generation ∧
        s.recover.2.Rep v.recover := by
    intro hbase report hreport hrecover
    refine hdone report (by rw [hbase, hreport]) ?_
    rw [hbase, ← h.base]
    exact hrecover
  cases ha : v.active with
  | some w =>
    rw [ha] at hlog
    obtain ⟨hp, htrace, -⟩ := hlog
    obtain ⟨-, -, -, hbase, -⟩ := hs.active w ha
    obtain ⟨report, hreport, hrecover⟩ := h.recover_trace hbase htrace
    exact hkept (by rw [hp]; rfl) report hreport hrecover
  | none =>
    rw [ha] at hlog
    cases hp : v.pending with
    | nothing =>
      rw [hp] at hlog
      refine hkept (by rw [hp]; rfl) ⟨v.committed.generation, false, 0, false⟩ rfl ?_
      rw [recover_empty hlog, h.base, hlog]
    | torn =>
      rw [hp] at hlog
      obtain ⟨transaction, state, hbase, htrace⟩ := hlog
      obtain ⟨report, hreport, hrecover⟩ := h.recover_trace hbase htrace
      exact hkept (by rw [hp]; rfl) report hreport hrecover
    | receipted state valid =>
      rw [hp] at hlog
      obtain ⟨report, hreport, hrecover⟩ := h.recover_receipted hp hlog.1 hlog.2
      exact hdone report hreport hrecover

/-! ## 8. Every call -/

/-- **The write-ahead-log store is an ideal store**, but for a full log, a transaction that is
refused while one is pending, and a corrupted log. -/
theorem Rep.step (h : s.Rep v) (hs : v.Sound) (c : Call) :
    ∃ v', (c.run s).2.Rep v' ∧ Moves .wal v c (c.run s).1.seen v' := by
  have hideal : ∀ c' : Call, (∀ now deadline, c' ≠ .begin now deadline) →
      (c'.run s).1.seen = (v.step .wal c').1 → (c'.run s).2.Rep (v.step .wal c').2 →
      ∃ v', (c'.run s).2.Rep v' ∧ Moves .wal v c' (c'.run s).1.seen v' := by
    intro c' hc hseen hrep
    refine ⟨_, hrep, ?_⟩
    rw [hseen]
    exact Moves.ideal c' fun _ _ _ => hc
  cases c with
  | begin now deadline => exact h.begin now deadline
  | mutate transaction now m => exact h.mutate hs transaction now m
  | read handle offset output =>
    exact hideal _ nofun
      (congrArg (fun state : StoreState => Seen.bytes (state.read handle offset output)) h.base) h
  | lookup name =>
    exact hideal _ nofun
      (congrArg (fun state : StoreState => Seen.handle (state.lookup name)) h.base) h
  | commit transaction now durability => exact h.commit hs transaction now durability
  | abort transaction =>
    exact hideal _ nofun (congrArg Seen.done (h.abort transaction).1) (h.abort transaction).2
  | cancel transaction =>
    exact hideal _ nofun (congrArg Seen.done (h.cancel transaction).1) (h.cancel transaction).2
  | snapshot => exact hideal _ nofun (congrArg Seen.snapshot h.snapshot.1) h.snapshot.2
  | readSnapshot id handle offset output =>
    exact hideal _ nofun (congrArg Seen.bytes (h.readSnapshot id handle offset output)) h
  | gc retainFrom =>
    have hgc : s.snapshots.gc retainFrom = v.snapshots.gc retainFrom :=
      congrArg (SnapshotSet.gc · retainFrom) h.snapshots
    exact hideal _ nofun (congrArg (fun r : Nat × SnapshotSet => Seen.reclaimed r.1) hgc)
      ⟨h.config, h.base, h.active, h.nextTransaction, congrArg Prod.snd hgc, h.fault, h.log⟩
  | injectFault fault =>
    exact hideal _ nofun rfl ⟨h.config, h.base, h.active, h.nextTransaction, h.snapshots, rfl, h.log⟩
  | corruptPendingMetadata => exact h.corruptPendingMetadata
  | recover =>
    obtain ⟨hseen, hrep⟩ := h.recover hs
    exact hideal _ nofun (congrArg Seen.recovered hseen) hrep

end WalStore

end AegisShield.Storage
