/-
# Room for the receipt

A transaction that was granted all its operations should commit.  The copy-on-write store always
has the other bank for it.  The write-ahead log takes `MAX_WAL_RECORDS` entries, and the begin
record, the operations and the receipt share them: an operation is granted as long as there is a
slot, the last one too, and then there is none for the receipt.

So a commit succeeds exactly if the transaction was not granted an operation in the last slot
(`commit_granted_iff`).  The count is by replies, not by log: `WalStore.Counts` says that the two
agree over every run.
-/
import AegisShield.Storage.Runs

namespace AegisShield.Storage

open Lib

/-! ## 1. What was granted -/

/-- The operations granted to the transaction in progress, `n` before the reply. -/
def Reply.granted (n : Nat) : Reply → Nat
  | .transaction (.ok _) => 0
  | .mutated (.ok _) => n + 1
  | _ => n

/-- The operations granted since the last `begin` that succeeded. -/
def granted (replies : List Reply) : Nat := replies.foldl Reply.granted 0

/-! ## 2. The log counts the operations -/

namespace WalStore

/-- **The log of a transaction**: its begin record and one record for each operation. -/
def Counts (s : WalStore) (n : Nat) : Prop := s.active.isSome = true → s.log.length = n + 1

variable {s s' : WalStore} {n : Nat}

/-- What leaves no transaction, or the log and whether there is one, keeps the count. -/
theorem Counts.keep (h : s.Counts n)
    (hs : s'.active = none ∨ s'.active.isSome = s.active.isSome ∧ s'.log.length = s.log.length) :
    s'.Counts n := by
  intro ha
  rcases hs with hnone | ⟨hactive, hlog⟩
  · rw [hnone] at ha
    cases ha
  · rw [hlog]
    exact h (hactive ▸ ha)

theorem counts_new {config : Config} (h : WalStore.new config = .ok s) : s.Counts 0 := by
  obtain ⟨-, -, hactive, -⟩ := rep_new h
  intro ha
  rw [hactive] at ha
  cases ha

/-- A transaction begins on an empty log. -/
theorem begin_logs (s : WalStore) (now : Tick) (deadline : Deadline) :
    (∃ e, s.begin now deadline = (.error e, s)) ∨
      ∃ id s', s.begin now deadline = (.ok id, s') ∧ s'.log.length = 1 := by
  unfold WalStore.begin
  split
  · exact Or.inl ⟨_, rfl⟩
  · split
    · exact Or.inl ⟨_, rfl⟩
    · rename_i hlog
      have hnil : s.log = [] := List.length_eq_zero_iff.mp (not_not.mp hlog)
      split
      · exact Or.inl ⟨_, rfl⟩
      · cases checkedAdd s.nextTransaction 1 with
        | none => exact Or.inl ⟨_, rfl⟩
        | some next =>
          have happend : ∀ record,
              s.append record = (.ok (), { s with log := [WalEntry.new record] }) := by
            intro record
            unfold append
            rw [hnil]
            rfl
          simp only [okOr_some, attempt_ok, happend]
          exact Or.inr ⟨_, _, rfl, rfl⟩

/-- An operation that is granted takes a slot; one that is not leaves the store as it was. -/
theorem mutation_logs (s : WalStore) (transaction : TransactionId) (now : Tick) (m : Mutation) :
    (∃ e, m.run s transaction now = (.error e, s)) ∨
      ∃ r s', m.run s transaction now = (.ok r, s') ∧ s.active.isSome = true ∧
        s'.log.length = s.log.length + 1 := by
  rw [run_mutation]
  cases s.checkTransaction transaction now with
  | error e => exact Or.inl ⟨e, rfl⟩
  | ok u =>
    rw [attempt_ok]
    unfold perform
    cases ha : s.active with
    | none => exact Or.inl ⟨_, rfl⟩
    | some w =>
      rw [okOr_some, attempt_ok]
      generalize m.apply s.config w.state = applied
      obtain ⟨result, state⟩ := applied
      cases result with
      | error e => exact Or.inl ⟨e, rfl⟩
      | ok r =>
        simp only [attempt_ok]
        split
        · refine Or.inr ⟨r, _, rfl, rfl, ?_⟩
          exact List.length_append
        · exact Or.inl ⟨_, rfl⟩

/-- A commit that does not end the transaction leaves its log. -/
theorem commit_logs (s : WalStore) (transaction : TransactionId) (now : Tick)
    (durability : Durability) :
    (s.commit transaction now durability).2.active = none ∨
      (s.commit transaction now durability).2.active = s.active ∧
        (s.commit transaction now durability).2.log = s.log := by
  unfold WalStore.commit
  cases s.checkTransaction transaction now with
  | error e => exact Or.inr ⟨rfl, rfl⟩
  | ok u =>
    rw [attempt_ok]
    cases ha : s.active with
    | none => exact Or.inl ha
    | some w =>
      rw [okOr_some, attempt_ok]
      cases nextGeneration transaction.baseGeneration with
      | error e => exact Or.inr ⟨ha, rfl⟩
      | ok generation =>
        rw [attempt_ok]
        generalize { w.state with generation := generation } = candidate
        rcases validateDurability_cases durability .wal transaction candidate.generation
          candidate.checksum with hd | ⟨d, hd⟩
        · simp only [hd, attempt_error]
          exact Or.inr ⟨ha, trivial⟩
        · simp only [hd, attempt_ok]
          rcases s.publish_cases candidate d with
            ⟨-, hpub⟩ | hpub | ⟨-, hpub⟩ | ⟨-, hpub⟩ | ⟨-, hpub⟩
          · exact Or.inl (congrArg (fun r => r.2.active) hpub)
          · rw [hpub]
            exact Or.inr ⟨ha, rfl⟩
          · exact Or.inl (congrArg (fun r => r.2.active) hpub)
          · exact Or.inl (congrArg (fun r => r.2.active) hpub)
          · exact Or.inl (congrArg (fun r => r.2.active) hpub)

/-- Of a corrupted log only a checksum changes. -/
theorem corrupt_logs (s : WalStore) :
    s.corruptPendingMetadata.2.active = s.active ∧
      s.corruptPendingMetadata.2.log.length = s.log.length := by
  unfold WalStore.corruptPendingMetadata
  rcases flipLast_cases s.log .noPendingRecovery with ⟨-, he⟩ | ⟨log, hok, hr⟩
  · rw [he]
    exact ⟨rfl, rfl⟩
  · rw [hok, attempt_ok]
    have hlen := congrArg List.length hr
    rw [List.length_map, List.length_map] at hlen
    exact ⟨rfl, hlen⟩

/-- After `recover` there is no transaction. -/
theorem recover_active (s : WalStore) : s.recover.2.active = none := by
  unfold WalStore.recover
  dsimp only
  split
  · rfl
  · split
    · rfl
    · split
      · split
        · rfl
        · cases WalStore.replay _ _ _ _ _ with
          | error e => rfl
          | ok r =>
            rcases r with - | ⟨state, committed⟩
            · rfl
            · cases committed <;> rfl
      · rfl

/-- **Every call keeps the count.** -/
theorem Counts.step (h : s.Counts n) (c : Call) :
    WalStore.Counts (c.run s).2 ((c.run s).1.granted n) := by
  cases c with
  | begin now deadline =>
    show WalStore.Counts (s.begin now deadline).2
      ((Reply.transaction (s.begin now deadline).1).granted n)
    -- its record is the first of the log
    rcases s.begin_logs now deadline with ⟨e, he⟩ | ⟨id, s', hs, hlog⟩
    · rw [he]
      exact h
    · rw [hs]
      exact fun _ => hlog
  | mutate transaction now m =>
    show WalStore.Counts (m.run s transaction now).2
      ((Reply.mutated (m.run s transaction now).1).granted n)
    -- one record for each operation that returned
    rcases s.mutation_logs transaction now m with ⟨e, he⟩ | ⟨r, s', hs, ha, hlog⟩
    · rw [he]
      exact h
    · rw [hs]
      intro _
      rw [hlog, h ha]
      rfl
  | read handle offset output => exact h
  | lookup name => exact h
  | commit transaction now durability =>
    refine h.keep ((s.commit_logs transaction now durability).imp_right ?_)
    exact fun ⟨hactive, hlog⟩ => ⟨congrArg Option.isSome hactive, congrArg List.length hlog⟩
  | abort transaction =>
    refine h.keep ?_
    show (s.abort transaction).2.active = none ∨ (s.abort transaction).2.active.isSome = _ ∧
      (s.abort transaction).2.log.length = _
    unfold WalStore.abort
    cases ha : s.active with
    | none => exact Or.inl ha
    | some w =>
      rw [okOr_some, attempt_ok]
      split
      · exact Or.inr ⟨congrArg Option.isSome ha, rfl⟩
      · exact Or.inl rfl
  | cancel transaction =>
    refine h.keep ?_
    show (s.cancel transaction).2.active = none ∨ (s.cancel transaction).2.active.isSome = _ ∧
      (s.cancel transaction).2.log.length = _
    unfold WalStore.cancel
    cases ha : s.active with
    | none => exact Or.inl ha
    | some w =>
      rw [okOr_some, attempt_ok]
      split
      · exact Or.inr ⟨congrArg Option.isSome ha, rfl⟩
      · exact Or.inr ⟨rfl, rfl⟩
  | snapshot => exact h
  | readSnapshot id handle offset output => exact h
  | gc retainFrom => exact h
  | injectFault fault => exact h
  | corruptPendingMetadata =>
    obtain ⟨hactive, hlog⟩ := s.corrupt_logs
    exact h.keep (Or.inr ⟨congrArg Option.isSome hactive, hlog⟩)
  | recover => exact h.keep (Or.inl s.recover_active)

/-- **Every run keeps the count.** -/
theorem Counts.run : ∀ {calls : List Call} {s : Store .wal} {n : Nat}, WalStore.Counts s n →
    WalStore.Counts (runCalls s calls) ((replies s calls).foldl Reply.granted n) := by
  intro calls
  induction calls with
  | nil => exact fun h => h
  | cons c calls ih => exact fun h => ih (h.step c)

end WalStore

/-! ## 3. The commit of a transaction in progress -/

/-- **A transaction in progress that nothing stands in the way of**: it is not cancelled, it is
before its deadline, no fault is armed and there is a next generation. -/
structure Ready {S : Type} [TransactionalStore S] [Parts S] (s : S) (w : WorkingTransaction)
    (now : Tick) : Prop where
  active : Parts.active s = some w
  uncancelled : w.cancelled = false
  deadline : now < w.deadline
  fault : Parts.fault s = .none
  generation : TransactionalStore.generation s < 2 ^ 64 - 1

theorem WorkingTransaction.check_self {w : WorkingTransaction} {now : Tick}
    (hc : w.cancelled = false) (hd : now < w.deadline) : w.check w.id now = .ok () := by
  unfold check
  rw [if_neg (not_not.mpr rfl), if_neg (Nat.not_le.mpr hd), hc, if_neg Bool.false_ne_true]

theorem nextGeneration_of_lt {g : Generation} (h : g < 2 ^ 64 - 1) :
    nextGeneration g = .ok (g + 1) := by
  unfold nextGeneration
  rw [checkedAdd_of_lt (Nat.add_lt_of_lt_sub h)]
  rfl

section Commit

variable {w : WorkingTransaction} {now : Tick} {v : View}

/-- The copy-on-write store has the inactive bank for the commit. -/
theorem CowStore.Rep.commit_ready {s : CowStore} (h : s.Rep v) (hs : v.Sound) (hr : Ready s w now) :
    ∃ receipt, (s.commit w.id now .memoryOnly).1 = .ok receipt := by
  have ha : v.active = some w := h.active.symm.trans hr.active
  have hg : v.committed.generation < 2 ^ 64 - 1 := h.committed ▸ hr.generation
  have hf : v.fault = .none := h.fault.symm.trans hr.fault
  obtain ⟨-, -, -, hbase, -⟩ := hs.active w ha
  have hideal : (v.commit .cow w.id now .memoryOnly).1 =
      .ok ((v.candidate w).generation, (v.candidate w).checksum) := by
    unfold View.commit View.check
    rw [ha, okOr_some]
    show (attempt (w.check w.id now) v _).1 = _
    rw [WorkingTransaction.check_self hr.uncancelled hr.deadline, attempt_ok, attempt_ok, hbase,
      nextGeneration_of_lt hg, attempt_ok]
    show (v.publish (v.candidate w)).1 = _
    unfold View.publish
    rw [hf]
  obtain ⟨receipt, hreceipt, -⟩ :=
    map_eq_ok ((h.commit hs w.id now .memoryOnly).1.trans hideal)
  exact ⟨receipt, hreceipt⟩

/-- The write-ahead-log store needs a slot. -/
theorem WalStore.publish_iff {s : WalStore} (hf : s.fault = .none) (candidate : StoreState)
    (d : CommitDurability) :
    (∃ receipt, (s.publish candidate d).1 = .ok receipt) ↔ s.log.length < maxWalRecords := by
  unfold WalStore.publish WalStore.append
  rw [hf, if_neg nofun]
  by_cases hroom : s.log.length < maxWalRecords
  · simp only [if_pos hroom]
    exact ⟨fun _ => hroom, fun _ => ⟨_, rfl⟩⟩
  · simp only [if_neg hroom]
    exact ⟨nofun, fun h => absurd h hroom⟩

/-- **A commit of the write-ahead-log store succeeds exactly if the log has a slot.** -/
theorem WalStore.Rep.commit_iff {s : WalStore} (h : s.Rep v) (hs : v.Sound) (hr : Ready s w now) :
    (∃ receipt, (s.commit w.id now .memoryOnly).1 = .ok receipt) ↔
      s.log.length < maxWalRecords := by
  have ha : s.active = some w := hr.active
  obtain ⟨-, -, -, hbase, -⟩ := hs.active w (h.active.symm.trans ha)
  have hg : w.id.baseGeneration < 2 ^ 64 - 1 := by
    rw [hbase, ← h.base]
    exact hr.generation
  have hcheck : s.checkTransaction w.id now = .ok () := by
    unfold WalStore.checkTransaction
    rw [ha]
    exact WorkingTransaction.check_self hr.uncancelled hr.deadline
  unfold WalStore.commit
  rw [hcheck, attempt_ok, ha, okOr_some, attempt_ok, nextGeneration_of_lt hg, attempt_ok]
  exact WalStore.publish_iff hr.fault _ .memoryOnly

end Commit

/-- **A transaction can be committed exactly if it left a slot for the receipt.**  The begin record
takes one, each operation that was granted takes one. -/
theorem commit_granted_iff {variant : VariantId} {config : Config} {s₀ : Store variant}
    (h : TransactionalStore.new config = .ok s₀) (calls : List Call) {w : WorkingTransaction}
    {now : Tick} (hr : Ready (runCalls s₀ calls) w now) :
    (∃ receipt, (TransactionalStore.commit (runCalls s₀ calls) w.id now .memoryOnly).1 =
        .ok receipt) ↔
      (variant = .wal → granted (replies s₀ calls) + 1 < maxWalRecords) := by
  obtain ⟨v, hv⟩ := (shows_new h).reach calls
  cases variant with
  | cow => exact ⟨fun _ => nofun, fun _ => CowStore.Rep.commit_ready hv.rep hv.sound hr⟩
  | wal =>
    have hcounts : WalStore.Counts (runCalls s₀ calls) (granted (replies s₀ calls)) :=
      (WalStore.counts_new h).run
    have hactive : WalStore.active (runCalls s₀ calls) = some w := hr.active
    have hlog : (WalStore.log (runCalls s₀ calls)).length = granted (replies s₀ calls) + 1 :=
      hcounts (by rw [hactive]; rfl)
    have hiff := WalStore.Rep.commit_iff hv.rep hv.sound hr
    constructor
    · intro hcommitted _
      exact hlog.symm.trans_lt (hiff.mp hcommitted)
    · intro hroom
      exact hiff.mpr (hlog.trans_lt (hroom rfl))

/-- An object is created and written. -/
def createAndWrite : List Call :=
  [.begin 0 9, .mutate ⟨1, 0⟩ 0 .create, .mutate ⟨1, 0⟩ 0 (.write ⟨1, 1⟩ 0 [7])]

/-- Two operations leave slots. -/
theorem commit_granted_two_operations :
    ∃ s₀ : Store .wal, TransactionalStore.new roomy = .ok s₀ ∧
      granted (replies s₀ createAndWrite) = 2 ∧
      ∃ receipt, (TransactionalStore.commit (runCalls s₀ createAndWrite) ⟨1, 0⟩ 0 .memoryOnly).1 =
        .ok receipt := by
  obtain ⟨s₀, hs₀⟩ := exists_new .wal roomy
  have hgranted : granted (replies s₀ createAndWrite) = 2 := by
    cases hs₀
    decide
  have hready : Ready (runCalls s₀ createAndWrite)
      ⟨⟨1, 0⟩, 9, false, (StoreState.empty.create.2.write ⟨1, 1⟩ 0 [7] roomy).2⟩ 0 := by
    cases hs₀
    exact ⟨rfl, rfl, by decide, rfl, by decide⟩
  refine ⟨s₀, hs₀, hgranted, (commit_granted_iff hs₀ createAndWrite hready).mpr fun _ => ?_⟩
  rw [hgranted]
  decide

/-! ## 4. The last slot -/

/-- Truncating an object to the length it has changes nothing. -/
theorem StoreState.truncate_same {s : StoreState} {config : Config} {handle : ObjectHandle}
    {i : Fin maxObjects} (hi : s.objectIndex handle = .ok i)
    (hlen : (s.objects i).len ≤ maxObjectBytes)
    (hq : s.ensureQuota (s.objects i).len (s.objects i).len config = .ok ()) :
    s.truncate handle (s.objects i).len config = (.ok (), s) := by
  have hmax : maxObjectBytes = 128 := rfl
  have husize : tryUsize (s.objects i).len .objectTooLarge = .ok (s.objects i).len :=
    if_pos (by omega)
  have hu16 : tryU16 (s.objects i).len .objectTooLarge = .ok (s.objects i).len := if_pos (by omega)
  unfold truncate
  rw [husize, attempt_ok, if_neg (Nat.not_lt.mpr hlen), hi, attempt_ok]
  simp only [hq, attempt_ok, lt_irrefl, if_false, hu16]
  unfold setObject
  simp only [Function.update_eq_self]

namespace WalStore

section Again

variable {s : WalStore} {w : WorkingTransaction} {now : Tick} {handle : ObjectHandle} {len : Nat}

/-- An operation that changes nothing takes a slot all the same. -/
theorem truncate_again (ha : s.active = some w) (hcheck : w.check w.id now = .ok ())
    (ht : w.state.truncate handle len s.config = (.ok (), w.state))
    (hroom : s.log.length < maxWalRecords) :
    (Call.mutate w.id now (.truncate handle len)).run s =
      (.mutated (.ok none), { s with log := s.log ++ [WalEntry.new (.truncate handle len)] }) := by
  have happly : (Mutation.truncate handle len).apply s.config w.state = (.ok none, w.state) := by
    simp only [Mutation.apply, ht]
    rfl
  have hchecked : s.checkTransaction w.id now = .ok () := by
    unfold checkTransaction
    rw [ha]
    exact hcheck
  simp only [Call.run, run_mutation, hchecked, attempt_ok]
  unfold perform
  rw [ha, okOr_some, attempt_ok]
  simp only [happly, attempt_ok, if_pos hroom, Mutation.record]

/-- So it fills the log. -/
theorem truncate_repeated (ha : s.active = some w) (hcheck : w.check w.id now = .ok ())
    (ht : w.state.truncate handle len s.config = (.ok (), w.state)) {k : Nat}
    (hroom : s.log.length + k ≤ maxWalRecords) :
    ∃ log : List WalEntry, log.length = s.log.length + k ∧
      runCalls s (.replicate k (.mutate w.id now (.truncate handle len))) = { s with log := log } ∧
      ∀ reply ∈ replies s (.replicate k (.mutate w.id now (.truncate handle len))),
        reply.seen.error? = none := by
  induction k generalizing s with
  | zero => exact ⟨s.log, rfl, rfl, nofun⟩
  | succ k ih =>
    have hfirst := truncate_again ha hcheck ht (by omega)
    generalize hs' : ({ s with log := s.log ++ [WalEntry.new (.truncate handle len)] } : WalStore) =
      s' at hfirst
    have hlen : s'.log.length = s.log.length + 1 := by
      rw [← hs']
      exact List.length_append
    obtain ⟨log, hlog, hrun, hreplies⟩ := ih (s := s') (by rw [← hs']; exact ha)
      (by rw [← hs']; exact ht) (by omega)
    refine ⟨log, by omega, ?_, ?_⟩
    · rw [List.replicate_succ, runCalls_cons, hfirst, hrun, ← hs']
    · intro reply hreply
      rw [List.replicate_succ, replies, hfirst] at hreply
      rcases List.mem_cons.mp hreply with rfl | hreply
      · rfl
      · exact hreplies reply hreply

end Again

end WalStore

/-- The store with a transaction that has created an object. -/
def created : WalStore where
  config := roomy
  base := StoreState.empty
  active := some ⟨⟨1, 0⟩, 9, false, StoreState.empty.create.2⟩
  nextTransaction := 2
  snapshots := SnapshotSet.new
  log := [WalEntry.new (.begin ⟨1, 0⟩), WalEntry.new (.create ⟨1, 1⟩)]
  fault := .none

/-- An object is created, and truncated to the length it has until the log is full. -/
def fillsLog : List Call :=
  [.begin 0 9, .mutate ⟨1, 0⟩ 0 .create] ++
    .replicate 62 (.mutate ⟨1, 0⟩ 0 (.truncate ⟨1, 1⟩ 0))

/-- **Every operation was granted, and the commit finds no slot.** -/
theorem full_log_not_committed :
    ∃ (s₀ : Store .wal) (w : WorkingTransaction), TransactionalStore.new roomy = .ok s₀ ∧
      (∀ reply ∈ replies s₀ fillsLog, reply.seen.error? = none) ∧
      Ready (runCalls s₀ fillsLog) w 0 ∧
      (TransactionalStore.commit (runCalls s₀ fillsLog) w.id 0 .memoryOnly).1 =
        .error .walFull := by
  obtain ⟨s₀, hs₀⟩ := exists_new .wal roomy
  obtain ⟨hcreated, hgranted⟩ :
      runCalls s₀ [.begin 0 9, .mutate ⟨1, 0⟩ 0 .create] = created ∧
        ∀ reply ∈ replies s₀ [.begin 0 9, .mutate ⟨1, 0⟩ 0 .create], reply.seen.error? = none := by
    cases hs₀
    refine ⟨rfl, ?_⟩
    intro reply hreply
    rcases List.mem_cons.mp hreply with rfl | hreply
    · rfl
    · rw [List.mem_singleton.mp hreply]
      rfl
  have ht : StoreState.empty.create.2.truncate ⟨1, 1⟩ 0 roomy = (.ok (), StoreState.empty.create.2) :=
    StoreState.truncate_same (i := 0) rfl (by decide) rfl
  -- a `truncate` to the length the object has changes nothing but is logged
  have hcheck : WorkingTransaction.check ⟨⟨1, 0⟩, 9, false, StoreState.empty.create.2⟩ ⟨1, 0⟩ 0 =
      .ok () := rfl
  obtain ⟨log, hlog, hrun, hreplies⟩ :=
    WalStore.truncate_repeated (s := created) rfl hcheck ht (k := 62) (by decide)
  have hfull : runCalls s₀ fillsLog = { created with log := log } := by
    unfold fillsLog
    rw [runCalls_append, hcreated]
    exact hrun
  refine ⟨s₀, ⟨⟨1, 0⟩, 9, false, StoreState.empty.create.2⟩, hs₀, ?_, ?_, ?_⟩
  · intro reply hreply
    unfold fillsLog at hreply
    rw [replies_append, hcreated] at hreply
    rcases List.mem_append.mp hreply with hreply | hreply
    · exact hgranted reply hreply
    · exact hreplies reply hreply
  · have hgeneration : (0 : Nat) < 2 ^ 64 - 1 := by decide
    rw [hfull]
    exact ⟨rfl, rfl, by decide, rfl, hgeneration⟩
  · -- 64 records: the receipt does not fit
    have hroom : ¬log.length < maxWalRecords := Nat.not_lt.mpr (Nat.le_of_eq hlog.symm)
    rw [hfull]
    show (WalStore.publish { created with log := log } _ .memoryOnly).1 = _
    unfold WalStore.publish WalStore.append
    simp only [if_neg hroom]
    rfl

end AegisShield.Storage
