/-
# The ideal store

What both stores are for, without banks, superblocks or a log: a committed state, at most one
working transaction, what an interrupted commit has left for `recover`, and the snapshots.

The ideal store is a function (`View.step`).  A real store behaves like it but for five things it
may do instead (`Moves`): the log can be full, it refuses a new transaction while one is pending,
`gc` can drop what is pending, and metadata can be corrupted.  `Moves.changed` says once what a
call can do to a view, and `Sound` is the invariant that follows.
-/
import AegisShield.Storage.WellFormed

namespace AegisShield.Storage

open Lib

/-- The stores check a configuration again that `Config::new` has accepted. -/
theorem Config.new_self (config : Config) :
    Config.new config.quotaBytes config.recoveryReserveBytes = .ok config := by
  have h1 := config.quota_pos
  have h2 := config.quota_le
  have h3 := config.reserve_lt
  unfold Config.new
  rw [dif_neg (by omega)]

/-! ## 1. Views -/

/-- What an interrupted commit has left. -/
inductive Pending
  | nothing
  /-- The commit was interrupted before its receipt, or its receipt is gone. -/
  | torn
  /-- The state and its receipt, which `recover` accepts if it is valid. -/
  | receipted (state : StoreState) (valid : Bool)

/-- The state that `recover` installs, over the committed one. -/
def Pending.installed (committed : StoreState) : Pending → StoreState
  | .receipted state true => state
  | _ => committed

/-- A store, as far as its callers can tell. -/
structure View where
  config : Config
  committed : StoreState
  pending : Pending
  active : Option WorkingTransaction
  nextTransaction : Nat
  snapshots : SnapshotSet
  fault : FaultPoint
  /-- Metadata was corrupted since the last `recover`. -/
  tampered : Bool

/-- A new store. -/
def View.new (config : Config) : View where
  config := config
  committed := StoreState.empty
  pending := .nothing
  active := none
  nextTransaction := 1
  snapshots := SnapshotSet.new
  fault := .none
  tampered := false

/-- What a caller can tell from a reply: of a receipt the generation and the checksum, of a report
what does not depend on how the store is built. -/
inductive Seen
  | transaction (r : Except Error TransactionId)
  | mutated (r : Except Error (Option ObjectHandle))
  | bytes (r : Except Error (Nat × Bytes))
  | handle (r : Except Error ObjectHandle)
  | receipt (r : Except Error (Generation × UInt64))
  | done (r : Except Error Unit)
  | snapshot (r : Except Error SnapshotId)
  | reclaimed (snapshots : Nat)
  | recovered (r : Except Error Generation)

/-- What is seen of a reply. -/
def Reply.seen : Reply → Seen
  | .transaction r => .transaction r
  | .mutated r => .mutated r
  | .bytes r => .bytes r
  | .handle r => .handle r
  | .receipt r => .receipt (r.map fun c => (c.generation, c.stateChecksum))
  | .done r => .done r
  | .snapshot r => .snapshot r
  | .reclaimed report => .reclaimed report.snapshotsReclaimed
  | .recovered r => .recovered (r.map fun report => report.selectedGeneration)

namespace View

/-! ## 2. The ideal store -/

/-- The check of a transaction. -/
def check (v : View) (transaction : TransactionId) (now : Tick) : Except Error Unit := do
  (← okOr v.active .noActiveTransaction).check transaction now

/-- `begin`. -/
def begin (v : View) (now : Tick) (deadline : Deadline) : Except Error TransactionId × View :=
  if v.active.isSome then (.error .transactionBusy, v)
  else if now ≥ deadline then (.error .deadlineExceeded, v)
  else
    attempt (okOr (checkedAdd v.nextTransaction 1) .arithmeticOverflow) v fun next =>
    let id : TransactionId := ⟨v.nextTransaction, v.committed.generation⟩
    (.ok id, { v with nextTransaction := next, active := some ⟨id, deadline, false, v.committed⟩ })

/-- An operation on the working state. -/
def mutate (v : View) (transaction : TransactionId) (now : Tick) (m : Mutation) :
    Except Error (Option ObjectHandle) × View :=
  attempt (v.check transaction now) v fun _ =>
  attempt (okOr v.active .noActiveTransaction) v fun working =>
  let r := m.apply v.config working.state
  (r.1, { v with active := some { working with state := r.2 } })

/-- A commit at its fault point. -/
def publish (v : View) (candidate : StoreState) : Except Error (Generation × UInt64) × View :=
  match v.fault with
  | .none => (.ok (candidate.generation, candidate.checksum),
      { v with committed := candidate, pending := .nothing, active := none })
  | .beforeCommitReceipt => (.error (.interrupted .beforeCommitReceipt),
      { v with pending := .torn, active := none, fault := .none })
  | .afterCommitReceipt => (.error (.interrupted .afterCommitReceipt),
      { v with pending := .receipted candidate true, active := none, fault := .none })
  | .corruptCommitReceipt => (.error (.interrupted .corruptCommitReceipt),
      { v with pending := .receipted candidate false, active := none, fault := .none })

/-- `commit`. -/
def commit (variant : VariantId) (v : View) (transaction : TransactionId) (now : Tick)
    (durability : Durability) : Except Error (Generation × UInt64) × View :=
  attempt (v.check transaction now) v fun _ =>
  attempt (okOr v.active .noActiveTransaction) v fun working =>
  attempt (nextGeneration transaction.baseGeneration) v fun generation =>
  let candidate := { working.state with generation := generation }
  attempt (validateDurability durability variant transaction candidate.generation
    candidate.checksum) v fun _ =>
  v.publish candidate

/-- `abort`. -/
def abort (v : View) (transaction : TransactionId) : Except Error Unit × View :=
  attempt (okOr v.active .noActiveTransaction) v fun current =>
  if current.id ≠ transaction then (.error .staleTransaction, v)
  else (.ok (), { v with active := none })

/-- `cancel`. -/
def cancel (v : View) (transaction : TransactionId) : Except Error Unit × View :=
  attempt (okOr v.active .noActiveTransaction) v fun current =>
  if current.id ≠ transaction then (.error .staleTransaction, v)
  else (.ok (), { v with active := some { current with cancelled := true } })

/-- `snapshot`. -/
def snapshot (v : View) : Except Error SnapshotId × View :=
  let r := v.snapshots.capture v.committed
  (r.1, { v with snapshots := r.2 })

/-- `read_snapshot`. -/
def readSnapshot (v : View) (snapshot : SnapshotId) (handle : ObjectHandle) (offset : Nat)
    (output : Bytes) : Except Error (Nat × Bytes) := do
  (← v.snapshots.state snapshot).read handle offset output

/-- `recover`. -/
def recover (v : View) : View :=
  { v with committed := v.pending.installed v.committed, pending := .nothing, active := none,
           fault := .none, tampered := false }

/-- A call. -/
def step (variant : VariantId) (v : View) : Call → Seen × View
  | .begin now deadline => let r := v.begin now deadline; (.transaction r.1, r.2)
  | .mutate transaction now m => let r := v.mutate transaction now m; (.mutated r.1, r.2)
  | .read handle offset output => (.bytes (v.committed.read handle offset output), v)
  | .lookup name => (.handle (v.committed.lookup name), v)
  | .commit transaction now durability =>
    let r := v.commit variant transaction now durability; (.receipt r.1, r.2)
  | .abort transaction => let r := v.abort transaction; (.done r.1, r.2)
  | .cancel transaction => let r := v.cancel transaction; (.done r.1, r.2)
  | .snapshot => let r := v.snapshot; (.snapshot r.1, r.2)
  | .readSnapshot id handle offset output => (.bytes (v.readSnapshot id handle offset output), v)
  | .gc retainFrom =>
    let r := v.snapshots.gc retainFrom; (.reclaimed r.1, { v with snapshots := r.2 })
  | .injectFault fault => (.done (.ok ()), { v with fault := fault })
  | .corruptPendingMetadata => (.done (.error .noPendingRecovery), v)
  | .recover => (.recovered (.ok v.recover.committed.generation), v.recover)

end View

/-- The same state with a receipt, whether valid or not. -/
def Pending.Resembles : Pending → Pending → Prop
  | .nothing, .nothing => True
  | .torn, .torn => True
  | .receipted state _, .receipted state' _ => state = state'
  | _, _ => False

/-- **What a store may do**: what the ideal store does, or one of the deviations. -/
inductive Moves (variant : VariantId) (v : View) : Call → Seen → View → Prop
  /-- `WalStore` never begins a transaction while one is pending. -/
  | ideal (c : Call) (h : variant = .wal → v.active = none → v.pending ≠ .nothing →
      ∀ now deadline, c ≠ .begin now deadline) :
      Moves variant v c (v.step variant c).1 (v.step variant c).2
  | recoveryRequired (now : Tick) (deadline : Deadline) (hw : variant = .wal)
      (ha : v.active = none) (hp : v.pending ≠ .nothing) :
      Moves variant v (.begin now deadline) (.transaction (.error .recoveryRequired)) v
  /-- The log has no room for the record of an operation that would have succeeded. -/
  | full (transaction : TransactionId) (now : Tick) (m : Mutation) (hw : variant = .wal)
      (r : Option ObjectHandle) (hm : (v.mutate transaction now m).1 = .ok r) :
      Moves variant v (.mutate transaction now m) (.mutated (.error .walFull)) v
  /-- The log has no room for the receipt; the fault is used up. -/
  | commitFull (transaction : TransactionId) (now : Tick) (durability : Durability)
      (hw : variant = .wal) (hcheck : v.check transaction now = .ok ()) :
      Moves variant v (.commit transaction now durability) (.receipt (.error .walFull))
        { v with fault := .none }
  /-- A log that was corrupted during the transaction ends in a receipt nonetheless. -/
  | untrusted (transaction : TransactionId) (now : Tick) (durability : Durability)
      (hw : variant = .wal) (ht : v.tampered = true) (state : StoreState)
      (hp : (v.commit variant transaction now durability).2.pending = .receipted state true)
      (hi : (v.commit variant transaction now durability).1 =
        .error (.interrupted .afterCommitReceipt)) :
      Moves variant v (.commit transaction now durability)
        (.receipt (v.commit variant transaction now durability).1)
        { (v.commit variant transaction now durability).2 with pending := .receipted state false }
  /-- `gc` empties the superblock of a pending commit. -/
  | reclaimed (retainFrom : Generation) (hw : variant = .cow) (state : StoreState) (valid : Bool)
      (hp : v.pending = .receipted state valid) (hg : state.generation < retainFrom) :
      Moves variant v (.gc retainFrom) (.reclaimed (v.snapshots.gc retainFrom).1)
        { v with snapshots := (v.snapshots.gc retainFrom).2, pending := .torn }
  | corrupted (r : Except Error Unit) (hr : r = .ok () ∨ r = .error .noPendingRecovery)
      (pending : Pending) (hp : v.pending.Resembles pending) :
      Moves variant v .corruptPendingMetadata (.done r)
        { v with pending := pending, tampered := true }

/-! ## 3. The invariant -/

/-- The state that the commit of a transaction publishes. -/
def View.candidate (v : View) (w : WorkingTransaction) : StoreState :=
  { w.state with generation := v.committed.generation + 1 }

/-- **The invariant of a store.** -/
structure View.Sound (v : View) : Prop where
  committed : v.committed.Wf v.config
  /-- A transaction works on a state that descends from the committed one. -/
  active : ∀ w, v.active = some w → w.state.Wf v.config ∧
    StoreState.Descends v.committed w.state ∧ w.state.generation = v.committed.generation ∧
    w.id.baseGeneration = v.committed.generation ∧ w.id.nonce < v.nextTransaction
  /-- So does what is pending, and it is one generation ahead. -/
  pending : ∀ state valid, v.pending = .receipted state valid → state.Wf v.config ∧
    StoreState.Descends v.committed state ∧ state.generation = v.committed.generation + 1
  snapshots : ∀ i, (v.snapshots.slots i).state.Wf v.config ∧
    ((v.snapshots.slots i).present = true → (v.snapshots.slots i).nonce < v.snapshots.nextNonce)

theorem View.sound_new (config : Config) : (View.new config).Sound where
  committed := StoreState.wf_empty config
  active := nofun
  pending := nofun
  snapshots _ := ⟨StoreState.wf_empty config, nofun⟩

/-! ## 4. What a call can do -/

/-- The error that is seen, if any. -/
def Seen.error? : Seen → Option Error
  | .transaction (.error e) | .mutated (.error e) | .bytes (.error e) | .handle (.error e)
  | .receipt (.error e) | .done (.error e) | .snapshot (.error e) | .recovered (.error e) => some e
  | _ => none

/-- A call that only looks. -/
def Call.looks : Call → Bool
  | .read _ _ _ | .lookup _ | .readSnapshot _ _ _ _ => true
  | _ => false

/-- What an interrupted commit leaves, by its fault. -/
def View.Leaves (v : View) (w : WorkingTransaction) (pending : Pending) : Prop :=
  match v.fault with
  | .none => False
  | .beforeCommitReceipt => pending = .torn
  | .afterCommitReceipt => ∃ valid, pending = .receipted (v.candidate w) valid ∧
      (valid = true ∨ v.tampered = true)
  | .corruptCommitReceipt => pending = .receipted (v.candidate w) false

/-- **What a call can do to a view.** -/
inductive Changed (v : View) : Call → Seen → View → Prop
  | refused (c : Call) (seen : Seen) (e : Error) (he : seen.error? = some e)
      (hi : ∀ fault, e ≠ .interrupted fault) (hv : e ≠ .invariantViolation) : Changed v c seen v
  | looked (c : Call) (seen : Seen) (h : c.looks = true) : Changed v c seen v
  | began (now : Tick) (deadline : Deadline) (ha : v.active = none) (hd : now < deadline) :
      Changed v (.begin now deadline)
        (.transaction (.ok ⟨v.nextTransaction, v.committed.generation⟩))
        { v with
          nextTransaction := v.nextTransaction + 1
          active := some ⟨⟨v.nextTransaction, v.committed.generation⟩, deadline, false,
            v.committed⟩ }
  | edited (now : Tick) (m : Mutation) (r : Option ObjectHandle) (w : WorkingTransaction)
      (state : StoreState) (ha : v.active = some w)
      (hm : m.apply v.config w.state = (.ok r, state)) (he : Edited v.config w.state state) :
      Changed v (.mutate w.id now m) (.mutated (.ok r))
        { v with active := some { w with state := state } }
  | published (now : Tick) (durability : Durability) (w : WorkingTransaction)
      (ha : v.active = some w) (hf : v.fault = .none) :
      Changed v (.commit w.id now durability)
        (.receipt (.ok ((v.candidate w).generation, (v.candidate w).checksum)))
        { v with committed := v.candidate w, pending := .nothing, active := none }
  | interrupted (now : Tick) (durability : Durability) (w : WorkingTransaction)
      (ha : v.active = some w) (pending : Pending) (hp : v.Leaves w pending) :
      Changed v (.commit w.id now durability) (.receipt (.error (.interrupted v.fault)))
        { v with pending := pending, active := none, fault := .none }
  | disarmed (transaction : TransactionId) (now : Tick) (durability : Durability) :
      Changed v (.commit transaction now durability) (.receipt (.error .walFull))
        { v with fault := .none }
  | aborted (w : WorkingTransaction) (ha : v.active = some w) :
      Changed v (.abort w.id) (.done (.ok ())) { v with active := none }
  | cancelled (w : WorkingTransaction) (ha : v.active = some w) :
      Changed v (.cancel w.id) (.done (.ok ()))
        { v with active := some { w with cancelled := true } }
  | captured (id : SnapshotId) (set : SnapshotSet)
      (h : v.snapshots.capture v.committed = (.ok id, set)) :
      Changed v .snapshot (.snapshot (.ok id)) { v with snapshots := set }
  | collected (retainFrom : Generation) (pending : Pending)
      (hp : pending = v.pending ∨ pending = .torn ∧ ∃ state valid,
        v.pending = .receipted state valid ∧ state.generation < retainFrom) :
      Changed v (.gc retainFrom) (.reclaimed (v.snapshots.gc retainFrom).1)
        { v with snapshots := (v.snapshots.gc retainFrom).2, pending := pending }
  | armed (fault : FaultPoint) :
      Changed v (.injectFault fault) (.done (.ok ())) { v with fault := fault }
  | corrupted (r : Except Error Unit) (pending : Pending) (hp : v.pending.Resembles pending)
      (hr : r = .ok () ∨ r = .error .noPendingRecovery) :
      Changed v .corruptPendingMetadata (.done r) { v with pending := pending, tampered := true }
  | recovered : Changed v .recover (.recovered (.ok v.recover.committed.generation)) v.recover

theorem WorkingTransaction.check_ok {w : WorkingTransaction} {id : TransactionId} {now : Tick}
    (h : w.check id now = .ok ()) : w.id = id := by
  unfold check at h
  by_contra hne
  rw [if_pos hne] at h
  cases h

theorem WorkingTransaction.check_plain {w : WorkingTransaction} {id : TransactionId} {now : Tick}
    {e : Error} (h : w.check id now = .error e) : e.plain = true := by
  unfold check at h
  split at h
  · cases h; rfl
  · split at h
    · cases h; rfl
    · split at h
      · cases h; rfl
      · cases h

/-- A check that passes was for the working transaction. -/
theorem View.check_cases (v : View) (transaction : TransactionId) (now : Tick) :
    (∃ e : Error, e.plain = true ∧ v.check transaction now = .error e) ∨
      ∃ w, v.active = some w ∧ w.id = transaction ∧ v.check transaction now = .ok () := by
  unfold check
  cases ha : v.active with
  | none => exact Or.inl ⟨_, rfl, rfl⟩
  | some w =>
    cases hc : w.check transaction now with
    | error e => exact Or.inl ⟨e, WorkingTransaction.check_plain hc, hc⟩
    | ok u => exact Or.inr ⟨w, rfl, WorkingTransaction.check_ok hc, hc⟩

theorem Error.ne_of_plain {e : Error} (h : e.plain = true) :
    (∀ fault, e ≠ .interrupted fault) ∧ e ≠ .invariantViolation ∧ e ≠ .walFull ∧
      e ≠ .recoveryRequired := by
  refine ⟨?_, ?_, ?_, ?_⟩
  · rintro fault rfl
    cases h
  · rintro rfl
    cases h
  · rintro rfl
    cases h
  · rintro rfl
    cases h

/-- A plain error, with the view as it was. -/
theorem Changed.of_plain {v : View} {c : Call} {seen : Seen} {e : Error} (he : seen.error? = some e)
    (hp : e.plain = true) : Changed v c seen v :=
  .refused c seen e he (Error.ne_of_plain hp).1 (Error.ne_of_plain hp).2.1

section Step

variable {v : View} {variant : VariantId}

theorem View.begin_cases (v : View) (now : Tick) (deadline : Deadline) :
    (∃ e : Error, e.plain = true ∧ v.begin now deadline = (.error e, v)) ∨
      (v.active = none ∧ now < deadline ∧ v.begin now deadline =
        (.ok ⟨v.nextTransaction, v.committed.generation⟩,
          { v with
            nextTransaction := v.nextTransaction + 1
            active := some ⟨⟨v.nextTransaction, v.committed.generation⟩, deadline, false,
              v.committed⟩ })) := by
  unfold begin
  cases ha : v.active with
  | some w => exact Or.inl ⟨_, rfl, rfl⟩
  | none =>
    rw [if_neg (by simp)]
    split
    · exact Or.inl ⟨_, rfl, rfl⟩
    · rename_i hd
      cases hn : checkedAdd v.nextTransaction 1 with
      | none => exact Or.inl ⟨_, rfl, rfl⟩
      | some next =>
        obtain ⟨-, rfl⟩ := checkedAdd_eq_some.mp hn
        exact Or.inr ⟨rfl, Nat.lt_of_not_le hd, rfl⟩

theorem View.Sound.mutate_cases (hs : v.Sound) (transaction : TransactionId) (now : Tick)
    (m : Mutation) :
    (∃ e : Error, e.plain = true ∧ v.mutate transaction now m = (.error e, v)) ∨
      ∃ w r state, v.active = some w ∧ w.id = transaction ∧
        m.apply v.config w.state = (.ok r, state) ∧ Edited v.config w.state state ∧
        v.mutate transaction now m = (.ok r, { v with active := some { w with state := state } }) := by
  unfold View.mutate
  rcases v.check_cases transaction now with ⟨e, he, hc⟩ | ⟨w, ha, hid, hc⟩
  · rw [hc]
    exact Or.inl ⟨e, he, rfl⟩
  · rw [hc, attempt_ok, ha, okOr_some, attempt_ok]
    rcases Mutation.apply_cases (hs.active w ha).1 m with ⟨e, he, hm⟩ | ⟨r, state, hm, hedit⟩
    · -- a failed operation leaves the working state as it was
      refine Or.inl ⟨e, he, ?_⟩
      simp only [hm]
      rw [← ha]
    · exact Or.inr ⟨w, r, state, rfl, hid, hm, hedit, by simp only [hm]⟩

theorem nextGeneration_cases (g : Generation) :
    nextGeneration g = .error .arithmeticOverflow ∨ nextGeneration g = .ok (g + 1) := by
  unfold nextGeneration
  cases hg : checkedAdd g 1 with
  | none => exact Or.inl rfl
  | some n =>
    obtain ⟨-, rfl⟩ := checkedAdd_eq_some.mp hg
    exact Or.inr rfl

theorem validateDurability_cases (durability : Durability) (variant : VariantId)
    (transaction : TransactionId) (generation : Generation) (checksum : UInt64) :
    validateDurability durability variant transaction generation checksum =
        .error .invalidBarrierReceipt ∨
      ∃ d, validateDurability durability variant transaction generation checksum = .ok d := by
  unfold validateDurability
  split
  · exact Or.inr ⟨_, rfl⟩
  · split
    · exact Or.inr ⟨_, rfl⟩
    · exact Or.inl rfl

/-- A commit is refused, or it publishes the state of the working transaction. -/
theorem View.Sound.commit_cases (hs : v.Sound) (variant : VariantId) (transaction : TransactionId)
    (now : Tick) (durability : Durability) :
    (∃ e : Error, e.plain = true ∧ v.commit variant transaction now durability = (.error e, v)) ∨
      ∃ w, v.active = some w ∧ w.id = transaction ∧
        v.commit variant transaction now durability = v.publish (v.candidate w) := by
  unfold View.commit
  rcases v.check_cases transaction now with ⟨e, he, hc⟩ | ⟨w, ha, hid, hc⟩
  · rw [hc]
    exact Or.inl ⟨e, he, rfl⟩
  · rw [hc, attempt_ok, ha, okOr_some, attempt_ok]
    obtain ⟨-, -, -, hbase, -⟩ := hs.active w ha
    rw [hid] at hbase
    rcases nextGeneration_cases transaction.baseGeneration with hg | hg
    · rw [hg]
      exact Or.inl ⟨_, rfl, rfl⟩
    · rw [hg, attempt_ok, hbase]
      rcases validateDurability_cases durability variant transaction (v.candidate w).generation
        (v.candidate w).checksum with hd | ⟨d, hd⟩
      · exact Or.inl ⟨.invalidBarrierReceipt, rfl, congrArg (fun r => attempt r v fun _ => _) hd⟩
      · exact Or.inr ⟨w, rfl, hid, congrArg (fun r => attempt r v fun _ => _) hd⟩

theorem View.publish_changed (v : View) {w : WorkingTransaction} (ha : v.active = some w)
    (now : Tick) (durability : Durability) :
    Changed v (.commit w.id now durability) (.receipt (v.publish (v.candidate w)).1)
      (v.publish (v.candidate w)).2 := by
  have hleaves : ∀ pending, v.Leaves w pending → Changed v (.commit w.id now durability)
      (.receipt (.error (.interrupted v.fault)))
      { v with pending := pending, active := none, fault := .none } :=
    fun pending hp => .interrupted now durability w ha pending hp
  unfold View.Leaves at hleaves
  unfold View.publish
  split
  · rename_i hf
    exact .published now durability w ha hf
  · rename_i hf
    rw [hf] at hleaves
    exact hleaves _ rfl
  · rename_i hf
    rw [hf] at hleaves
    exact hleaves _ ⟨true, rfl, Or.inl rfl⟩
  · rename_i hf
    rw [hf] at hleaves
    exact hleaves _ rfl

theorem View.abort_changed (v : View) (transaction : TransactionId) :
    Changed v (.abort transaction) (.done (v.abort transaction).1) (v.abort transaction).2 := by
  unfold abort
  cases ha : v.active with
  | none => exact .of_plain rfl rfl
  | some w =>
    rw [okOr_some, attempt_ok]
    split
    · exact .of_plain rfl rfl
    · rename_i hid
      rw [ne_eq, not_not] at hid
      subst hid
      exact .aborted w ha

theorem View.cancel_changed (v : View) (transaction : TransactionId) :
    Changed v (.cancel transaction) (.done (v.cancel transaction).1) (v.cancel transaction).2 := by
  unfold cancel
  cases ha : v.active with
  | none => exact .of_plain rfl rfl
  | some w =>
    rw [okOr_some, attempt_ok]
    split
    · exact .of_plain rfl rfl
    · rename_i hid
      rw [ne_eq, not_not] at hid
      subst hid
      exact .cancelled w ha

/-- **What `capture` does**: it fails, or fills a free slot under a new nonce. -/
theorem SnapshotSet.capture_cases (set : SnapshotSet) (state : StoreState) :
    (∃ e : Error, e.plain = true ∧ set.capture state = (.error e, set)) ∨
      ∃ i, (set.slots i).present = false ∧ set.capture state =
        (.ok ⟨i, state.generation, set.nextNonce⟩,
          ⟨Function.update set.slots i ⟨true, set.nextNonce, state⟩, set.nextNonce + 1⟩) := by
  unfold capture
  cases hi : position (fun slot => !slot.present) set.slots with
  | none => exact Or.inl ⟨_, rfl, rfl⟩
  | some i =>
    rw [okOr_some, attempt_ok]
    cases hn : checkedAdd set.nextNonce 1 with
    | none => exact Or.inl ⟨_, rfl, rfl⟩
    | some next =>
      obtain ⟨-, rfl⟩ := checkedAdd_eq_some.mp hn
      have hp := position_some hi
      rw [Bool.not_eq_true'] at hp
      have hu8 : tryU8 i .snapshotCapacity = .ok i.val :=
        if_pos (Nat.lt_trans i.isLt (by decide))
      refine Or.inr ⟨i, hp, ?_⟩
      simp only [okOr_some, attempt_ok, hu8]

theorem View.snapshot_changed (v : View) :
    Changed v .snapshot (.snapshot v.snapshot.1) v.snapshot.2 := by
  unfold snapshot
  rcases v.snapshots.capture_cases v.committed with ⟨e, he, h⟩ | ⟨i, -, h⟩
  · rw [h]
    exact .of_plain rfl he
  · rw [h]
    exact .captured _ _ h

theorem View.begin_changed (v : View) (now : Tick) (deadline : Deadline) :
    Changed v (.begin now deadline) (.transaction (v.begin now deadline).1)
      (v.begin now deadline).2 := by
  rcases v.begin_cases now deadline with ⟨e, he, h⟩ | ⟨ha, hd, h⟩
  · rw [h]
    exact .of_plain rfl he
  · rw [h]
    exact .began now deadline ha hd

theorem View.Sound.mutate_changed (hs : v.Sound) (transaction : TransactionId) (now : Tick)
    (m : Mutation) :
    Changed v (.mutate transaction now m) (.mutated (v.mutate transaction now m).1)
      (v.mutate transaction now m).2 := by
  rcases hs.mutate_cases transaction now m with ⟨e, he, h⟩ | ⟨w, r, state, ha, rfl, hm, hedit, h⟩
  · rw [h]
    exact .of_plain rfl he
  · rw [h]
    exact .edited now m r w state ha hm hedit

theorem View.Sound.commit_changed (hs : v.Sound) (variant : VariantId) (transaction : TransactionId)
    (now : Tick) (durability : Durability) :
    Changed v (.commit transaction now durability)
      (.receipt (v.commit variant transaction now durability).1)
      (v.commit variant transaction now durability).2 := by
  rcases hs.commit_cases variant transaction now durability with ⟨e, he, h⟩ | ⟨w, ha, rfl, h⟩
  · rw [h]
    exact .of_plain rfl he
  · rw [h]
    exact v.publish_changed ha now durability

/-- **The ideal store does what a call can do.** -/
theorem View.Sound.step_changed (hs : v.Sound) (variant : VariantId) (c : Call) :
    Changed v c (v.step variant c).1 (v.step variant c).2 := by
  cases c with
  | begin now deadline => exact v.begin_changed now deadline
  | mutate transaction now m => exact hs.mutate_changed transaction now m
  | read handle offset output => exact .looked _ _ rfl
  | lookup name => exact .looked _ _ rfl
  | commit transaction now durability => exact hs.commit_changed variant transaction now durability
  | abort transaction => exact v.abort_changed transaction
  | cancel transaction => exact v.cancel_changed transaction
  | snapshot => exact v.snapshot_changed
  | readSnapshot id handle offset output => exact .looked _ _ rfl
  | gc retainFrom => exact .collected retainFrom v.pending (Or.inl rfl)
  | injectFault fault => exact .armed fault
  | corruptPendingMetadata => exact .of_plain rfl rfl
  | recover => exact .recovered

/-- **So does every store.** -/
theorem Moves.changed (hs : v.Sound) {c : Call} {seen : Seen} {v' : View}
    (h : Moves variant v c seen v') : Changed v c seen v' := by
  cases h with
  | ideal _ _ => exact hs.step_changed variant c
  | recoveryRequired now deadline hw ha hp => exact .refused _ _ _ rfl nofun nofun
  | full transaction now m hw r hm => exact .refused _ _ _ rfl nofun nofun
  | commitFull transaction now durability hw hcheck => exact .disarmed transaction now durability
  | untrusted transaction now durability hw ht state hp hi =>
    rcases hs.commit_cases variant transaction now durability with ⟨e, he, h⟩ | ⟨w, ha, rfl, h⟩
    · rw [h] at hi
      cases hi
      cases he
    · rw [h] at hp hi ⊢
      cases hf : v.fault with
      | none =>
        simp only [View.publish, hf] at hi
        cases hi
      | beforeCommitReceipt =>
        simp only [View.publish, hf] at hi
        cases hi
      | afterCommitReceipt =>
        have hleaves : v.Leaves w (.receipted (v.candidate w) false) := by
          unfold View.Leaves
          rw [hf]
          exact ⟨false, rfl, Or.inr ht⟩
        have hc := Changed.interrupted now durability w ha _ hleaves
        simp only [View.publish, hf] at hp ⊢
        cases hp
        rw [hf] at hc
        exact hc
      | corruptCommitReceipt =>
        simp only [View.publish, hf] at hi
        cases hi
  | reclaimed retainFrom hw state valid hp hg =>
    exact .collected retainFrom .torn (Or.inr ⟨rfl, state, valid, hp, hg⟩)
  | corrupted r hr pending hp => exact .corrupted r pending hp hr

end Step

/-! ## 5. The invariant is kept -/

section Invariant

variable {v v' : View} {c : Call} {seen : Seen}

/-- What can be pending is the state of the transaction that was interrupted. -/
theorem View.Leaves.receipted {w : WorkingTransaction} {pending : Pending} (h : v.Leaves w pending)
    {state : StoreState} {valid : Bool} (hp : pending = .receipted state valid) :
    state = v.candidate w := by
  unfold View.Leaves at h
  rw [hp] at h
  cases hf : v.fault with
  | none =>
    rw [hf] at h
    exact h.elim
  | beforeCommitReceipt =>
    rw [hf] at h
    cases h
  | afterCommitReceipt =>
    rw [hf] at h
    obtain ⟨b, heq, -⟩ := h
    cases heq
    rfl
  | corruptCommitReceipt =>
    rw [hf] at h
    cases h
    rfl

theorem View.Sound.candidate (hs : v.Sound) {w : WorkingTransaction} (ha : v.active = some w) :
    (v.candidate w).Wf v.config ∧ StoreState.Descends v.committed (v.candidate w) := by
  obtain ⟨hwf, hdesc, -⟩ := hs.active w ha
  exact ⟨hwf.stamp _, hdesc.stamp _⟩

/-- `recover` installs the committed state or a descendant of it. -/
theorem View.Sound.installed (hs : v.Sound) :
    (v.pending.installed v.committed).Wf v.config ∧
      StoreState.Descends v.committed (v.pending.installed v.committed) := by
  cases hp : v.pending with
  | nothing => exact ⟨hs.committed, .refl _⟩
  | torn => exact ⟨hs.committed, .refl _⟩
  | receipted state valid =>
    obtain ⟨hwf, hdesc, -⟩ := hs.pending state valid hp
    cases valid with
    | true => exact ⟨hwf, hdesc⟩
    | false => exact ⟨hs.committed, .refl _⟩

theorem Pending.Resembles.receipted {p q : Pending} (h : p.Resembles q) {state : StoreState}
    {valid : Bool} (hq : q = .receipted state valid) : ∃ valid', p = .receipted state valid' := by
  subst hq
  cases p with
  | nothing => exact h.elim
  | torn => exact h.elim
  | receipted state' valid' =>
    obtain rfl : state' = state := h
    exact ⟨valid', rfl⟩

theorem SnapshotSet.gc_slot (set : SnapshotSet) (retainFrom : Generation) (i : Fin maxSnapshots) :
    ((set.gc retainFrom).2.slots i = SnapshotSlot.empty ∧ (set.slots i).old retainFrom = true) ∨
      ((set.gc retainFrom).2.slots i = set.slots i ∧ (set.slots i).old retainFrom = false) := by
  cases hold : (set.slots i).old retainFrom with
  | true => exact Or.inl ⟨if_pos hold, rfl⟩
  | false => exact Or.inr ⟨if_neg (by rw [hold]; exact Bool.false_ne_true), rfl⟩

/-- **The invariant is kept by every call.** -/
theorem Changed.sound (hs : v.Sound) (h : Changed v c seen v') : v'.Sound := by
  cases h with
  | refused _ _ e he hi hv => exact hs
  | looked _ _ h => exact hs
  | began now deadline ha hd =>
    refine ⟨hs.committed, ?_, hs.pending, hs.snapshots⟩
    intro w hw
    cases hw
    exact ⟨hs.committed, .refl _, rfl, rfl, Nat.lt_succ_self _⟩
  | edited now m r w state ha hm he =>
    obtain ⟨-, hdesc, hgen, hbase, hnonce⟩ := hs.active w ha
    refine ⟨hs.committed, ?_, hs.pending, hs.snapshots⟩
    intro w' hw'
    cases hw'
    exact ⟨he.wf, hdesc.trans he.descends, he.generation.trans hgen, hbase, hnonce⟩
  | published now durability w ha hf =>
    exact ⟨(hs.candidate ha).1, nofun, nofun, hs.snapshots⟩
  | interrupted now durability w ha pending hp =>
    refine ⟨hs.committed, nofun, ?_, hs.snapshots⟩
    intro state valid heq
    obtain rfl := hp.receipted heq
    exact ⟨(hs.candidate ha).1, (hs.candidate ha).2, rfl⟩
  | disarmed transaction now durability => exact ⟨hs.committed, hs.active, hs.pending, hs.snapshots⟩
  | aborted w ha => exact ⟨hs.committed, nofun, hs.pending, hs.snapshots⟩
  | cancelled w ha =>
    refine ⟨hs.committed, ?_, hs.pending, hs.snapshots⟩
    intro w' hw'
    cases hw'
    exact hs.active w ha
  | captured id set h =>
    refine ⟨hs.committed, hs.active, hs.pending, ?_⟩
    rcases v.snapshots.capture_cases v.committed with ⟨e, -, hc⟩ | ⟨k, -, hc⟩
    · rw [hc] at h
      cases h
    · rw [hc] at h
      cases h
      intro i
      by_cases hi : i = k
      · subst hi
        simp only [Function.update_self]
        exact ⟨hs.committed, fun _ => Nat.lt_succ_self _⟩
      · simp only [Function.update_of_ne hi]
        obtain ⟨hwf, hlt⟩ := hs.snapshots i
        exact ⟨hwf, fun hp => Nat.lt_succ_of_lt (hlt hp)⟩
  | collected retainFrom pending hp =>
    refine ⟨hs.committed, hs.active, ?_, ?_⟩
    · intro state valid heq
      rcases hp with rfl | ⟨rfl, -⟩
      · exact hs.pending state valid heq
      · cases heq
    · intro i
      rcases v.snapshots.gc_slot retainFrom i with ⟨hslot, -⟩ | ⟨hslot, -⟩
      · simp only [hslot]
        exact ⟨StoreState.wf_empty _, nofun⟩
      · simp only [hslot]
        exact hs.snapshots i
  | armed fault => exact ⟨hs.committed, hs.active, hs.pending, hs.snapshots⟩
  | corrupted r pending hp hr =>
    refine ⟨hs.committed, hs.active, ?_, hs.snapshots⟩
    intro state valid heq
    obtain ⟨valid', hv⟩ := hp.receipted heq
    exact hs.pending state valid' hv
  | recovered => exact ⟨hs.installed.1, nofun, nofun, hs.snapshots⟩

/-- **The committed state only moves to descendants.** -/
theorem Changed.descends (hs : v.Sound) (h : Changed v c seen v') :
    StoreState.Descends v.committed v'.committed := by
  cases h with
  | published now durability w ha hf => exact (hs.candidate ha).2
  | recovered => exact hs.installed.2
  | _ => exact .refl _

theorem Changed.config_eq (h : Changed v c seen v') : v'.config = v.config := by
  cases h <;> rfl

end Invariant

end AegisShield.Storage
