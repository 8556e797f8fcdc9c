/-
# Handles that name nothing

An object that was deleted is gone for good once its transaction has committed: its id is below the
counter of the committed state, and no state that descends from it has the object again
(`committed_delete_final`).

The handle of a transaction that was rolled back is another matter.  The counters that handles are
taken from are part of the state, so they are rolled back with it, and the next `create` returns an
equal handle (`rolled_back_handle_reissued`).  As long as that does not happen, nothing resolves the
handle (`rolled_back_handle_unresolved`).
-/
import AegisShield.Storage.Recovery
import AegisShield.Storage.Failures

namespace AegisShield.Storage

open Lib

/-! ## 1. Operations on a handle -/

/-- The handle an operation takes. -/
def Mutation.handle? : Mutation → Option ObjectHandle
  | .create => none
  | .write handle _ _ | .truncate handle _ | .delete handle | .bind _ handle => some handle

/-- The sizes are within the limits, which are checked before the handle is. -/
def Mutation.Fits : Mutation → Prop
  | .write _ offset input =>
    input.length ≤ maxIoBytes ∧ offset + input.length ≤ maxObjectBytes
  | .truncate _ newLen => newLen ≤ maxObjectBytes
  | _ => True

section Stale

variable {s : StoreState} {handle : ObjectHandle}

theorem StoreState.write_stale (h : ¬ s.Live handle) (offset : Nat) (input : Bytes)
    (config : Config) :
    ∃ e, (s.write handle offset input config).1 = .error e ∧
      (input.length ≤ maxIoBytes → offset + input.length ≤ maxObjectBytes → e = .staleHandle) := by
  have hmax : maxObjectBytes = 128 := rfl
  unfold StoreState.write tryUsize
  split
  · rename_i hio
    exact ⟨_, rfl, fun hle _ => absurd hle (Nat.not_le_of_lt hio)⟩
  · split
    · rw [attempt_ok]
      cases hadd : checkedAdd offset input.length with
      | none =>
        refine ⟨_, rfl, fun _ hle => ?_⟩
        rw [checkedAdd_of_lt (by omega)] at hadd
        cases hadd
      | some stop =>
        obtain ⟨-, rfl⟩ := checkedAdd_eq_some.mp hadd
        rw [okOr_some, attempt_ok]
        split
        · rename_i hlarge
          exact ⟨_, rfl, fun _ hle => absurd hle (Nat.not_le_of_lt hlarge)⟩
        · rw [StoreState.objectIndex_stale h]
          exact ⟨_, rfl, fun _ _ => rfl⟩
    · exact ⟨_, rfl, fun _ hle => by omega⟩

theorem StoreState.truncate_stale (h : ¬ s.Live handle) (newLen : Nat) (config : Config) :
    ∃ e, (s.truncate handle newLen config).1 = .error e ∧
      (newLen ≤ maxObjectBytes → e = .staleHandle) := by
  have hmax : maxObjectBytes = 128 := rfl
  unfold StoreState.truncate tryUsize
  split
  · rw [attempt_ok]
    split
    · rename_i hlarge
      exact ⟨_, rfl, fun hle => absurd hle (Nat.not_le_of_lt hlarge)⟩
    · rw [StoreState.objectIndex_stale h]
      exact ⟨_, rfl, fun _ => rfl⟩
  · exact ⟨_, rfl, fun hle => by omega⟩

/-- **An operation on a handle that names nothing fails**, with `StaleHandle` if its sizes are within
the limits. -/
theorem Mutation.apply_stale (h : ¬ s.Live handle) {m : Mutation} (hm : m.handle? = some handle)
    (config : Config) :
    ∃ e, (m.apply config s).1 = .error e ∧ (m.Fits → e = .staleHandle) := by
  cases m with
  | create => cases hm
  | write other offset input =>
    cases hm
    obtain ⟨e, he, hfits⟩ := StoreState.write_stale h offset input config
    exact ⟨e, congrArg (Except.map fun _ => none) he, fun hle => hfits hle.1 hle.2⟩
  | truncate other newLen =>
    cases hm
    obtain ⟨e, he, hfits⟩ := StoreState.truncate_stale h newLen config
    exact ⟨e, congrArg (Except.map fun _ => none) he, hfits⟩
  | delete other =>
    cases hm
    have he : (s.delete handle).1 = .error .staleHandle := by
      unfold StoreState.delete
      rw [StoreState.objectIndex_stale h]
      rfl
    exact ⟨.staleHandle, congrArg (Except.map fun _ => none) he, fun _ => rfl⟩
  | bind name other =>
    cases hm
    have he : (s.bind name handle).1 = .error .staleHandle := by
      unfold StoreState.bind
      rw [StoreState.objectIndex_stale h]
      rfl
    exact ⟨.staleHandle, congrArg (Except.map fun _ => none) he, fun _ => rfl⟩

theorem StoreState.read_stale (h : ¬ s.Live handle) (offset : Nat) (output : Bytes) :
    s.read handle offset output = .error .staleHandle := by
  unfold StoreState.read
  rw [StoreState.objectIndex_stale h]
  rfl

/-- `lookup` returns objects that exist. -/
theorem StoreState.Wf.lookup_live {config : Config} (h : s.Wf config) {name : Name}
    (hl : s.lookup name = .ok handle) : s.Live handle := by
  obtain ⟨i, hi, rfl⟩ := map_eq_ok hl
  have hp := position_some (okOr_eq_ok.mp hi)
  rw [Bool.and_eq_true] at hp
  exact h.bound i hp.1

end Stale

/-! ## 2. Handles that nothing resolves -/

/-- **Nothing in the store resolves the handle.** -/
structure Unresolved {variant : VariantId} (s : Store variant) (handle : ObjectHandle) : Prop where
  committed : (Parts.committed s).objectIndex handle = .error .staleHandle
  working : ∀ w, Parts.active s = some w → w.state.objectIndex handle = .error .staleHandle
  read : ∀ offset output, TransactionalStore.read s handle offset output = .error .staleHandle
  lookup : ∀ name, TransactionalStore.lookup s name ≠ .ok handle
  fails : ∀ transaction now (m : Mutation), m.handle? = some handle →
    ∃ e, (m.run s transaction now).1 = .error e
  /-- In the working transaction, and with sizes within the limits, it is the handle that fails. -/
  stale : ∀ transaction now (m : Mutation), m.handle? = some handle → m.Fits →
    (∃ w, Parts.active s = some w ∧ w.check transaction now = .ok ()) →
    (m.run s transaction now).1 = .error .staleHandle

section Unresolved

variable {variant : VariantId} {s : Store variant} {v : View} {handle : ObjectHandle}

theorem View.check_of_active {w : WorkingTransaction} (ha : v.active = some w)
    (transaction : TransactionId) (now : Tick) :
    v.check transaction now = w.check transaction now := by
  unfold View.check
  rw [ha]
  rfl

theorem Shows.mutate_stale (h : Shows s v) (ha : ∀ w, v.active = some w → ¬ w.state.Live handle)
    (transaction : TransactionId) (now : Tick) {m : Mutation} (hm : m.handle? = some handle) :
    ∃ e, (m.run s transaction now).1 = .error e ∧
      (m.Fits → v.check transaction now = .ok () → e = .staleHandle) := by
  rcases h.mutate_cases transaction now m with ⟨e, -, hc, he⟩ | ⟨w, hw, -, -, hr⟩
  · refine ⟨e, he, fun _ hok => ?_⟩
    cases hc.symm.trans hok
  · obtain ⟨e, he, hfits⟩ := Mutation.apply_stale (ha w hw) hm v.config
    rcases hr with hr | ⟨-, r, hok⟩
    · exact ⟨e, hr.trans he, fun hf _ => hfits hf⟩
    · cases he.symm.trans hok

theorem Shows.unresolved (h : Shows s v) (hc : ¬ v.committed.Live handle)
    (ha : ∀ w, v.active = some w → ¬ w.state.Live handle) : Unresolved s handle where
  committed := by
    rw [h.committed]
    exact StoreState.objectIndex_stale hc
  working w hw := by
    rw [h.active] at hw
    exact StoreState.objectIndex_stale (ha w hw)
  read offset output := by
    rw [read_eq, h.committed]
    exact StoreState.read_stale hc offset output
  lookup name hl := by
    rw [lookup_eq, h.committed] at hl
    exact hc (h.sound.committed.lookup_live hl)
  fails transaction now m hm := by
    obtain ⟨e, he, -⟩ := h.mutate_stale ha transaction now hm
    exact ⟨e, he⟩
  stale transaction now m hm hfits hcheck := by
    obtain ⟨w, hw, hok⟩ := hcheck
    obtain ⟨e, he, hstale⟩ := h.mutate_stale ha transaction now hm
    rw [h.active] at hw
    rw [he, hstale hfits ((View.check_of_active hw transaction now).trans hok)]

/-- The store can record one more operation: the log of a write-ahead-log store has a slot. -/
def LogRoom : {variant : VariantId} → Store variant → Prop
  | .cow, _ => True
  | .wal, (s : WalStore) => s.log.length < maxWalRecords

/-- A `create` that returns has been recorded. -/
theorem logRoom_of_create {transaction : TransactionId} {now : Tick} {r : Option ObjectHandle}
    (hok : (Mutation.create.run s transaction now).1 = .ok r) : LogRoom s := by
  cases variant with
  | cow => trivial
  | wal =>
    have hrun : Mutation.create.run s transaction now = _ :=
      WalStore.run_mutation s transaction now .create
    rw [hrun] at hok
    obtain ⟨u, -, hok⟩ := fst_attempt_eq_ok hok
    obtain ⟨w, -, hok⟩ := fst_attempt_eq_ok hok
    obtain ⟨a, -, hok⟩ := fst_attempt_eq_ok hok
    by_contra hfull
    rw [if_neg (by exact hfull)] at hok
    cases hok

/-- **A handle that is returned is taken from the counter** of the working state, for a free slot. -/
theorem Shows.create_ok (h : Shows s v) {transaction : TransactionId} {now : Tick}
    (hok : (TransactionalStore.create s transaction now).1 = .ok handle) :
    LogRoom s ∧ ∃ w, v.active = some w ∧ w.id = transaction ∧ w.check transaction now = .ok () ∧
      w.state.nextObjectId = handle.id ∧ ∃ i, (w.state.objects i).present = false := by
  have hrun : (Mutation.create.run s transaction now).1 = .ok (some handle) :=
    congrArg (Except.map some) hok
  refine ⟨logRoom_of_create hrun, ?_⟩
  rcases h.mutate_cases transaction now .create with ⟨e, -, -, he⟩ | ⟨w, hw, hid, hc, hr⟩
  · cases he.symm.trans hrun
  · rw [View.check_of_active hw] at hc
    rcases hr with hr | ⟨hfull, -⟩
    · have happly : (w.state.create.1.map some : Except Error (Option ObjectHandle)) =
          .ok (some handle) := hr.symm.trans hrun
      rcases w.state.create_cases with ⟨e, -, he⟩ | ⟨i, hi, -, -, -, hs⟩
      · rw [he] at happly
        cases happly
      · rw [hs] at happly
        cases happly
        exact ⟨w, hw, hid, hc, rfl, i, hi⟩
    · cases hfull.symm.trans hrun

end Unresolved

/-! ## 3. A committed delete is final -/

/-- The handle was given out, and its object is not there any more. -/
structure StoreState.Gone (s : StoreState) (handle : ObjectHandle) : Prop where
  counted : handle.id < s.nextObjectId
  dead : ¬ s.Live handle

theorem StoreState.Descends.gone {c s : StoreState} (h : Descends c s) {handle : ObjectHandle}
    (hg : c.Gone handle) : s.Gone handle where
  counted := Nat.lt_of_lt_of_le hg.counted h.next_le
  dead hlive := hg.dead (h.live handle hg.counted hlive)

theorem StoreState.Gone.stamp {s : StoreState} {handle : ObjectHandle} (h : s.Gone handle)
    (generation : Generation) : { s with generation := generation }.Gone handle :=
  ⟨h.counted, h.dead⟩

/-- What is deleted is gone. -/
theorem StoreState.Wf.delete_gone {config : Config} {s s' : StoreState} (h : s.Wf config)
    {handle : ObjectHandle} {r : Option ObjectHandle}
    (hd : (Mutation.delete handle).apply config s = (.ok r, s')) : s'.Gone handle := by
  have hok : s.delete handle = (.ok (), s') := Mutation.of_unit hd
  rcases s.delete_cases handle with ⟨e, -, hs⟩ | ⟨i, hi, hs⟩
  · cases hs.symm.trans hok
  · cases hs.symm.trans hok
    refine ⟨h.live_lt ⟨i, StoreState.objectIndex_ok hi⟩, fun hlive => ?_⟩
    exact ((h.deleted_live hi handle).mp hlive).2 rfl

section Transaction

variable {v v' : View} {c : Call} {seen : Seen} {transaction : TransactionId}

/-- **A transaction that is at work after a call was at work before it**, over the same committed
state, and nothing has become pending. -/
theorem Changed.same_transaction (h : Changed v c seen v')
    (hbegun : transaction.nonce < v.nextTransaction) {w' : WorkingTransaction}
    (ha' : v'.active = some w') (hid : w'.id = transaction) :
    ∃ w, v.active = some w ∧ w.id = transaction ∧ StoreState.Descends w.state w'.state ∧
      v'.committed = v.committed ∧ ∀ state valid, v'.pending = .receipted state valid →
        ∃ valid', v.pending = .receipted state valid' := by
  cases h with
  | began now deadline ha hd =>
    -- a new transaction has a new nonce
    cases ha'
    rw [← hid] at hbegun
    exact absurd hbegun (Nat.lt_irrefl _)
  | edited now m r w state ha hm he =>
    cases ha'
    exact ⟨w, ha, hid, he.descends, rfl, fun state valid hp => ⟨valid, hp⟩⟩
  | published => cases ha'
  | interrupted => cases ha'
  | aborted => cases ha'
  | cancelled w ha =>
    cases ha'
    exact ⟨w, ha, hid, .refl _, rfl, fun state valid hp => ⟨valid, hp⟩⟩
  | collected retainFrom pending hp =>
    refine ⟨w', ha', hid, .refl _, rfl, fun state valid heq => ?_⟩
    rcases hp with rfl | ⟨rfl, -⟩
    · exact ⟨valid, heq⟩
    · cases heq
  | corrupted r pending hp hr =>
    exact ⟨w', ha', hid, .refl _, rfl, fun state valid heq => hp.receipted heq⟩
  | recovered => cases ha'
  | _ => exact ⟨w', ha', hid, .refl _, rfl, fun state valid hp => ⟨valid, hp⟩⟩

/-- The transaction has begun, and as long as it is at work its state has lost the object. -/
structure View.Deleting (v : View) (transaction : TransactionId) (handle : ObjectHandle) : Prop where
  begun : transaction.nonce < v.nextTransaction
  gone : ∀ w, v.active = some w → w.id = transaction → w.state.Gone handle

theorem Changed.deleting {handle : ObjectHandle} (h : Changed v c seen v')
    (hd : v.Deleting transaction handle) : v'.Deleting transaction handle := by
  refine ⟨Nat.lt_of_lt_of_le hd.begun h.nextTransaction_le, ?_⟩
  intro w' ha' hid
  obtain ⟨w, ha, hid', hdesc, -, -⟩ := h.same_transaction hd.begun ha' hid
  exact hdesc.gone (hd.gone w ha hid')

end Transaction

section Final

variable {variant : VariantId} {config : Config} {v : View}

/-- A delete that has succeeded. -/
theorem Shows.deleting {s : Store variant} (h : Shows s v) {transaction : TransactionId} {now : Tick}
    {handle : ObjectHandle} {u : Unit}
    (hok : (TransactionalStore.delete s transaction now handle).1 = .ok u) :
    ∃ v', Shows (TransactionalStore.delete s transaction now handle).2 v' ∧
      v'.Deleting transaction handle := by
  obtain ⟨v', hv', hmove⟩ := h.step (.mutate transaction now (.delete handle))
  have hrun : ((Mutation.delete handle).run s transaction now).1 = .ok none :=
    congrArg (Except.map fun _ => none) hok
  have hseen : ((Call.mutate transaction now (.delete handle)).run s).1.seen =
      .mutated (.ok none) := congrArg Seen.mutated hrun
  have hchanged := hmove.changed h.sound
  rw [hseen] at hchanged
  refine ⟨v', hv', ?_⟩
  cases hchanged with
  | refused _ _ e he => cases he
  | looked _ _ hl => cases hl
  | edited _ _ _ w state ha hm hedit =>
    obtain ⟨hwf, -, -, -, hnonce⟩ := h.sound.active w ha
    refine ⟨hnonce, fun w' ha' _ => ?_⟩
    cases ha'
    exact hwf.delete_gone hm

/-- **The transaction commits**: its commit succeeds, or is interrupted after the receipt and a later
`recover` installs its state. -/
inductive Commits (transaction : TransactionId) (s : Store variant) : List Call → Prop
  | published (now : Tick) (durability : Durability) (receipt : CommitReceipt)
      (h : (TransactionalStore.commit s transaction now durability).1 = .ok receipt) :
      Commits transaction s [.commit transaction now durability]
  | recovered (now : Tick) (durability : Durability) (w : WorkingTransaction)
      (hw : Parts.active s = some w)
      (hi : (TransactionalStore.commit s transaction now durability).1 =
        .error (.interrupted .afterCommitReceipt))
      (gap : List Call)
      (hr : Parts.committed (TransactionalStore.recover
        (runCalls s (.commit transaction now durability :: gap))).2 =
          { w.state with generation := transaction.baseGeneration + 1 }) :
      Commits transaction s (.commit transaction now durability :: (gap ++ [.recover]))

/-- An interrupted commit is recovered if no call takes its bank before `recover` does. -/
theorem Shows.commits {s : Store variant} (h : Shows s v) (ht : v.tampered = false)
    {w : WorkingTransaction} (hw : Parts.active s = some w) {transaction : TransactionId}
    {now : Tick} {durability : Durability}
    (hi : (TransactionalStore.commit s transaction now durability).1 =
      .error (.interrupted .afterCommitReceipt))
    (gap : List Call) (hrecover : Call.recover ∉ gap)
    (hcorrupt : Call.corruptPendingMetadata ∉ gap)
    (hsafe : ∀ init c rest, gap = init ++ c :: rest →
      Spares (runCalls (TransactionalStore.commit s transaction now durability).2 init)
        (transaction.baseGeneration + 1) c) :
    Commits transaction s (.commit transaction now durability :: (gap ++ [.recover])) := by
  have hwaiting := (h.waiting ht hw hi).run hrecover hcorrupt hsafe
  exact .recovered now durability w hw hi gap hwaiting.recover

theorem Commits.gone {s : Store variant} (h : Shows s v) {transaction : TransactionId}
    {handle : ObjectHandle} (hd : v.Deleting transaction handle) {calls : List Call}
    (hc : Commits transaction s calls) :
    ∃ v', Shows (runCalls s calls) v' ∧ v'.committed.Gone handle := by
  cases hc with
  | published now durability receipt hok =>
    obtain ⟨w, ha, hid, hs'⟩ := h.published hok
    exact ⟨_, hs', (hd.gone w ha hid).stamp _⟩
  | recovered now durability w hw hi gap hr =>
    obtain ⟨w', pending, ha, hid, -, -, -⟩ := h.interrupted hi
    obtain rfl : w' = w := Option.some.inj (ha.symm.trans (h.active.symm.trans hw))
    obtain ⟨v', hv'⟩ := h.reach (.commit transaction now durability :: (gap ++ [.recover]))
    refine ⟨v', hv', ?_⟩
    have hcommitted : v'.committed =
        { w'.state with generation := transaction.baseGeneration + 1 } := by
      rw [← hv'.committed, ← hr, ← List.cons_append, runCalls_append]
      rfl
    rw [hcommitted]
    exact (hd.gone w' ha hid).stamp _

/-- The committed state has lost the object, so every later one has. -/
theorem Shows.gone {s : Store variant} (h : Shows s v) {handle : ObjectHandle}
    (hg : v.committed.Gone handle) (calls : List Call) :
    ∃ v', Shows (runCalls s calls) v' ∧ v'.committed.Gone handle := by
  refine h.run (P := fun _ u => u.committed.Gone handle) hg calls ?_
  intro pre c post _ u u' hu hgone hmove
  exact ((hmove.changed hu.sound).descends hu.sound).gone hgone

/-- **A committed delete is final.** -/
theorem committed_delete_final {s₀ : Store variant} (hnew : TransactionalStore.new config = .ok s₀)
    (pre mid : List Call) {transaction : TransactionId} {now : Tick} {handle : ObjectHandle}
    (hdelete : (TransactionalStore.delete (runCalls s₀ pre) transaction now handle).1 = .ok ())
    (commit : List Call)
    (hcommit : Commits transaction
      (runCalls s₀ (pre ++ .mutate transaction now (.delete handle) :: mid)) commit)
    (post : List Call) :
    Unresolved (runCalls s₀
        (pre ++ .mutate transaction now (.delete handle) :: mid ++ commit ++ post)) handle ∧
      ∀ transaction' now', (TransactionalStore.create (runCalls s₀
        (pre ++ .mutate transaction now (.delete handle) :: mid ++ commit ++ post)) transaction'
          now').1 ≠ .ok handle := by
  obtain ⟨v, hv⟩ := (shows_new hnew).reach pre
  obtain ⟨v₁, hv₁, hd₁⟩ := hv.deleting hdelete
  obtain ⟨v₂, hv₂, hd₂⟩ := hv₁.run (P := fun _ u => u.Deleting transaction handle) hd₁ mid
    fun _ _ _ _ u u' hu hd hmove => (hmove.changed hu.sound).deleting hd
  have hmid : runCalls s₀ (pre ++ .mutate transaction now (.delete handle) :: mid) =
      runCalls (TransactionalStore.delete (runCalls s₀ pre) transaction now handle).2 mid := by
    rw [runCalls_append, runCalls_cons]
    rfl
  rw [← hmid] at hv₂
  obtain ⟨v₃, hv₃, hg₃⟩ := hcommit.gone hv₂ hd₂
  obtain ⟨v₄, hv₄, hg₄⟩ := hv₃.gone hg₃ post
  rw [runCalls_append, runCalls_append]
  have hactive : ∀ w, v₄.active = some w → w.state.Gone handle := by
    intro w ha
    obtain ⟨-, hdesc, -⟩ := hv₄.sound.active w ha
    exact hdesc.gone hg₄
  refine ⟨hv₄.unresolved hg₄.dead fun w ha => (hactive w ha).dead, ?_⟩
  intro transaction' now' hok
  obtain ⟨-, w, ha, -, -, hnext, -⟩ := hv₄.create_ok hok
  exact absurd hnext (Nat.ne_of_gt (hactive w ha).counted)

end Final

/-- An object is created and committed, and another transaction begins. -/
def createThenBegin : List Call :=
  [.begin 0 9, .mutate ⟨1, 0⟩ 0 .create, .commit ⟨1, 0⟩ 0 .memoryOnly, .begin 0 9]

/-- The object is deleted, the transaction commits, and another one begins. -/
def deleteThenBegin : List Call :=
  createThenBegin ++ [.mutate ⟨2, 1⟩ 0 (.delete ⟨1, 1⟩), .commit ⟨2, 1⟩ 0 .memoryOnly, .begin 0 9]

theorem createThenBegin_delete {s₀ : Store .cow} (hnew : TransactionalStore.new roomy = .ok s₀) :
    (TransactionalStore.delete (runCalls s₀ createThenBegin) ⟨2, 1⟩ 0 ⟨1, 1⟩).1 = .ok () ∧
      Commits ⟨2, 1⟩ (runCalls s₀
        (createThenBegin ++ .mutate ⟨2, 1⟩ 0 (.delete ⟨1, 1⟩) :: [])) [.commit ⟨2, 1⟩ 0 .memoryOnly] := by
  have hpre : Shows (runCalls s₀ createThenBegin) ((View.new roomy).run .cow createThenBegin) :=
    (shows_new hnew).cow_run rfl
  constructor
  · have hseen := hpre.cow_seen (c := .mutate ⟨2, 1⟩ 0 (.delete ⟨1, 1⟩)) rfl
    have hrun : ((Mutation.delete ⟨1, 1⟩).run (runCalls s₀ createThenBegin) ⟨2, 1⟩ 0).1 =
        .ok none := Seen.mutated.inj hseen
    obtain ⟨u, hu, -⟩ := map_eq_ok hrun
    exact hu
  · have hdeleted : Shows (runCalls (runCalls s₀ createThenBegin)
        [.mutate ⟨2, 1⟩ 0 (.delete ⟨1, 1⟩)]) _ := hpre.cow_run rfl
    have hseen := hdeleted.cow_seen (c := .commit ⟨2, 1⟩ 0 .memoryOnly) rfl
    obtain ⟨receipt, hreceipt⟩ := Reply.seen_receipt_ok hseen
    rw [runCalls_append]
    exact .published 0 .memoryOnly receipt (Reply.receipt.inj hreceipt)

/-- A fault after the receipt interrupts the transaction that deletes. -/
def faultThenRecover : List Call :=
  createThenBegin ++ [.mutate ⟨2, 1⟩ 0 (.delete ⟨1, 1⟩), .injectFault .afterCommitReceipt,
    .commit ⟨2, 1⟩ 0 .memoryOnly, .recover, .begin 0 9]

theorem committed_delete_final_recovered :
    ∃ s₀ : Store .cow, TransactionalStore.new roomy = .ok s₀ ∧
      TransactionalStore.read (runCalls s₀ faultThenRecover) ⟨1, 1⟩ 0 [0] = .error .staleHandle ∧
      (TransactionalStore.create (runCalls s₀ faultThenRecover) ⟨3, 2⟩ 0).1 ≠ .ok ⟨1, 1⟩ := by
  obtain ⟨s₀, hnew⟩ := exists_new .cow roomy
  obtain ⟨hdelete, -⟩ := createThenBegin_delete hnew
  have hmid : Shows (runCalls s₀ (createThenBegin ++ .mutate ⟨2, 1⟩ 0 (.delete ⟨1, 1⟩) ::
      [.injectFault .afterCommitReceipt])) _ := (shows_new hnew).cow_run rfl
  have hseen := hmid.cow_seen (c := .commit ⟨2, 1⟩ 0 .memoryOnly) rfl
  have hi := Reply.receipt.inj (Reply.seen_interrupted hseen)
  have hcommit := hmid.commits rfl hmid.active hi [] nofun nofun
    fun init c rest hsplit => absurd hsplit.symm (List.append_ne_nil_of_right_ne_nil init nofun)
  obtain ⟨hunresolved, hcreate⟩ := committed_delete_final hnew createThenBegin
    [.injectFault .afterCommitReceipt] hdelete _ hcommit [.begin 0 9]
  exact ⟨s₀, hnew, hunresolved.read 0 [0], hcreate ⟨3, 2⟩ 0⟩

/-- **The size of a write is checked before its handle**: an operation on an object whose deletion
was committed can fail otherwise than with `StaleHandle`. -/
theorem deleted_handle_io_too_large :
    ∃ s₀ : Store .cow, TransactionalStore.new roomy = .ok s₀ ∧
      (TransactionalStore.delete (runCalls s₀ createThenBegin) ⟨2, 1⟩ 0 ⟨1, 1⟩).1 = .ok () ∧
      Commits ⟨2, 1⟩ (runCalls s₀ (createThenBegin ++ .mutate ⟨2, 1⟩ 0 (.delete ⟨1, 1⟩) :: []))
        [.commit ⟨2, 1⟩ 0 .memoryOnly] ∧
      (TransactionalStore.write (runCalls s₀ deleteThenBegin) ⟨3, 2⟩ 0 ⟨1, 1⟩ 0
        (List.replicate 65 0)).1 = .error .ioTooLarge := by
  obtain ⟨s₀, hnew⟩ := exists_new .cow roomy
  obtain ⟨hdelete, hcommit⟩ := createThenBegin_delete hnew
  refine ⟨s₀, hnew, hdelete, hcommit, ?_⟩
  have hrun : Shows (runCalls s₀ deleteThenBegin) ((View.new roomy).run .cow deleteThenBegin) :=
    (shows_new hnew).cow_run rfl
  have hseen := hrun.cow_seen
    (c := .mutate ⟨3, 2⟩ 0 (.write ⟨1, 1⟩ 0 (List.replicate 65 0))) rfl
  have herror : ((TransactionalStore.write (runCalls s₀ deleteThenBegin) ⟨3, 2⟩ 0 ⟨1, 1⟩ 0
      (List.replicate 65 0)).1.map fun _ => (none : Option ObjectHandle)) = .error .ioTooLarge :=
    Seen.mutated.inj hseen
  cases hwrite : (TransactionalStore.write (runCalls s₀ deleteThenBegin) ⟨3, 2⟩ 0 ⟨1, 1⟩ 0
      (List.replicate 65 0)).1 with
  | error e =>
    rw [hwrite] at herror
    cases herror
    rfl
  | ok u =>
    rw [hwrite] at herror
    cases herror

/-! ## 4. Handles of transactions that were rolled back -/

/-- What is committed or pending has not counted past `n`. -/
structure View.Behind (v : View) (n : Nat) : Prop where
  committed : v.committed.nextObjectId ≤ n
  pending : ∀ state valid, v.pending = .receipted state valid → state.nextObjectId ≤ n

/-- Nor has the working transaction. -/
structure View.Below (v : View) (n : Nat) : Prop extends v.Behind n where
  active : ∀ w, v.active = some w → w.state.nextObjectId ≤ n

/-- As long as the transaction is at work, what is committed or pending has not counted past `n`. -/
structure View.Creating (v : View) (transaction : TransactionId) (n : Nat) : Prop where
  begun : transaction.nonce < v.nextTransaction
  behind : ∀ w, v.active = some w → w.id = transaction → v.Behind n

/-- `create` would take the handle from the counter: the working transaction passes its check, its
counter stands at the handle, a slot is free, and the log has room. -/
def Reissues {variant : VariantId} (s : Store variant) (handle : ObjectHandle) : Call → Prop
  | .mutate transaction now .create => LogRoom s ∧ ∃ w, Parts.active s = some w ∧
      w.check transaction now = .ok () ∧ w.state.nextObjectId = handle.id ∧
      ∃ i, (w.state.objects i).present = false
  | _ => False

/-- A commit that awaits recovery has counted past the handle.  A write-ahead-log store has no
transaction at work meanwhile. -/
def CountedAhead : {variant : VariantId} → Store variant → ObjectHandle → Prop
  | .cow, (s : CowStore), handle => ∃ i, (s.superblocks i).present = true ∧
      s.committed.generation < (s.superblocks i).generation ∧ handle.id < (s.banks i).nextObjectId
  | .wal, _, _ => False

/-- The call ends the transaction, and does not commit it. -/
def RollsBack {variant : VariantId} (s : Store variant) (transaction : TransactionId) (c : Call) :
    Prop :=
  (∃ w, Parts.active s = some w ∧ w.id = transaction) ∧
    match c with
    | .abort t => t = transaction
    | .recover => True
    | .commit t now durability => t = transaction ∧
        (TransactionalStore.commit s t now durability).1 =
          .error (.interrupted .beforeCommitReceipt)
    | _ => False

section Counters

variable {config : Config} {s s' : StoreState} {r : Option ObjectHandle}

/-- **Only `create` counts**, and it takes a free slot. -/
theorem StoreState.Wf.nextObjectId_apply (h : s.Wf config) {m : Mutation}
    (hm : m.apply config s = (.ok r, s')) :
    s'.nextObjectId = s.nextObjectId ∨
      m = .create ∧ s'.nextObjectId = s.nextObjectId + 1 ∧ ∃ i, (s.objects i).present = false := by
  cases m with
  | create =>
    have happly : ((s.create.1.map some : Except Error (Option ObjectHandle)), s.create.2) =
        (.ok r, s') := hm
    rcases s.create_cases with ⟨e, -, hs⟩ | ⟨i, hi, -, -, -, hs⟩
    · rw [hs] at happly
      cases happly
    · rw [hs] at happly
      cases happly
      exact Or.inr ⟨rfl, rfl, i, hi⟩
  | write handle offset input =>
    have hok : s.write handle offset input config = (.ok (), s') := Mutation.of_unit hm
    rcases h.write_cases handle offset input with ⟨e, -, hs⟩ | ⟨i, -, -, -, -, -, hs⟩
    · cases hs.symm.trans hok
    · cases hs.symm.trans hok
      exact Or.inl rfl
  | truncate handle newLen =>
    have hok : s.truncate handle newLen config = (.ok (), s') := Mutation.of_unit hm
    rcases h.truncate_cases handle newLen with ⟨e, -, hs⟩ | ⟨i, -, -, -, -, hs⟩
    · cases hs.symm.trans hok
    · cases hs.symm.trans hok
      exact Or.inl rfl
  | delete handle =>
    have hok : s.delete handle = (.ok (), s') := Mutation.of_unit hm
    rcases s.delete_cases handle with ⟨e, -, hs⟩ | ⟨i, -, hs⟩
    · cases hs.symm.trans hok
    · cases hs.symm.trans hok
      exact Or.inl rfl
  | bind name handle =>
    have hok : s.bind name handle = (.ok (), s') := Mutation.of_unit hm
    rcases h.bind_cases name handle with ⟨e, -, hs⟩ | ⟨k, -, -, -, hs⟩
    · cases hs.symm.trans hok
    · cases hs.symm.trans hok
      exact Or.inl rfl

end Counters

section Views

variable {v v' : View} {c : Call} {seen : Seen} {transaction : TransactionId} {n : Nat}

theorem Changed.creating (h : Changed v c seen v') (hc : v.Creating transaction n) :
    v'.Creating transaction n := by
  refine ⟨Nat.lt_of_lt_of_le hc.begun h.nextTransaction_le, ?_⟩
  intro w' ha' hid
  obtain ⟨w, ha, hid', -, hcommitted, hpending⟩ := h.same_transaction hc.begun ha' hid
  have hbehind := hc.behind w ha hid'
  refine ⟨hcommitted ▸ hbehind.committed, fun state valid hp => ?_⟩
  obtain ⟨valid', hp'⟩ := hpending state valid hp
  exact hbehind.pending state valid' hp'

theorem View.Behind.installed (h : v.Behind n) :
    (v.pending.installed v.committed).nextObjectId ≤ n := by
  cases hp : v.pending with
  | nothing => exact h.committed
  | torn => exact h.committed
  | receipted state valid =>
    cases valid with
    | true => exact h.pending state true hp
    | false => exact h.committed

/-- **One call.** No counter gets past `n` if no `create` is made at `n`. -/
theorem Changed.below (hs : v.Sound) (h : Changed v c seen v') (hb : v.Below n)
    (hno : ∀ now w, c = .mutate w.id now .create → v.active = some w → seen.error? = none →
      (∃ i, (w.state.objects i).present = false) → w.state.nextObjectId ≠ n) : v'.Below n := by
  cases h with
  | began now deadline ha hd =>
    refine ⟨⟨hb.committed, hb.pending⟩, ?_⟩
    intro w hw
    cases hw
    exact hb.committed
  | edited now m r w state ha hm he =>
    refine ⟨⟨hb.committed, hb.pending⟩, ?_⟩
    intro w' hw'
    cases hw'
    have hle := hb.active w ha
    -- only `create` raises the counter, and it was below
    rcases (hs.active w ha).1.nextObjectId_apply hm with heq | ⟨rfl, heq, hfree⟩
    · exact heq ▸ hle
    · have hne := hno now w rfl ha rfl hfree
      have hsucc : state.nextObjectId ≤ n := by omega
      exact hsucc
  | published now durability w ha hf => exact ⟨⟨hb.active w ha, nofun⟩, nofun⟩
  | interrupted now durability w ha pending hp =>
    refine ⟨⟨hb.committed, ?_⟩, nofun⟩
    intro state valid heq
    rw [hp.receipted heq]
    exact hb.active w ha
  | aborted w ha => exact ⟨⟨hb.committed, hb.pending⟩, nofun⟩
  | cancelled w ha =>
    refine ⟨⟨hb.committed, hb.pending⟩, ?_⟩
    intro w' hw'
    cases hw'
    exact hb.active w ha
  | collected retainFrom pending hp =>
    refine ⟨⟨hb.committed, ?_⟩, hb.active⟩
    intro state valid heq
    rcases hp with rfl | ⟨rfl, -⟩
    · exact hb.pending state valid heq
    · cases heq
  | corrupted r pending hp hr =>
    refine ⟨⟨hb.committed, ?_⟩, hb.active⟩
    intro state valid heq
    obtain ⟨valid', hp'⟩ := hp.receipted heq
    exact hb.pending state valid' hp'
  | recovered => exact ⟨⟨hb.installed, nofun⟩, nofun⟩
  | _ => exact ⟨⟨hb.committed, hb.pending⟩, hb.active⟩

end Views

section RolledBack

variable {variant : VariantId} {config : Config} {s : Store variant} {v : View}
  {handle : ObjectHandle}

/-- The working transaction is about to return the handle, and no other has. -/
theorem Shows.behind (h : Shows s v) {w : WorkingTransaction} (ha : v.active = some w)
    (hnext : w.state.nextObjectId = handle.id) (hahead : ¬ CountedAhead s handle) :
    v.Behind handle.id := by
  obtain ⟨-, hdesc, -⟩ := h.sound.active w ha
  refine ⟨hnext ▸ hdesc.next_le, ?_⟩
  intro state valid hp
  cases variant with
  | cow =>
    have hrep : CowStore.Rep s v := h.rep
    obtain ⟨hpresent, hlt⟩ := (hrep.ahead h.sound s.activeBank.rev).mpr ⟨rfl, state, valid, hp⟩
    have hother := hrep.other
    unfold CowStore.OtherBank at hother
    rw [hp] at hother
    rw [← hrep.committed] at hlt
    by_contra hgt
    refine hahead ⟨s.activeBank.rev, hpresent, hlt, ?_⟩
    rw [hother.1]
    exact Nat.lt_of_not_le hgt
  | wal =>
    have hlog := WalStore.Rep.log h.rep
    unfold LogIs at hlog
    rw [ha] at hlog
    cases hlog.1.symm.trans hp

theorem Moves.abort_eq {v' : View} {seen : Seen} {transaction : TransactionId}
    (h : Moves variant v (.abort transaction) seen v') : v' = (v.abort transaction).2 := by
  cases h with
  | ideal => rfl

/-- After the transaction is rolled back, no counter is past the handle. -/
theorem Shows.rolledBack (h : Shows s v) {transaction : TransactionId} {n : Nat}
    (hc : v.Creating transaction n) {c : Call} (hr : RollsBack s transaction c) :
    ∃ v', Shows (c.run s).2 v' ∧ v'.Below n := by
  obtain ⟨⟨w, hw, hid⟩, hends⟩ := hr
  rw [h.active] at hw
  have hbehind := hc.behind w hw hid
  cases c with
  | abort t =>
    obtain rfl : t = transaction := hends
    obtain ⟨v', hv', hmove⟩ := h.step (.abort t)
    refine ⟨v', hv', ?_⟩
    rw [hmove.abort_eq]
    unfold View.abort
    rw [hw, okOr_some, attempt_ok, if_neg (fun hne => hne hid)]
    exact ⟨⟨hbehind.committed, hbehind.pending⟩, nofun⟩
  | recover => exact ⟨v.recover, h.recover, ⟨hbehind.installed, nofun⟩, nofun⟩
  | commit t now durability =>
    obtain ⟨w', pending, -, -, hf, hleaves, hv'⟩ := h.interrupted hends.2
    refine ⟨_, hv', ⟨hbehind.committed, ?_⟩, nofun⟩
    unfold View.Leaves at hleaves
    rw [← hf] at hleaves
    intro state valid hp
    cases hleaves.symm.trans hp
  | _ => exact hends.elim

/-- A `create` that succeeds has passed its check, and was recorded. -/
theorem Shows.check_of_created (h : Shows s v) {w : WorkingTransaction} (ha : v.active = some w)
    {transaction : TransactionId} {now : Tick}
    (hok : ((Call.mutate transaction now .create).run s).1.seen.error? = none) :
    LogRoom s ∧ w.check transaction now = .ok () := by
  have hseen : ((Call.mutate transaction now .create).run s).1.seen =
      .mutated (Mutation.create.run s transaction now).1 := rfl
  rw [hseen] at hok
  cases hrun : (Mutation.create.run s transaction now).1 with
  | error e =>
    rw [hrun] at hok
    cases hok
  | ok r =>
    refine ⟨logRoom_of_create hrun, ?_⟩
    rcases h.mutate_cases transaction now .create with ⟨e, -, -, he⟩ | ⟨w', ha', -, hc, -⟩
    · cases he.symm.trans hrun
    · rw [View.check_of_active ha] at hc
      exact hc

/-- **Every run** in which no `create` takes the handle again. -/
theorem Shows.below (h : Shows s v) (hb : v.Below handle.id) (calls : List Call)
    (hno : ∀ init c rest, calls = init ++ c :: rest → ¬ Reissues (runCalls s init) handle c) :
    ∃ v', Shows (runCalls s calls) v' ∧ v'.Below handle.id := by
  refine h.run (P := fun _ u => u.Below handle.id) hb calls ?_
  intro pre c post hcalls u u' hu hbelow hmove
  refine (hmove.changed hu.sound).below hu.sound hbelow ?_
  rintro now w rfl ha hok hfree hnext
  obtain ⟨hroom, hcheck⟩ := hu.check_of_created ha hok
  exact hno pre _ post hcalls ⟨hroom, w, hu.active.trans ha, hcheck, hnext, hfree⟩

/-- Ids below the counters only are in use. -/
theorem View.Below.dead (hs : v.Sound) (h : v.Below handle.id) :
    ¬ v.committed.Live handle ∧ ∀ w, v.active = some w → ¬ w.state.Live handle := by
  constructor
  · intro hlive
    exact absurd (hs.committed.live_lt hlive) (Nat.not_lt_of_le h.committed)
  · intro w ha hlive
    exact absurd ((hs.active w ha).1.live_lt hlive) (Nat.not_lt_of_le (h.active w ha))

/-- **The handle of a transaction that was rolled back resolves nowhere**, if no commit that awaits
recovery had counted past it and no later `create` is made while the counter stands at it. -/
theorem rolled_back_handle_unresolved {s₀ : Store variant}
    (hnew : TransactionalStore.new config = .ok s₀) (pre mid : List Call)
    {transaction : TransactionId} {now : Tick}
    (hcreate : (TransactionalStore.create (runCalls s₀ pre) transaction now).1 = .ok handle)
    (hahead : ¬ CountedAhead (runCalls s₀ pre) handle) {c : Call}
    (hend : RollsBack (runCalls s₀ (pre ++ .mutate transaction now .create :: mid)) transaction c)
    (post : List Call)
    (hpost : ∀ init c' rest, post = init ++ c' :: rest →
      ¬ Reissues (runCalls s₀ (pre ++ .mutate transaction now .create :: mid ++ c :: init)) handle
        c') :
    Unresolved (runCalls s₀ (pre ++ .mutate transaction now .create :: mid ++ c :: post)) handle ∧
      ∀ transaction' now', ¬ Reissues (runCalls s₀
          (pre ++ .mutate transaction now .create :: mid ++ c :: post)) handle
          (.mutate transaction' now' .create) →
        (TransactionalStore.create (runCalls s₀
          (pre ++ .mutate transaction now .create :: mid ++ c :: post)) transaction' now').1 ≠
          .ok handle := by
  obtain ⟨v, hv⟩ := (shows_new hnew).reach pre
  obtain ⟨-, w, ha, hid, -, hnext, -⟩ := hv.create_ok hcreate
  have hcreating : v.Creating transaction handle.id := by
    obtain ⟨-, -, -, -, hnonce⟩ := hv.sound.active w ha
    exact ⟨hid ▸ hnonce, fun _ _ _ => hv.behind ha hnext hahead⟩
  -- while the transaction runs, the object is in its working state alone
  obtain ⟨v₁, hv₁, hc₁⟩ := hv.run (P := fun _ u => u.Creating transaction handle.id) hcreating
    (.mutate transaction now .create :: mid)
    fun _ _ _ _ u u' hu hc hmove => (hmove.changed hu.sound).creating hc
  rw [← runCalls_append] at hv₁
  -- behind its end the counter is below the id, and it stays there until the id is given again
  obtain ⟨v₂, hv₂, hb₂⟩ := hv₁.rolledBack hc₁ hend
  have hrun : ∀ calls, runCalls s₀ (pre ++ .mutate transaction now .create :: mid ++ c :: calls) =
      runCalls (c.run (runCalls s₀ (pre ++ .mutate transaction now .create :: mid))).2 calls := by
    intro calls
    rw [runCalls_append, runCalls_cons]
  obtain ⟨v₃, hv₃, hb₃⟩ := hv₂.below hb₂ post fun init c' rest hsplit => by
    rw [← hrun]
    exact hpost init c' rest hsplit
  rw [← hrun] at hv₃
  obtain ⟨hcommitted, hactive⟩ := hb₃.dead hv₃.sound
  refine ⟨hv₃.unresolved hcommitted hactive, ?_⟩
  intro transaction' now' hno hok
  obtain ⟨hroom, w', ha', -, hcheck, hnext', hfree⟩ := hv₃.create_ok hok
  exact hno ⟨hroom, w', hv₃.active.trans ha', hcheck, hnext', hfree⟩

end RolledBack

section Reissued

/-- A transaction creates an object and is aborted, and another one begins. -/
def createThenAbort : List Call :=
  [.begin 0 9, .mutate ⟨1, 0⟩ 0 .create, .abort ⟨1, 0⟩, .begin 0 9]

theorem Shows.cow_create {s : Store .cow} {v : View} (h : Shows s v) {transaction : TransactionId}
    {now : Tick} {handle : ObjectHandle}
    (hok : (v.mutate transaction now .create).1 = .ok (some handle)) :
    (TransactionalStore.create s transaction now).1 = .ok handle := by
  have hseen := h.cow_seen (c := .mutate transaction now .create) rfl
  have hrun : (Mutation.create.run s transaction now).1 = .ok (some handle) :=
    (Seen.mutated.inj hseen).trans hok
  obtain ⟨u, hu, heq⟩ := map_eq_ok hrun
  cases heq
  exact hu

theorem Shows.not_countedAhead {s : Store .cow} {v : View} (h : Shows s v)
    (hp : v.pending = .nothing) {handle : ObjectHandle} : ¬ CountedAhead s handle := by
  rintro ⟨i, hpresent, hlt, -⟩
  have hrep : CowStore.Rep s v := h.rep
  have hlt' : v.committed.generation < (s.superblocks i).generation := by
    rw [← hrep.committed]
    exact hlt
  obtain ⟨-, state, valid, hpending⟩ := (hrep.ahead h.sound i).mp ⟨hpresent, hlt'⟩
  cases hp.symm.trans hpending

theorem rolled_back_handle_unresolved_aborted :
    ∃ s₀ : Store .cow, TransactionalStore.new roomy = .ok s₀ ∧
      (TransactionalStore.create (runCalls s₀ [.begin 0 9]) ⟨1, 0⟩ 0).1 = .ok ⟨1, 1⟩ ∧
      TransactionalStore.read (runCalls s₀ createThenAbort) ⟨1, 1⟩ 0 [0] =
        .error .staleHandle := by
  obtain ⟨s₀, hnew⟩ := exists_new .cow roomy
  have hpre : Shows (runCalls s₀ [.begin 0 9]) ((View.new roomy).run .cow [.begin 0 9]) :=
    (shows_new hnew).cow_run rfl
  have hcreated : Shows (runCalls s₀ ([.begin 0 9] ++ .mutate ⟨1, 0⟩ 0 .create :: [])) _ :=
    (shows_new hnew).cow_run rfl
  have hcreate : (TransactionalStore.create (runCalls s₀ [.begin 0 9]) ⟨1, 0⟩ 0).1 = .ok ⟨1, 1⟩ :=
    hpre.cow_create rfl
  have hahead : ¬ CountedAhead (runCalls s₀ [.begin 0 9]) ⟨1, 1⟩ := hpre.not_countedAhead rfl
  refine ⟨s₀, hnew, hcreate, ?_⟩
  have hunresolved := (rolled_back_handle_unresolved hnew [.begin 0 9] [] hcreate hahead
    (c := .abort ⟨1, 0⟩) ⟨⟨_, hcreated.active, rfl⟩, rfl⟩ [.begin 0 9] ?_).1
  · exact hunresolved.read 0 [0]
  · intro init c' rest hsplit
    have hmem : c' ∈ [Call.begin 0 9] := by
      rw [hsplit]
      exact List.mem_append_right init List.mem_cons_self
    obtain rfl := List.mem_singleton.mp hmem
    exact not_false

/-- **A handle can name two objects**: the counter is rolled back with the state, so the transaction
after an aborted one gets the handle again. -/
theorem rolled_back_handle_reissued :
    ∃ s₀ : Store .cow, TransactionalStore.new roomy = .ok s₀ ∧
      (TransactionalStore.create (runCalls s₀ [.begin 0 9]) ⟨1, 0⟩ 0).1 = .ok ⟨1, 1⟩ ∧
      (TransactionalStore.abort (runCalls s₀ [.begin 0 9, .mutate ⟨1, 0⟩ 0 .create]) ⟨1, 0⟩).1 =
        .ok () ∧
      (TransactionalStore.create (runCalls s₀ createThenAbort) ⟨2, 0⟩ 0).1 = .ok ⟨1, 1⟩ := by
  obtain ⟨s₀, hnew⟩ := exists_new .cow roomy
  have hpre : Shows (runCalls s₀ [.begin 0 9]) ((View.new roomy).run .cow [.begin 0 9]) :=
    (shows_new hnew).cow_run rfl
  have hcreated : Shows (runCalls s₀ [.begin 0 9, .mutate ⟨1, 0⟩ 0 .create]) _ :=
    (shows_new hnew).cow_run rfl
  have haborted : Shows (runCalls s₀ createThenAbort) ((View.new roomy).run .cow createThenAbort) :=
    (shows_new hnew).cow_run rfl
  have hseen := hcreated.cow_seen (c := .abort ⟨1, 0⟩) rfl
  exact ⟨s₀, hnew, hpre.cow_create rfl, Seen.done.inj hseen, haborted.cow_create rfl⟩

end Reissued

end AegisShield.Storage
