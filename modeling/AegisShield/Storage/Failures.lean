/-
# Operations that fail change nothing

With no fault armed, an operation that returns an error leaves the whole store as it was, with its
banks and superblocks or its log.  A transaction that has ended is rejected for good, since its
nonce is never given out again (`failures_change_nothing`).
-/
import AegisShield.Storage.Runs

namespace AegisShield.Storage

open Lib

/-! ## 1. The copy-on-write store -/

namespace CowStore

variable {s : CowStore} {v : View}

theorem begin_untouched (s : CowStore) (now : Tick) (deadline : Deadline) :
    Untouched s (s.begin now deadline) := by
  unfold begin
  split
  · exact .error s _
  · split
    · exact .error s _
    · exact .attempt fun _ _ => .ok s _ _

/-- A failed operation leaves the working state as it was. -/
theorem Rep.mutate_untouched (h : s.Rep v) (hs : v.Sound) (transaction : TransactionId) (now : Tick)
    (m : Mutation) : Untouched s (m.run s transaction now) := by
  rw [run_mutation]
  refine .attempt fun _ _ => ?_
  cases ha : s.active with
  | none => exact .error s _
  | some w =>
    rw [okOr_some, attempt_ok]
    have hwf := (hs.active w (h.active.symm.trans ha)).1
    rw [← h.config] at hwf
    rcases Mutation.apply_cases hwf m with ⟨e, -, hm⟩ | ⟨r, state, hm, -⟩
    · intro e' _
      simp only [hm]
      rw [← ha]
    · simp only [hm]
      exact .ok s _ _

theorem commit_untouched (hf : s.fault = .none) (transaction : TransactionId) (now : Tick)
    (durability : Durability) : Untouched s (s.commit transaction now durability) := by
  unfold commit
  refine .attempt fun _ _ => .attempt fun working _ => .attempt fun generation _ => ?_
  refine .attempt fun d _ => .attempt fun inactive _ => ?_
  unfold publish
  rw [hf, Superblock.new_eq]
  exact .ok s _ _

theorem abort_untouched (s : CowStore) (transaction : TransactionId) :
    Untouched s (s.abort transaction) := by
  unfold abort
  refine .attempt fun current _ => ?_
  split
  · exact .error s _
  · exact .ok s _ _

theorem cancel_untouched (s : CowStore) (transaction : TransactionId) :
    Untouched s (s.cancel transaction) := by
  unfold cancel
  refine .attempt fun current _ => ?_
  split
  · exact .error s _
  · exact .ok s _ _

theorem snapshot_untouched (s : CowStore) : Untouched s s.snapshot := by
  unfold snapshot
  rcases s.snapshots.capture_cases s.committed with ⟨e, -, hc⟩ | ⟨i, -, hc⟩
  · rw [hc]
    exact .error s _
  · rw [hc]
    exact .ok s _ _

end CowStore

/-! ## 2. The write-ahead-log store -/

namespace WalStore

variable {s : WalStore} {v : View}

theorem begin_untouched (s : WalStore) (now : Tick) (deadline : Deadline) :
    Untouched s (s.begin now deadline) := by
  unfold begin append
  split
  · exact .error s _
  · split
    · exact .error s _
    · split
      · exact .error s _
      · refine .attempt fun next _ => ?_
        dsimp only
        split
        · exact .ok s _ _
        · exact .error s _

theorem mutate_untouched (s : WalStore) (transaction : TransactionId) (now : Tick) (m : Mutation) :
    Untouched s (m.run s transaction now) := by
  rw [run_mutation]
  unfold perform
  refine .attempt fun _ _ => .attempt fun working _ => .attempt fun a _ => ?_
  split
  · exact .ok s _ _
  · exact .error s _

theorem commit_untouched (hf : s.fault = .none) (transaction : TransactionId) (now : Tick)
    (durability : Durability) : Untouched s (s.commit transaction now durability) := by
  unfold commit
  refine .attempt fun _ _ => .attempt fun working _ => .attempt fun generation _ => ?_
  refine .attempt fun d _ => ?_
  rcases s.publish_cases { working.state with generation := generation } d with
    ⟨hf', -⟩ | hp | ⟨-, hp⟩ | ⟨hf', -⟩ | ⟨hf', -⟩
  · cases hf.symm.trans hf'
  · intro e _
    rw [hp, ← hf]
  · rw [hp]
    exact .ok s _ _
  · cases hf.symm.trans hf'
  · cases hf.symm.trans hf'

theorem abort_untouched (s : WalStore) (transaction : TransactionId) :
    Untouched s (s.abort transaction) := by
  unfold abort
  refine .attempt fun current _ => ?_
  split
  · exact .error s _
  · exact .ok s _ _

theorem cancel_untouched (s : WalStore) (transaction : TransactionId) :
    Untouched s (s.cancel transaction) := by
  unfold cancel
  refine .attempt fun current _ => ?_
  split
  · exact .error s _
  · exact .ok s _ _

theorem snapshot_untouched (s : WalStore) : Untouched s s.snapshot := by
  unfold snapshot
  rcases s.snapshots.capture_cases s.base with ⟨e, -, hc⟩ | ⟨i, -, hc⟩
  · rw [hc]
    exact .error s _
  · rw [hc]
    exact .ok s _ _

end WalStore

/-! ## 3. Either store -/

/-- The operations of a transaction, and `snapshot`. -/
def Call.operates : Call → Bool
  | .begin _ _ | .mutate _ _ _ | .commit _ _ _ | .abort _ | .cancel _ | .snapshot => true
  | _ => false

section Untouched

variable {variant : VariantId} {s : Store variant} {v : View}

theorem Shows.mutate_untouched (h : Shows s v) (transaction : TransactionId) (now : Tick)
    (m : Mutation) : Untouched s (m.run s transaction now) := by
  cases variant with
  | cow => exact CowStore.Rep.mutate_untouched h.rep h.sound transaction now m
  | wal => exact WalStore.mutate_untouched s transaction now m

theorem commit_untouched (hf : Parts.fault s = .none) (transaction : TransactionId) (now : Tick)
    (durability : Durability) :
    Untouched s (TransactionalStore.commit s transaction now durability) := by
  cases variant with
  | cow => exact CowStore.commit_untouched hf transaction now durability
  | wal => exact WalStore.commit_untouched hf transaction now durability

/-- **An operation that fails changes nothing.** -/
theorem Shows.untouched (h : Shows s v) (hf : Parts.fault s = .none) {c : Call}
    (hc : c.operates = true) {e : Error} (he : (c.run s).1.seen.error? = some e) :
    (c.run s).2 = s := by
  -- the error that is seen is the error that was returned
  have hseen : ∀ {α : Type} (f : Except Error α → Seen), (∀ a, (f (.ok a)).error? = none) →
      ∀ r : Except Error α × Store variant, Untouched s r → (f r.1).error? = some e → r.2 = s := by
    intro α f hok r hr he'
    cases hr1 : r.1 with
    | error e' => exact hr e' hr1
    | ok a =>
      rw [hr1, hok] at he'
      cases he'
  cases c with
  | begin now deadline =>
    refine hseen .transaction (fun _ => rfl) (TransactionalStore.begin s now deadline) ?_ he
    cases variant with
    | cow => exact CowStore.begin_untouched s now deadline
    | wal => exact WalStore.begin_untouched s now deadline
  | mutate transaction now m =>
    exact hseen .mutated (fun _ => rfl) (m.run s transaction now)
      (h.mutate_untouched transaction now m) he
  | commit transaction now durability =>
    exact hseen (fun r => (Reply.receipt r).seen) (fun _ => rfl)
      (TransactionalStore.commit s transaction now durability)
      (commit_untouched hf transaction now durability) he
  | abort transaction =>
    refine hseen .done (fun _ => rfl) (TransactionalStore.abort s transaction) ?_ he
    cases variant with
    | cow => exact CowStore.abort_untouched s transaction
    | wal => exact WalStore.abort_untouched s transaction
  | cancel transaction =>
    refine hseen .done (fun _ => rfl) (TransactionalStore.cancel s transaction) ?_ he
    cases variant with
    | cow => exact CowStore.cancel_untouched s transaction
    | wal => exact WalStore.cancel_untouched s transaction
  | snapshot =>
    refine hseen .snapshot (fun _ => rfl) (TransactionalStore.snapshot s) ?_ he
    cases variant with
    | cow => exact CowStore.snapshot_untouched s
    | wal => exact WalStore.snapshot_untouched s
  | _ => cases hc

end Untouched

/-! ## 4. Transactions that have ended -/

/-- The call takes the transaction. -/
def Call.takes (transaction : TransactionId) : Call → Prop
  | .mutate t _ _ | .commit t _ _ | .abort t | .cancel t => t = transaction
  | _ => False

/-- The transaction was begun, and is not the working one. -/
structure View.Ended (v : View) (transaction : TransactionId) : Prop where
  begun : transaction.nonce < v.nextTransaction
  idle : ∀ w, v.active = some w → w.id ≠ transaction

section Ended

variable {variant : VariantId} {v v' : View} {c : Call} {seen : Seen} {transaction : TransactionId}

/-- Nonces are counted up. -/
theorem Changed.nextTransaction_le (h : Changed v c seen v') :
    v.nextTransaction ≤ v'.nextTransaction := by
  cases h with
  | began => exact Nat.le_succ _
  | _ => exact Nat.le_refl _

/-- **A transaction that has ended does not come back.** -/
theorem Changed.ended (h : Changed v c seen v') (he : v.Ended transaction) :
    v'.Ended transaction := by
  refine ⟨Nat.lt_of_lt_of_le he.begun h.nextTransaction_le, ?_⟩
  intro w hw
  cases h with
  | began now deadline ha hd =>
    cases hw
    intro heq
    have hbegun := he.begun
    rw [← heq] at hbegun
    exact absurd hbegun (Nat.lt_irrefl _)
  | edited now m r w' state ha hm hedit =>
    cases hw
    exact he.idle w' ha
  | published => cases hw
  | interrupted => cases hw
  | aborted => cases hw
  | cancelled w' ha =>
    cases hw
    exact he.idle w' ha
  | recovered => cases hw
  | _ => exact he.idle w hw

theorem View.Ended.check (h : v.Ended transaction) (now : Tick) :
    ∃ e, v.check transaction now = .error e := by
  rcases v.check_cases transaction now with ⟨e, -, hc⟩ | ⟨w, ha, hid, -⟩
  · exact ⟨e, hc⟩
  · exact absurd hid (h.idle w ha)

theorem View.Ended.mutate (h : v.Ended transaction) (now : Tick) (m : Mutation) :
    ∃ e, (v.mutate transaction now m).1 = .error e := by
  obtain ⟨e, hcheck⟩ := h.check now
  unfold View.mutate
  rw [hcheck]
  exact ⟨e, rfl⟩

theorem View.Ended.commit (h : v.Ended transaction) (variant : VariantId) (now : Tick)
    (durability : Durability) :
    ∃ e, (v.commit variant transaction now durability).1 = .error e := by
  obtain ⟨e, hcheck⟩ := h.check now
  unfold View.commit
  rw [hcheck]
  exact ⟨e, rfl⟩

theorem View.Ended.abort (h : v.Ended transaction) : ∃ e, (v.abort transaction).1 = .error e := by
  unfold View.abort
  cases ha : v.active with
  | none => exact ⟨_, rfl⟩
  | some w =>
    rw [okOr_some, attempt_ok, if_pos (h.idle w ha)]
    exact ⟨_, rfl⟩

theorem View.Ended.cancel (h : v.Ended transaction) : ∃ e, (v.cancel transaction).1 = .error e := by
  unfold View.cancel
  cases ha : v.active with
  | none => exact ⟨_, rfl⟩
  | some w =>
    rw [okOr_some, attempt_ok, if_pos (h.idle w ha)]
    exact ⟨_, rfl⟩

/-- **Whatever takes it is rejected.** -/
theorem Moves.rejected (h : Moves variant v c seen v') (he : v.Ended transaction)
    (hc : c.takes transaction) : ∃ e, seen.error? = some e := by
  cases h with
  | ideal =>
    cases c with
    | mutate t now m =>
      obtain rfl : t = transaction := hc
      obtain ⟨e, herror⟩ := he.mutate now m
      exact ⟨e, congrArg (fun r => (Seen.mutated r).error?) herror⟩
    | commit t now durability =>
      obtain rfl : t = transaction := hc
      obtain ⟨e, herror⟩ := he.commit variant now durability
      exact ⟨e, congrArg (fun r => (Seen.receipt r).error?) herror⟩
    | abort t =>
      obtain rfl : t = transaction := hc
      obtain ⟨e, herror⟩ := he.abort
      exact ⟨e, congrArg (fun r => (Seen.done r).error?) herror⟩
    | cancel t =>
      obtain rfl : t = transaction := hc
      obtain ⟨e, herror⟩ := he.cancel
      exact ⟨e, congrArg (fun r => (Seen.done r).error?) herror⟩
    | _ => exact hc.elim
  | full => exact ⟨_, rfl⟩
  | commitFull => exact ⟨_, rfl⟩
  | untrusted t now durability hw ht state hp hi =>
    rw [hi]
    exact ⟨_, rfl⟩
  | _ => exact hc.elim

end Ended

/-- The call ends the working transaction: it commits it, interrupts it, aborts it or drops it. -/
def Call.Ends (reply : Reply) : Call → Prop
  | .commit _ _ _ => (∃ receipt, reply = .receipt (.ok receipt)) ∨
      ∃ fault, reply = .receipt (.error (.interrupted fault))
  | .abort _ => reply = .done (.ok ())
  | .recover => True
  | _ => False

theorem Shows.ends {variant : VariantId} {s : Store variant} {v : View} (h : Shows s v) {c : Call}
    (hc : c.Ends (c.run s).1) : Parts.active (c.run s).2 = none := by
  obtain ⟨v', hv', hmove⟩ := h.step c
  have hchanged := hmove.changed h.sound
  rw [hv'.active]
  cases c with
  | commit transaction now durability =>
    rcases hc with ⟨receipt, hreply⟩ | ⟨fault, hreply⟩
    · rw [hreply] at hchanged
      obtain ⟨w, -, -, rfl⟩ := hchanged.of_published
      rfl
    · rw [hreply] at hchanged
      obtain ⟨w, pending, -, -, -, -, rfl⟩ := hchanged.of_interrupted
      rfl
  | abort transaction =>
    have hreply : ((Call.abort transaction).run s).1 = .done (.ok ()) := hc
    rw [hreply] at hchanged
    generalize hseen : (Reply.done (.ok ())).seen = seen at hchanged
    cases hchanged with
    | refused _ _ e he =>
      rw [← hseen] at he
      cases he
    | looked _ _ hl => cases hl
    | aborted => rfl
  | recover =>
    rw [hmove.recover_eq.1]
    rfl
  | _ => exact hc.elim

/-- The transaction was the working one of the first store, and is not that of the second. -/
def Ended {variant : VariantId} (s s' : Store variant) (transaction : TransactionId) : Prop :=
  (∃ w, Parts.active s = some w ∧ w.id = transaction) ∧
    ∀ w, Parts.active s' = some w → w.id ≠ transaction

/-- **Operations that fail change nothing, and transactions that have ended are rejected.** -/
theorem failures_change_nothing {variant : VariantId} {config : Config} {s₀ : Store variant}
    (hnew : TransactionalStore.new config = .ok s₀) (calls : List Call) :
    (Parts.fault (runCalls s₀ calls) = .none → ∀ (c : Call) e, c.operates = true →
        (c.run (runCalls s₀ calls)).1.seen.error? = some e →
        (c.run (runCalls s₀ calls)).2 = runCalls s₀ calls) ∧
      (∀ c : Call, c.Ends (c.run (runCalls s₀ calls)).1 →
        Parts.active (c.run (runCalls s₀ calls)).2 = none) ∧
      ∀ pre mid post transaction, calls = pre ++ mid ++ post →
        Ended (runCalls s₀ pre) (runCalls s₀ (pre ++ mid)) transaction →
        ∀ c : Call, c.takes transaction →
          ∃ e, (c.run (runCalls s₀ calls)).1.seen.error? = some e := by
  refine ⟨?_, ?_, ?_⟩
  · intro hf c e hc he
    obtain ⟨v, hv⟩ := (shows_new hnew).reach calls
    exact hv.untouched hf hc he
  · intro c hc
    obtain ⟨v, hv⟩ := (shows_new hnew).reach calls
    exact hv.ends hc
  · rintro pre mid post transaction rfl ⟨⟨w, hw, hid⟩, hidle⟩ c hc
    obtain ⟨v, hv⟩ := (shows_new hnew).reach pre
    -- the nonce stays below the counter while the transaction lasts
    obtain ⟨-, -, -, -, hnonce⟩ := hv.sound.active w (hv.active.symm.trans hw)
    rw [hid] at hnonce
    obtain ⟨u, hu, hbegun⟩ := hv.run (P := fun _ u => transaction.nonce < u.nextTransaction) hnonce mid
      fun _ _ _ _ _ _ hu' hP hmove =>
        Nat.lt_of_lt_of_le hP (hmove.changed hu'.sound).nextTransaction_le
    rw [runCalls_append] at hidle ⊢
    rw [runCalls_append]
    have hended : u.Ended transaction := ⟨hbegun, fun w' hw' => hidle w' (hu.active.trans hw')⟩
    obtain ⟨u', hu', hended'⟩ := hu.run (P := fun _ u => u.Ended transaction) hended post
      fun _ _ _ _ _ _ hv' hP hmove => (hmove.changed hv'.sound).ended hP
    obtain ⟨v', -, hmove⟩ := hu'.step c
    exact hmove.rejected hended' hc

theorem failures_change_nothing_roomy :
    ∃ s₀ : Store .wal, TransactionalStore.new roomy = .ok s₀ ∧
      ((Call.abort ⟨1, 0⟩).run (runCalls s₀ [.begin 0 9])).1.seen.error? = none ∧
      ∃ e, ((Call.abort ⟨1, 0⟩).run (runCalls s₀ ([.begin 0 9] ++ [.abort ⟨1, 0⟩] ++ [.begin 0 9]))
        ).1.seen.error? = some e := by
  obtain ⟨s₀, hnew⟩ := exists_new .wal roomy
  refine ⟨s₀, hnew, ?_, ?_⟩
  · cases hnew
    rfl
  · refine (failures_change_nothing hnew _).2.2 [.begin 0 9] [.abort ⟨1, 0⟩] [.begin 0 9] ⟨1, 0⟩ rfl
      ⟨?_, ?_⟩ (.abort ⟨1, 0⟩) rfl
    · cases hnew
      exact ⟨_, rfl, rfl⟩
    · cases hnew
      nofun

end AegisShield.Storage
