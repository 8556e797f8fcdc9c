/-
# Commits, faults and recovery

A commit takes effect as a whole or not at all, whatever fault was injected into it
(`commit_all_or_nothing`).  `recover` always succeeds, never goes back, and does nothing the second
time (`recover_idempotent`).  A commit that got its receipt is installed by the next `recover`
unless a later commit or `gc` of the copy-on-write store has taken its bank
(`interrupted_commit_kept`).
-/
import AegisShield.Storage.Runs

namespace AegisShield.Storage

open Lib

variable {variant : VariantId} {config : Config}

/-! ## 1. All or nothing -/

/-- `read`, `lookup` and `generation` report the same of both stores. -/
structure SameReports (s s' : Store variant) : Prop where
  read : ∀ handle offset output, TransactionalStore.read s' handle offset output =
    TransactionalStore.read s handle offset output
  lookup : ∀ name, TransactionalStore.lookup s' name = TransactionalStore.lookup s name
  generation : TransactionalStore.generation s' = TransactionalStore.generation s

theorem SameReports.of_committed {s s' : Store variant}
    (h : Parts.committed s' = Parts.committed s) : SameReports s s' where
  read handle offset output := by rw [read_eq, read_eq, h]
  lookup name := by rw [lookup_eq, lookup_eq, h]
  generation := by rw [generation_eq, generation_eq, h]

/-- **A commit takes effect as a whole or not at all**, at once or at the `recover` called next. -/
structure AllOrNothing (s : Store variant) (w : WorkingTransaction) (transaction : TransactionId)
    (now : Tick) (durability : Durability) : Prop where
  undone : ∀ fault, fault = .beforeCommitReceipt ∨ fault = .corruptCommitReceipt →
    (TransactionalStore.commit s transaction now durability).1 = .error (.interrupted fault) →
    Parts.committed (TransactionalStore.recover
      (TransactionalStore.commit s transaction now durability).2).2 = Parts.committed s
  redone : (TransactionalStore.commit s transaction now durability).1 =
      .error (.interrupted .afterCommitReceipt) →
    Parts.committed (TransactionalStore.recover
      (TransactionalStore.commit s transaction now durability).2).2 =
      { w.state with generation := transaction.baseGeneration + 1 }
  done : ∀ receipt, (TransactionalStore.commit s transaction now durability).1 = .ok receipt →
    Parts.committed (TransactionalStore.commit s transaction now durability).2 =
      { w.state with generation := transaction.baseGeneration + 1 }

section Commit

variable {s : Store variant} {v : View} {w : WorkingTransaction}

/-- The candidate of the working transaction. -/
theorem Shows.candidate (h : Shows s v) (ha : v.active = some w) :
    v.candidate w = { w.state with generation := w.id.baseGeneration + 1 } := by
  obtain ⟨-, -, -, hbase, -⟩ := h.sound.active w ha
  unfold View.candidate
  rw [hbase]

/-- `recover` installs what the view says. -/
theorem Shows.recover (h : Shows s v) : Shows (TransactionalStore.recover s).2 v.recover := by
  obtain ⟨v', hv', hmove⟩ := h.step .recover
  rw [hmove.recover_eq.1] at hv'
  exact hv'

/-- What a commit that was interrupted has left. -/
theorem Shows.interrupted (h : Shows s v) {transaction : TransactionId} {now : Tick}
    {durability : Durability} {fault : FaultPoint}
    (hi : (TransactionalStore.commit s transaction now durability).1 =
      .error (.interrupted fault)) :
    ∃ w pending, v.active = some w ∧ w.id = transaction ∧ fault = v.fault ∧ v.Leaves w pending ∧
      Shows (TransactionalStore.commit s transaction now durability).2
        { v with pending := pending, active := none, fault := .none } := by
  obtain ⟨v', hv', hmove⟩ := h.step (.commit transaction now durability)
  have hchanged := hmove.changed h.sound
  have hseen : ((Call.commit transaction now durability).run s).1.seen =
      .receipt (.error (.interrupted fault)) := congrArg (fun r => (Reply.receipt r).seen) hi
  rw [hseen] at hchanged
  obtain ⟨w, pending, ha, hid, hf, hleaves, rfl⟩ := hchanged.of_interrupted
  exact ⟨w, pending, ha, hid, hf, hleaves, hv'⟩

/-- What a commit that succeeded has published. -/
theorem Shows.published (h : Shows s v) {transaction : TransactionId} {now : Tick}
    {durability : Durability} {receipt : CommitReceipt}
    (hok : (TransactionalStore.commit s transaction now durability).1 = .ok receipt) :
    ∃ w, v.active = some w ∧ w.id = transaction ∧
      Shows (TransactionalStore.commit s transaction now durability).2
        { v with committed := v.candidate w, pending := .nothing, active := none } := by
  obtain ⟨v', hv', hmove⟩ := h.step (.commit transaction now durability)
  have hchanged := hmove.changed h.sound
  have hseen : ((Call.commit transaction now durability).run s).1.seen =
      .receipt (.ok (receipt.generation, receipt.stateChecksum)) :=
    congrArg (fun r => (Reply.receipt r).seen) hok
  rw [hseen] at hchanged
  obtain ⟨w, ha, hid, rfl⟩ := hchanged.of_published
  exact ⟨w, ha, hid, hv'⟩

theorem Shows.all_or_nothing (h : Shows s v) (ht : v.tampered = false)
    (hw : Parts.active s = some w) (transaction : TransactionId) (now : Tick)
    (durability : Durability) : AllOrNothing s w transaction now durability where
  undone fault hfault hi := by
    obtain ⟨w', pending, -, -, hf, hleaves, hs'⟩ := h.interrupted hi
    rw [hs'.recover.committed, h.committed]
    unfold View.Leaves at hleaves
    rw [← hf] at hleaves
    rcases hfault with rfl | rfl
    · cases hleaves
      rfl
    · cases hleaves
      rfl
  redone hi := by
    obtain ⟨w', pending, ha, hid, hf, hleaves, hs'⟩ := h.interrupted hi
    obtain rfl : w' = w := Option.some.inj (ha.symm.trans (h.active.symm.trans hw))
    rw [hs'.recover.committed, ← hid, ← h.candidate ha]
    unfold View.Leaves at hleaves
    rw [← hf] at hleaves
    obtain ⟨valid, rfl, rfl | htampered⟩ := hleaves
    · rfl
    · rw [ht] at htampered
      cases htampered
  done receipt hok := by
    obtain ⟨w', ha, hid, hs'⟩ := h.published hok
    obtain rfl : w' = w := Option.some.inj (ha.symm.trans (h.active.symm.trans hw))
    rw [hs'.committed, ← hid, ← h.candidate ha]

/-- Nothing but `recover` and a commit that succeeds changes what is reported. -/
theorem Shows.same_reports (h : Shows s v) {c : Call} (hc : c ≠ .recover)
    (hok : ∀ receipt, (c.run s).1 ≠ .receipt (.ok receipt)) : SameReports s (c.run s).2 := by
  obtain ⟨v', hv', hmove⟩ := h.step c
  refine SameReports.of_committed ?_
  rw [hv'.committed, h.committed]
  refine (hmove.changed h.sound).committed_eq hc ?_
  intro r hr
  obtain ⟨receipt, hreceipt⟩ := Reply.seen_receipt_ok hr
  exact hok receipt hreceipt

end Commit

/-- The view has no receipt that `recover` would accept. -/
def View.Unreceipted (v : View) : Prop := ∀ state, v.pending ≠ .receipted state true

theorem View.Unreceipted.installed {v : View} (h : v.Unreceipted) :
    v.pending.installed v.committed = v.committed := by
  cases hp : v.pending with
  | nothing => rfl
  | torn => rfl
  | receipted state valid =>
    cases valid with
    | true => exact absurd hp (h state)
    | false => rfl

/-- A receipt comes from a commit that was interrupted after it. -/
theorem Changed.unreceipted {v v' : View} {c : Call} {seen : Seen} (h : Changed v c seen v')
    (hp : v.Unreceipted) (hc : c ≠ .corruptPendingMetadata)
    (hi : seen ≠ .receipt (.error (.interrupted .afterCommitReceipt))) : v'.Unreceipted := by
  intro state hstate
  cases h with
  | refused _ _ e he hi hv => exact hp state hstate
  | looked _ _ h => exact hp state hstate
  | published now durability w ha hf => cases hstate
  | interrupted now durability w ha pending hleaves =>
    obtain rfl : pending = .receipted state true := hstate
    unfold View.Leaves at hleaves
    cases hf : v.fault with
    | none =>
      rw [hf] at hleaves
      exact hleaves
    | beforeCommitReceipt =>
      rw [hf] at hleaves
      cases hleaves
    | afterCommitReceipt => exact hi (by rw [hf])
    | corruptCommitReceipt =>
      rw [hf] at hleaves
      cases hleaves
  | collected retainFrom pending hcollected =>
    obtain rfl : pending = .receipted state true := hstate
    rcases hcollected with heq | ⟨heq, -⟩
    · exact hp state heq.symm
    · cases heq
  | corrupted r pending hr hres => exact hc rfl
  | recovered => cases hstate
  | _ => exact hp state hstate

/-- Since the store was new or last recovered, no commit was interrupted after its receipt. -/
structure Settled (s₀ : Store variant) (calls : List Call) (pre post : List Call) : Prop where
  split : calls = pre ++ post
  since : pre = [] ∨ ∃ init, pre = init ++ [.recover]
  none : Reply.receipt (.error (.interrupted .afterCommitReceipt)) ∉ replies (runCalls s₀ pre) post

theorem replies_mem {s : Store variant} {pre post : List Call} {c : Call} :
    (c.run (runCalls s pre)).1 ∈ replies s (pre ++ c :: post) := by
  rw [replies_append]
  exact List.mem_append_right _ List.mem_cons_self

theorem Settled.unreceipted {s₀ : Store variant} (hnew : TransactionalStore.new config = .ok s₀)
    {calls pre post : List Call} (h : Settled s₀ calls pre post)
    (hno : Call.corruptPendingMetadata ∉ calls) :
    ∃ v, Shows (runCalls s₀ calls) v ∧ v.Unreceipted := by
  obtain ⟨rfl, hsince, hnone⟩ := h
  have hstart : ∃ v, Shows (runCalls s₀ pre) v ∧ v.Unreceipted := by
    rcases hsince with rfl | ⟨init, rfl⟩
    · exact ⟨_, shows_new hnew, nofun⟩
    · obtain ⟨v, hv⟩ := (shows_new hnew).reach init
      rw [runCalls_append]
      exact ⟨_, hv.recover, nofun⟩
  obtain ⟨v, hv, hunreceipted⟩ := hstart
  rw [runCalls_append]
  refine hv.run (P := fun _ u => u.Unreceipted) hunreceipted post ?_
  intro init c rest hpost u u' hu hP hmove
  refine (hmove.changed hu.sound).unreceipted hP ?_ ?_
  · rintro rfl
    refine hno (List.mem_append_right pre ?_)
    rw [hpost]
    exact List.mem_append_right init List.mem_cons_self
  · intro hseen
    refine hnone ?_
    have hreply : (c.run (runCalls (runCalls s₀ pre) init)).1 =
        .receipt (.error (.interrupted .afterCommitReceipt)) := Reply.seen_interrupted hseen
    rw [hpost, ← hreply]
    exact replies_mem

/-- **Commits are all or nothing.** -/
theorem commit_all_or_nothing {s₀ : Store variant} (hnew : TransactionalStore.new config = .ok s₀)
    (calls : List Call) (hno : Call.corruptPendingMetadata ∉ calls) :
    (∀ w transaction now durability, Parts.active (runCalls s₀ calls) = some w →
        AllOrNothing (runCalls s₀ calls) w transaction now durability) ∧
      (∀ c : Call, c ≠ .recover → (∀ receipt, (c.run (runCalls s₀ calls)).1 ≠ .receipt (.ok receipt)) →
        SameReports (runCalls s₀ calls) (c.run (runCalls s₀ calls)).2) ∧
      ∀ pre post, Settled s₀ calls pre post →
        SameReports (runCalls s₀ calls) (TransactionalStore.recover (runCalls s₀ calls)).2 := by
  obtain ⟨v, hv, ht⟩ := (shows_new hnew).untampered rfl calls hno
  refine ⟨?_, ?_, ?_⟩
  · intro w transaction now durability hw
    exact hv.all_or_nothing ht hw transaction now durability
  · intro c hc hok
    exact hv.same_reports hc hok
  · intro pre post hsettled
    obtain ⟨u, hu, hunreceipted⟩ := hsettled.unreceipted hnew hno
    refine SameReports.of_committed ?_
    rw [hu.recover.committed, hu.committed]
    exact hunreceipted.installed

/-- A transaction that creates an object, with a fault after the receipt of its commit. -/
def createThenFault : List Call :=
  [.begin 0 9, .mutate ⟨1, 0⟩ 0 .create, .injectFault .afterCommitReceipt]

/-- Its working transaction. -/
def createdTransaction : WorkingTransaction := ⟨⟨1, 0⟩, 9, false, StoreState.empty.create.2⟩

theorem commit_all_or_nothing_created :
    ∃ s₀ : Store .wal, TransactionalStore.new roomy = .ok s₀ ∧
      Call.corruptPendingMetadata ∉ createThenFault ∧
      Parts.active (runCalls s₀ createThenFault) = some createdTransaction ∧
      AllOrNothing (runCalls s₀ createThenFault) createdTransaction ⟨1, 0⟩ 0 .memoryOnly := by
  obtain ⟨s₀, hnew⟩ := exists_new .wal roomy
  have hno : Call.corruptPendingMetadata ∉ createThenFault := by
    unfold createThenFault
    simp
  have hactive : Parts.active (runCalls s₀ createThenFault) = some createdTransaction := by
    cases hnew
    rfl
  exact ⟨s₀, hnew, hno, hactive, (commit_all_or_nothing hnew createThenFault hno).1 _ _ _ _ hactive⟩

/-! ## 2. Recovery -/

/-- A commit of the run was interrupted while it published the state, and the store was not
recovered since. -/
def Interrupted (s₀ : Store variant) (calls : List Call) (state : StoreState) : Prop :=
  ∃ pre post transaction now durability w fault,
    calls = pre ++ .commit transaction now durability :: post ∧ Call.recover ∉ post ∧
    Parts.active (runCalls s₀ pre) = some w ∧
    (TransactionalStore.commit (runCalls s₀ pre) transaction now durability).1 =
      .error (.interrupted fault) ∧
    state = { w.state with generation := transaction.baseGeneration + 1 }

theorem Interrupted.append {s₀ : Store variant} {calls : List Call} {state : StoreState}
    (h : Interrupted s₀ calls state) {c : Call} (hc : c ≠ .recover) :
    Interrupted s₀ (calls ++ [c]) state := by
  obtain ⟨pre, post, transaction, now, durability, w, fault, rfl, hno, hw, hi, hstate⟩ := h
  refine ⟨pre, post ++ [c], transaction, now, durability, w, fault, ?_, ?_, hw, hi, hstate⟩
  · rw [List.append_assoc, List.cons_append]
  · intro hmem
    rcases List.mem_append.mp hmem with hmem | hmem
    · exact hno hmem
    · exact hc (List.mem_singleton.mp hmem).symm

/-- What is pending was pending before the call, or is what the call was publishing. -/
theorem Changed.pending_origin {v v' : View} {c : Call} {seen : Seen} (h : Changed v c seen v')
    {state : StoreState} {valid : Bool} (hp : v'.pending = .receipted state valid) :
    (∃ valid', v.pending = .receipted state valid') ∨
      ∃ w now durability, v.active = some w ∧ c = .commit w.id now durability ∧
        seen = .receipt (.error (.interrupted v.fault)) ∧ state = v.candidate w := by
  cases h with
  | published now durability w ha hf => cases hp
  | interrupted now durability w ha pending hleaves =>
    exact Or.inr ⟨w, now, durability, ha, rfl, rfl, hleaves.receipted hp⟩
  | collected retainFrom pending hcollected =>
    rcases hcollected with rfl | ⟨rfl, -⟩
    · exact Or.inl ⟨valid, hp⟩
    · cases hp
  | corrupted r pending hr hres => exact Or.inl (hr.receipted hp)
  | recovered => cases hp
  | _ => exact Or.inl ⟨valid, hp⟩

/-- **What is pending was left by an interrupted commit of the run.** -/
theorem pending_interrupted {s₀ : Store variant} (hnew : TransactionalStore.new config = .ok s₀)
    (calls : List Call) :
    ∃ v, Shows (runCalls s₀ calls) v ∧
      ∀ state valid, v.pending = .receipted state valid → Interrupted s₀ calls state := by
  refine (shows_new hnew).run (P := fun pre u =>
    ∀ state valid, u.pending = .receipted state valid → Interrupted s₀ pre state) nofun calls ?_
  intro pre c post hcalls u u' hu hP hmove state valid hp
  have hc : c ≠ .recover := by
    rintro rfl
    rw [hmove.recover_eq.1] at hp
    cases hp
  rcases (hmove.changed hu.sound).pending_origin hp with
    ⟨valid', hp'⟩ | ⟨w, now, durability, ha, rfl, hseen, rfl⟩
  · exact (hP state valid' hp').append hc
  · have hreply := Reply.seen_interrupted hseen
    refine ⟨pre, [], w.id, now, durability, w, u.fault, rfl, nofun, hu.active.trans ha,
      Reply.receipt.inj hreply, hu.candidate ha⟩

/-- `recover` succeeds and selects the generation it installs. -/
theorem recover_ok {s : Store variant} {v : View} (h : Shows s v) :
    ∃ report, (TransactionalStore.recover s).1 = .ok report ∧
      report.selectedGeneration = v.recover.committed.generation := by
  obtain ⟨v', -, hmove⟩ := h.step .recover
  have hseen : Seen.recovered ((TransactionalStore.recover s).1.map fun r => r.selectedGeneration) =
      .recovered (.ok v.recover.committed.generation) := hmove.recover_eq.2
  obtain ⟨report, hreport, hgeneration⟩ := map_eq_ok (Seen.recovered.inj hseen)
  exact ⟨report, hreport, hgeneration⟩

/-- **Recovery is total, goes forward by at most one generation, and is idempotent.** -/
theorem recover_idempotent {s₀ : Store variant} (hnew : TransactionalStore.new config = .ok s₀)
    (calls : List Call) :
    ∃ report, (TransactionalStore.recover (runCalls s₀ calls)).1 = .ok report ∧
      ((report.selectedGeneration = TransactionalStore.generation (runCalls s₀ calls) ∧
          Parts.committed (TransactionalStore.recover (runCalls s₀ calls)).2 =
            Parts.committed (runCalls s₀ calls)) ∨
        (report.selectedGeneration = TransactionalStore.generation (runCalls s₀ calls) + 1 ∧
          Interrupted s₀ calls
            (Parts.committed (TransactionalStore.recover (runCalls s₀ calls)).2))) ∧
      TransactionalStore.generation (TransactionalStore.recover (runCalls s₀ calls)).2 =
        report.selectedGeneration ∧
      Parts.snapshots (TransactionalStore.recover (runCalls s₀ calls)).2 =
        Parts.snapshots (runCalls s₀ calls) ∧
      TransactionalStore.recover (TransactionalStore.recover (runCalls s₀ calls)).2 =
        (.ok ⟨report.selectedGeneration, false, 0, false⟩,
          (TransactionalStore.recover (runCalls s₀ calls)).2) := by
  obtain ⟨v, hv, horigin⟩ := pending_interrupted hnew calls
  obtain ⟨report, hreport, hgeneration⟩ := recover_ok hv
  have hafter := hv.recover
  refine ⟨report, hreport, ?_, ?_, ?_, ?_⟩
  · rw [generation_eq, hv.committed, hafter.committed, hgeneration]
    cases hp : v.pending with
    | nothing => exact Or.inl (by unfold View.recover; rw [hp]; exact ⟨rfl, rfl⟩)
    | torn => exact Or.inl (by unfold View.recover; rw [hp]; exact ⟨rfl, rfl⟩)
    | receipted state valid =>
      unfold View.recover
      rw [hp]
      -- a receipt that verifies is the one the interrupted commit wrote
      cases valid with
      | true => exact Or.inr ⟨(hv.sound.pending state true hp).2.2, horigin state true hp⟩
      | false => exact Or.inl ⟨rfl, rfl⟩
  · rw [generation_eq, hafter.committed, hgeneration]
  · rw [hafter.snapshots, hv.snapshots]
    rfl
  · rw [hgeneration]
    exact hafter.recover_quiet rfl rfl rfl

theorem recover_idempotent_corrupted :
    ∃ s₀ : Store .cow, TransactionalStore.new roomy = .ok s₀ ∧
      ∃ report, (TransactionalStore.recover (runCalls s₀ (createThenFault ++
        [.commit ⟨1, 0⟩ 0 .memoryOnly, .corruptPendingMetadata]))).1 = .ok report := by
  obtain ⟨s₀, hnew⟩ := exists_new .cow roomy
  obtain ⟨report, hreport, -⟩ := recover_idempotent hnew
    (createThenFault ++ [.commit ⟨1, 0⟩ 0 .memoryOnly, .corruptPendingMetadata])
  exact ⟨s₀, hnew, report, hreport⟩

/-! ## 3. A receipt is kept -/

/-- A commit gets past its checks: the transaction, the generation and the durability. -/
def CommitPasses (variant : VariantId) (active : Option WorkingTransaction)
    (transaction : TransactionId) (now : Tick) (durability : Durability) : Prop :=
  ∃ w generation d, active = some w ∧ w.check transaction now = .ok () ∧
    nextGeneration transaction.baseGeneration = .ok generation ∧
    validateDurability durability variant transaction generation
      { w.state with generation := generation }.checksum = .ok d

/-- The call takes the bank in which the commit of a generation is pending: it is a commit that gets
past its checks, or a `gc` that retains only later generations. -/
def Call.Overwrites (variant : VariantId) (active : Option WorkingTransaction)
    (pending : Generation) : Call → Prop
  | .commit transaction now durability => CommitPasses variant active transaction now durability
  | .gc retainFrom => pending < retainFrom
  | _ => False

section Kept

variable {v v' : View} {c : Call} {seen : Seen} {transaction : TransactionId} {now : Tick}
  {durability : Durability}

theorem View.commit_refused (h : ¬ CommitPasses variant v.active transaction now durability) :
    ∃ e, v.commit variant transaction now durability = (.error e, v) := by
  unfold View.commit View.check
  cases ha : v.active with
  | none => exact ⟨_, rfl⟩
  | some w =>
    show ∃ e, (attempt (w.check transaction now) v fun _ => _) = _
    cases hc : w.check transaction now with
    | error e => exact ⟨e, rfl⟩
    | ok u =>
      rw [attempt_ok, okOr_some, attempt_ok]
      cases hg : nextGeneration transaction.baseGeneration with
      | error e => exact ⟨e, rfl⟩
      | ok generation =>
        rw [attempt_ok]
        cases hd : validateDurability durability variant transaction generation
          { w.state with generation := generation }.checksum with
        | error e => exact ⟨e, by simp only [hd, attempt_error]⟩
        | ok d => exact absurd ⟨w, generation, d, ha, hc, hg, hd⟩ h

/-- The copy-on-write store commits as the ideal store does. -/
theorem Moves.cow_commit (h : Moves .cow v (.commit transaction now durability) seen v') :
    seen = .receipt (v.commit .cow transaction now durability).1 ∧
      v' = (v.commit .cow transaction now durability).2 := by
  cases h with
  | ideal => exact ⟨rfl, rfl⟩
  | commitFull _ _ _ hw => cases hw
  | untrusted _ _ _ hw => cases hw

/-- The write-ahead-log store asks for `recover` first. -/
theorem Moves.wal_begin {deadline : Deadline} (h : Moves .wal v (.begin now deadline) seen v')
    (ha : v.active = none) (hp : v.pending ≠ .nothing) :
    seen = .transaction (.error .recoveryRequired) := by
  cases h with
  | ideal _ hn => exact absurd rfl (hn rfl ha hp now deadline)
  | recoveryRequired => rfl

/-- Its `gc` does not touch the log. -/
theorem Moves.wal_gc {retainFrom : Generation} (h : Moves .wal v (.gc retainFrom) seen v') :
    v'.pending = v.pending := by
  cases h with
  | ideal => rfl
  | reclaimed _ hw => cases hw

/-- The `gc` of the copy-on-write store drops what is older than it retains. -/
theorem Moves.cow_gc {retainFrom : Generation} (h : Moves .cow v (.gc retainFrom) seen v')
    {state : StoreState} {valid : Bool} (hp : v.pending = .receipted state valid)
    (hg : ¬ state.generation < retainFrom) : v'.pending = v.pending := by
  cases h with
  | ideal => rfl
  | reclaimed _ _ state' valid' hp' hg' =>
    cases hp.symm.trans hp'
    exact absurd hg' hg

/-- A call that leaves what is pending, and what is committed. -/
structure Keeps (v v' : View) : Prop where
  pending : v'.pending = v.pending
  committed : v'.committed = v.committed

/-- Without a transaction, the write-ahead-log store does not touch what is pending. -/
theorem Moves.wal_keeps (hs : v.Sound) (h : Moves .wal v c seen v') (ha : v.active = none)
    (hp : v.pending ≠ .nothing) (hc : c ≠ .recover) (hcorrupt : c ≠ .corruptPendingMetadata) :
    Keeps v v' ∧ v'.active = none ∧
      ∀ transaction now durability r, c = .commit transaction now durability →
        seen ≠ .receipt (.ok r) := by
  have hchanged := h.changed hs
  cases hchanged with
  | refused _ _ e he hi hv =>
    refine ⟨⟨rfl, rfl⟩, ha, ?_⟩
    rintro transaction now durability r - rfl
    cases he
  | looked _ _ hl =>
    refine ⟨⟨rfl, rfl⟩, ha, ?_⟩
    rintro transaction now durability r rfl
    cases hl
  | began now deadline _ hd =>
    -- the log is not empty, so the store has asked for `recover`
    cases h.wal_begin ha hp
  | edited now m r w state ha' hm he => cases ha.symm.trans ha'
  | published now durability w ha' hf => cases ha.symm.trans ha'
  | interrupted now durability w ha' pending hleaves => cases ha.symm.trans ha'
  | disarmed transaction now durability => exact ⟨⟨rfl, rfl⟩, ha, fun _ _ _ _ _ => nofun⟩
  | aborted w ha' => cases ha.symm.trans ha'
  | cancelled w ha' => cases ha.symm.trans ha'
  | captured id set hcap => exact ⟨⟨rfl, rfl⟩, ha, nofun⟩
  | collected retainFrom pending hcol => exact ⟨⟨h.wal_gc, rfl⟩, ha, nofun⟩
  | armed fault => exact ⟨⟨rfl, rfl⟩, ha, nofun⟩
  | corrupted r pending hr hres => exact absurd rfl hcorrupt
  | recovered => exact absurd rfl hc

/-- The copy-on-write store does not, as long as no call takes the bank. -/
theorem Moves.cow_keeps (hs : v.Sound) (h : Moves .cow v c seen v') {state : StoreState}
    {valid : Bool} (hp : v.pending = .receipted state valid) (hc : c ≠ .recover)
    (hcorrupt : c ≠ .corruptPendingMetadata)
    (hsafe : ¬ c.Overwrites .cow v.active state.generation) :
    Keeps v v' ∧ ∀ transaction now durability r, c = .commit transaction now durability →
      seen ≠ .receipt (.ok r) := by
  cases c with
  | commit transaction now durability =>
    obtain ⟨hseen, hv'⟩ := h.cow_commit
    obtain ⟨e, he⟩ := v.commit_refused hsafe
    rw [he] at hseen hv'
    subst hseen hv'
    exact ⟨⟨rfl, rfl⟩, fun _ _ _ _ _ => nofun⟩
  | gc retainFrom =>
    have hcommitted : v'.committed = v.committed := by
      cases h.changed hs <;> rfl
    exact ⟨⟨h.cow_gc hp hsafe, hcommitted⟩, nofun⟩
  | recover => exact absurd rfl hc
  | corruptPendingMetadata => exact absurd rfl hcorrupt
  | _ =>
    refine ⟨?_, nofun⟩
    cases h.changed hs <;> exact ⟨rfl, rfl⟩

end Kept

/-- A state waits for `recover`, with a valid receipt. -/
def Waiting (s : Store variant) (state : StoreState) : Prop :=
  ∃ v, Shows s v ∧ v.pending = .receipted state true ∧ (variant = .wal → v.active = none)

/-- The call does not take the bank of what is pending. -/
def Spares (s : Store variant) (pending : Generation) (c : Call) : Prop :=
  variant = .cow → ¬ c.Overwrites .cow (Parts.active s) pending

theorem Waiting.recover {s : Store variant} {state : StoreState} (h : Waiting s state) :
    Parts.committed (TransactionalStore.recover s).2 = state := by
  obtain ⟨v, hv, hp, -⟩ := h
  rw [hv.recover.committed]
  unfold View.recover
  rw [hp]
  rfl

/-- **One call.** -/
theorem Waiting.step {s : Store variant} {state : StoreState} (h : Waiting s state) {c : Call}
    (hc : c ≠ .recover) (hcorrupt : c ≠ .corruptPendingMetadata)
    (hsafe : Spares s state.generation c) :
    Waiting (c.run s).2 state ∧ ∀ transaction now durability receipt,
      c = .commit transaction now durability → (c.run s).1 ≠ .receipt (.ok receipt) := by
  obtain ⟨v, hv, hp, hwal⟩ := h
  obtain ⟨v', hv', hmove⟩ := hv.step c
  have hkeeps : Keeps v v' ∧ (variant = .wal → v'.active = none) ∧
      ∀ transaction now durability r, c = .commit transaction now durability →
        (c.run s).1.seen ≠ .receipt (.ok r) := by
    cases variant with
    | cow =>
      have hspared := hsafe rfl
      rw [hv.active] at hspared
      obtain ⟨hkeeps, hno⟩ := hmove.cow_keeps hv.sound hp hc hcorrupt hspared
      exact ⟨hkeeps, nofun, hno⟩
    | wal =>
      have hnot : v.pending ≠ .nothing := by
        rw [hp]
        nofun
      obtain ⟨hkeeps, ha, hno⟩ := hmove.wal_keeps hv.sound (hwal rfl) hnot hc hcorrupt
      exact ⟨hkeeps, fun _ => ha, hno⟩
  obtain ⟨hkeeps, ha, hno⟩ := hkeeps
  refine ⟨⟨v', hv', hkeeps.pending.trans hp, ha⟩, ?_⟩
  intro transaction now durability receipt hcommit hok
  refine hno transaction now durability (receipt.generation, receipt.stateChecksum) hcommit ?_
  rw [hok]
  rfl

/-- **Every run.** -/
theorem Waiting.run {state : StoreState} : ∀ {post : List Call} {s : Store variant},
    Waiting s state → Call.recover ∉ post → Call.corruptPendingMetadata ∉ post →
      (∀ init c rest, post = init ++ c :: rest →
        Spares (runCalls s init) state.generation c) → Waiting (runCalls s post) state := by
  intro post
  induction post with
  | nil => exact fun h _ _ _ => h
  | cons c post ih =>
    intro s h hrecover hcorrupt hsafe
    have hc := List.ne_of_not_mem_cons hrecover
    have hc' := List.ne_of_not_mem_cons hcorrupt
    have hstep := h.step (Ne.symm hc) (Ne.symm hc') (hsafe [] c post rfl)
    refine ih hstep.1 (List.not_mem_of_not_mem_cons hrecover)
      (List.not_mem_of_not_mem_cons hcorrupt) ?_
    intro init c' rest hpost
    exact hsafe (c :: init) c' rest (congrArg (c :: ·) hpost)

/-- A commit that was interrupted after its receipt waits for `recover`. -/
theorem Shows.waiting {s : Store variant} {v : View} (h : Shows s v) (ht : v.tampered = false)
    {w : WorkingTransaction} (hw : Parts.active s = some w) {transaction : TransactionId}
    {now : Tick} {durability : Durability}
    (hi : (TransactionalStore.commit s transaction now durability).1 =
      .error (.interrupted .afterCommitReceipt)) :
    Waiting (TransactionalStore.commit s transaction now durability).2
      { w.state with generation := transaction.baseGeneration + 1 } := by
  obtain ⟨w', pending, ha, hid, hf, hleaves, hs'⟩ := h.interrupted hi
  obtain rfl : w' = w := Option.some.inj (ha.symm.trans (h.active.symm.trans hw))
  unfold View.Leaves at hleaves
  rw [← hf] at hleaves
  obtain ⟨valid, rfl, rfl | htampered⟩ := hleaves
  · refine ⟨_, hs', ?_, fun _ => rfl⟩
    rw [← hid, ← h.candidate ha]
  · rw [ht] at htampered
    cases htampered

/-- **A commit interrupted after its receipt is not lost**, if no call takes its bank: the next
`recover` installs it, and until then no commit succeeds. -/
theorem interrupted_commit_kept {s₀ : Store variant}
    (hnew : TransactionalStore.new config = .ok s₀) (pre post : List Call)
    (hcorrupt : Call.corruptPendingMetadata ∉ pre ++ post) (hrecover : Call.recover ∉ post)
    {w : WorkingTransaction} (hw : Parts.active (runCalls s₀ pre) = some w)
    {transaction : TransactionId} {now : Tick} {durability : Durability}
    (hi : (TransactionalStore.commit (runCalls s₀ pre) transaction now durability).1 =
      .error (.interrupted .afterCommitReceipt))
    (hsafe : ∀ init c rest, post = init ++ c :: rest →
      Spares (runCalls s₀ (pre ++ .commit transaction now durability :: init))
        (transaction.baseGeneration + 1) c) :
    Parts.committed (TransactionalStore.recover
        (runCalls s₀ (pre ++ .commit transaction now durability :: post))).2 =
        { w.state with generation := transaction.baseGeneration + 1 } ∧
      ∀ init transaction' now' durability' rest,
        post = init ++ .commit transaction' now' durability' :: rest → ∀ receipt,
        (TransactionalStore.commit
          (runCalls s₀ (pre ++ .commit transaction now durability :: init))
          transaction' now' durability').1 ≠ .ok receipt := by
  obtain ⟨hpre, hpost⟩ := not_or.mp (mt List.mem_append.mpr hcorrupt)
  obtain ⟨v, hv, ht⟩ := (shows_new hnew).untampered rfl pre hpre
  have hwaiting := hv.waiting ht hw hi
  -- the commit that waits is still there after every call that spares it
  have hrun : ∀ init rest, post = init ++ rest →
      Waiting (runCalls s₀ (pre ++ .commit transaction now durability :: init))
        { w.state with generation := transaction.baseGeneration + 1 } := by
    intro init rest hsplit
    rw [runCalls_append, runCalls_cons]
    refine hwaiting.run ?_ ?_ ?_
    · exact fun hmem => hrecover (hsplit ▸ List.mem_append_left rest hmem)
    · exact fun hmem => hpost (hsplit ▸ List.mem_append_left rest hmem)
    · intro init' c rest' hinit
      have hspares := hsafe init' c (rest' ++ rest)
        (by rw [hsplit, hinit, List.append_assoc, List.cons_append])
      rw [runCalls_append, runCalls_cons] at hspares
      exact hspares
  constructor
  · exact (hrun post [] (List.append_nil post).symm).recover
  · intro init transaction' now' durability' rest hsplit receipt hok
    -- a commit that returns would have to publish over it
    have hstep := (hrun init _ hsplit).step (c := .commit transaction' now' durability') nofun nofun
      (hsafe init _ rest hsplit)
    exact hstep.2 transaction' now' durability' receipt rfl (congrArg Reply.receipt hok)

theorem createThenFault_shows {s₀ : Store .cow} (hnew : TransactionalStore.new roomy = .ok s₀) :
    Shows (runCalls s₀ createThenFault) ((View.new roomy).run .cow createThenFault) ∧
      (TransactionalStore.commit (runCalls s₀ createThenFault) ⟨1, 0⟩ 0 .memoryOnly).1 =
        .error (.interrupted .afterCommitReceipt) := by
  have hpre : Shows (runCalls s₀ createThenFault) ((View.new roomy).run .cow createThenFault) :=
    (shows_new hnew).cow_run rfl
  have hseen := hpre.cow_seen (c := .commit ⟨1, 0⟩ 0 .memoryOnly) rfl
  exact ⟨hpre, Reply.receipt.inj (Reply.seen_interrupted hseen)⟩

theorem interrupted_commit_kept_begun :
    ∃ (s₀ : Store .cow) (w : WorkingTransaction), TransactionalStore.new roomy = .ok s₀ ∧
      Parts.active (runCalls s₀ createThenFault) = some w ∧
      Parts.committed (TransactionalStore.recover (runCalls s₀ (createThenFault ++
        .commit ⟨1, 0⟩ 0 .memoryOnly :: [.begin 0 9, .gc 1]))).2 =
        { w.state with generation := 1 } := by
  obtain ⟨s₀, hnew⟩ := exists_new .cow roomy
  obtain ⟨hpre, hi⟩ := createThenFault_shows hnew
  refine ⟨s₀, _, hnew, hpre.active, ?_⟩
  refine (interrupted_commit_kept hnew createThenFault [.begin 0 9, .gc 1] ?_ ?_ hpre.active hi
    ?_).1
  · simp [createThenFault]
  · simp
  · intro init c rest hsplit _
    have hmem : c ∈ [Call.begin 0 9, .gc 1] := by
      rw [hsplit]
      exact List.mem_append_right init List.mem_cons_self
    rcases List.mem_cons.mp hmem with rfl | hmem
    · exact not_false
    · obtain rfl := List.mem_singleton.mp hmem
      exact Nat.lt_irrefl 1

/-- The transaction that is interrupted, and another one that creates nothing. -/
def commitOver : List Call :=
  createThenFault ++ [.commit ⟨1, 0⟩ 0 .memoryOnly, .begin 0 9, .commit ⟨2, 0⟩ 0 .memoryOnly]

/-- **The copy-on-write store can lose a commit that has its receipt**: it begins another
transaction and commits it in the bank of the pending one. -/
theorem interrupted_commit_lost :
    ∃ (s₀ : Store .cow) (w : WorkingTransaction), TransactionalStore.new roomy = .ok s₀ ∧
      Parts.active (runCalls s₀ createThenFault) = some w ∧
      (TransactionalStore.commit (runCalls s₀ createThenFault) ⟨1, 0⟩ 0 .memoryOnly).1 =
        .error (.interrupted .afterCommitReceipt) ∧
      ¬ StoreState.Descends w.state
        (Parts.committed (TransactionalStore.recover (runCalls s₀ commitOver)).2) := by
  obtain ⟨s₀, hnew⟩ := exists_new .cow roomy
  obtain ⟨hpre, hi⟩ := createThenFault_shows hnew
  have hlost : Shows (runCalls s₀ commitOver) ((View.new roomy).run .cow commitOver) :=
    (shows_new hnew).cow_run rfl
  refine ⟨s₀, _, hnew, hpre.active, hi, ?_⟩
  rw [hlost.recover.committed]
  intro hdescends
  exact absurd hdescends.next_le (by decide)

end AegisShield.Storage
