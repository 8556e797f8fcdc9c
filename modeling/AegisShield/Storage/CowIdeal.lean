/-
# The copy-on-write store is an ideal store

The active bank is the committed state, and its superblock always verifies.  What the inactive bank
is depends on what is pending (`OtherBank`): the state before the last commit, a state that never
got its superblock, or the pending one.  Every call keeps this and does what the ideal store does,
or one of its deviations (`Rep.step`).
-/
import AegisShield.Storage.Ideal

namespace AegisShield.Storage

open Lib

/-! ## 1. Superblocks -/

namespace Superblock

/-- The superblock with the checksum it should have. -/
def stamped (b : Superblock) : Superblock := { b with descriptorChecksum := b.expectedChecksum }

/-- The superblock of a bank. -/
def of (bank : Fin 2) (state : StoreState) : Superblock :=
  stamped ⟨true, superblockMagic, state.generation, bank, state.checksum, 0⟩

/-- The checksum covers everything but itself. -/
theorem expectedChecksum_with (b : Superblock) (x : UInt64) :
    { b with descriptorChecksum := x }.expectedChecksum = b.expectedChecksum := rfl

theorem expectedChecksum_stamped (b : Superblock) : b.stamped.expectedChecksum = b.expectedChecksum :=
  expectedChecksum_with b _

theorem expectedChecksum_flip (b : Superblock) : b.flip.expectedChecksum = b.expectedChecksum :=
  expectedChecksum_with b _

theorem new_eq (bank : Fin 2) (state : StoreState) : Superblock.new bank state = .ok (of bank state) := by
  have h : tryU8 bank .invariantViolation = .ok bank.val :=
    if_pos (Nat.lt_trans bank.isLt (by decide))
  unfold Superblock.new
  rw [h]
  rfl

theorem verify_of (bank : Fin 2) (state : StoreState) : (of bank state).verify bank state = true := by
  unfold verify of
  rw [expectedChecksum_stamped]
  simp [stamped]

theorem flip_flip (b : Superblock) : b.flip.flip = b := by
  unfold flip
  rw [xor_one_xor_one]

theorem verify_flip (bank : Fin 2) (state : StoreState) :
    (of bank state).flip.verify bank state = false := by
  unfold verify of
  generalize (⟨true, superblockMagic, state.generation, bank, state.checksum, 0⟩ : Superblock) = b
  have hne : b.stamped.flip.descriptorChecksum ≠ b.expectedChecksum := xor_one_ne _
  rw [expectedChecksum_flip, expectedChecksum_stamped, decide_eq_false hne, Bool.and_false]

end Superblock

/-! ## 2. The representation -/

theorem rev_ne (b : Fin 2) : b.rev ≠ b := by
  revert b
  decide

theorem eq_rev_of_ne {a b : Fin 2} (h : a ≠ b) : a = b.rev := by
  revert a b
  decide

namespace CowStore

/-- What the inactive bank and its superblock are. -/
def OtherBank (s : CowStore) (v : View) : Prop :=
  match v.pending with
  | .nothing =>
    ((s.superblocks s.activeBank.rev).present = false ∧
        (s.banks s.activeBank.rev).generation ≤ v.committed.generation) ∨
      (s.superblocks s.activeBank.rev =
          Superblock.of s.activeBank.rev (s.banks s.activeBank.rev) ∧
        (s.banks s.activeBank.rev).generation < v.committed.generation)
  | .torn =>
    (s.superblocks s.activeBank.rev).present = false ∧
      v.committed.generation < (s.banks s.activeBank.rev).generation
  | .receipted state valid =>
    s.banks s.activeBank.rev = state ∧ s.superblocks s.activeBank.rev =
      if valid then Superblock.of s.activeBank.rev state
      else (Superblock.of s.activeBank.rev state).flip

/-- **The store is a view.** -/
structure Rep (s : CowStore) (v : View) : Prop where
  config : s.config = v.config
  committed : s.committed = v.committed
  active : s.active = v.active
  nextTransaction : s.nextTransaction = v.nextTransaction
  snapshots : s.snapshots = v.snapshots
  fault : s.fault = v.fault
  block : s.superblocks s.activeBank = Superblock.of s.activeBank v.committed
  other : s.OtherBank v
  wf : ∀ i, (s.banks i).Wf s.config

theorem rep_new {config : Config} {s : CowStore} (h : CowStore.new config = .ok s) :
    s.Rep (View.new config) := by
  have hblock : Superblock.new 0 StoreState.empty = .ok (Superblock.of 0 StoreState.empty) :=
    Superblock.new_eq 0 _
  unfold CowStore.new at h
  simp only [config.new_self, hblock, Bind.bind, Except.bind] at h
  cases h
  refine ⟨rfl, rfl, rfl, rfl, rfl, rfl, rfl, ?_, fun _ => StoreState.wf_empty _⟩
  exact Or.inl ⟨rfl, Nat.le_refl _⟩

theorem inactive_eq (s : CowStore) : s.inactive = .ok s.activeBank.rev := by
  have h : s.activeBank.val ≤ 1 := Nat.le_of_lt_succ s.activeBank.isLt
  unfold inactive
  rw [dif_pos h]
  have hrev : (⟨1 - s.activeBank.val, by omega⟩ : Fin 2) = s.activeBank.rev := by
    apply Fin.ext
    rw [Fin.val_rev]
    show 1 - s.activeBank.val = 2 - (s.activeBank.val + 1)
    omega
  rw [hrev]

variable {s : CowStore} {v : View}

/-- What touches no bank and only the superblock of the inactive one keeps the representation. -/
theorem Rep.reblock (h : s.Rep v) {s' : CowStore} {v' : View} (hconfig : s'.config = s.config)
    (hbanks : s'.banks = s.banks) (hbank : s'.activeBank = s.activeBank)
    (hblock : s'.superblocks s.activeBank = s.superblocks s.activeBank)
    (hv : v'.config = v.config ∧ v'.committed = v.committed)
    (hactive : s'.active = v'.active) (hnext : s'.nextTransaction = v'.nextTransaction)
    (hsnapshots : s'.snapshots = v'.snapshots) (hfault : s'.fault = v'.fault)
    (hother : s'.OtherBank v') : s'.Rep v' := by
  obtain ⟨hv1, hv2⟩ := hv
  refine ⟨?_, ?_, hactive, hnext, hsnapshots, hfault, ?_, hother, ?_⟩
  · rw [hconfig, h.config, hv1]
  · rw [hv2, ← h.committed, CowStore.committed, hbanks, hbank]
    rfl
  · rw [hbank, hblock, hv2]
    exact h.block
  · rw [hbanks, hconfig]
    exact h.wf

/-- What touches neither banks nor superblocks keeps it. -/
theorem Rep.congr (h : s.Rep v) {s' : CowStore} {v' : View} (hconfig : s'.config = s.config)
    (hbanks : s'.banks = s.banks) (hblocks : s'.superblocks = s.superblocks)
    (hbank : s'.activeBank = s.activeBank)
    (hv : v'.config = v.config ∧ v'.committed = v.committed ∧ v'.pending = v.pending)
    (hactive : s'.active = v'.active) (hnext : s'.nextTransaction = v'.nextTransaction)
    (hsnapshots : s'.snapshots = v'.snapshots) (hfault : s'.fault = v'.fault) : s'.Rep v' := by
  obtain ⟨hv1, hv2, hv3⟩ := hv
  refine h.reblock hconfig hbanks hbank (by rw [hblocks]) ⟨hv1, hv2⟩ hactive hnext hsnapshots
    hfault ?_
  have hother := h.other
  unfold OtherBank at hother ⊢
  rw [hv3, hv2, hblocks, hbanks, hbank]
  exact hother

/-! ## 3. Calls that leave the banks alone -/

theorem Rep.check (h : s.Rep v) (transaction : TransactionId) (now : Tick) :
    s.checkTransaction transaction now = v.check transaction now := by
  unfold checkTransaction View.check
  rw [h.active]

theorem Rep.generation (h : s.Rep v) : s.generation = v.committed.generation := by
  rw [CowStore.generation, h.committed]

theorem Rep.begin (h : s.Rep v) (now : Tick) (deadline : Deadline) :
    (s.begin now deadline).1 = (v.begin now deadline).1 ∧
      (s.begin now deadline).2.Rep (v.begin now deadline).2 := by
  unfold CowStore.begin View.begin
  rw [h.active, h.nextTransaction, h.generation, h.committed]
  split
  · exact ⟨rfl, h⟩
  · split
    · exact ⟨rfl, h⟩
    · cases checkedAdd v.nextTransaction 1 with
      | none => exact ⟨rfl, h⟩
      | some next =>
        exact ⟨rfl, h.congr rfl rfl rfl rfl ⟨rfl, rfl, rfl⟩ rfl rfl h.snapshots h.fault⟩

/-- An operation whose result is mapped. -/
theorem mutate_map {α : Type} (s : CowStore) (transaction : TransactionId) (now : Tick)
    (op : StoreState → Except Error α × StoreState) (f : α → Option ObjectHandle) :
    ((s.mutate transaction now op).1.map f, (s.mutate transaction now op).2) =
      attempt (s.checkTransaction transaction now) s fun _ =>
      attempt (okOr s.active .noActiveTransaction) s fun working =>
      ((op working.state).1.map f,
        { s with active := some { working with state := (op working.state).2 } }) := by
  unfold mutate
  cases s.checkTransaction transaction now with
  | error e => rfl
  | ok u =>
    cases s.active with
    | none => rfl
    | some w => rfl

/-- The five operations are one. -/
theorem run_mutation (s : CowStore) (transaction : TransactionId) (now : Tick) (m : Mutation) :
    m.run s transaction now = attempt (s.checkTransaction transaction now) s fun _ =>
      attempt (okOr s.active .noActiveTransaction) s fun working =>
      let r := m.apply s.config working.state
      (r.1, { s with active := some { working with state := r.2 } }) := by
  cases m with
  | create => exact s.mutate_map transaction now StoreState.create some
  | write handle offset input =>
    exact s.mutate_map transaction now (fun state => state.write handle offset input s.config) _
  | truncate handle newLen =>
    exact s.mutate_map transaction now (fun state => state.truncate handle newLen s.config) _
  | delete handle => exact s.mutate_map transaction now (fun state => state.delete handle) _
  | bind name handle => exact s.mutate_map transaction now (fun state => state.bind name handle) _

theorem Rep.mutate (h : s.Rep v) (transaction : TransactionId) (now : Tick) (m : Mutation) :
    (m.run s transaction now).1 = (v.mutate transaction now m).1 ∧
      (m.run s transaction now).2.Rep (v.mutate transaction now m).2 := by
  rw [run_mutation, h.check, h.active, h.config]
  unfold View.mutate
  cases v.check transaction now with
  | error e => exact ⟨rfl, h⟩
  | ok u =>
    cases v.active with
    | none => exact ⟨rfl, h⟩
    | some w =>
      exact ⟨rfl, h.congr h.config.symm rfl rfl rfl ⟨rfl, rfl, rfl⟩ rfl h.nextTransaction h.snapshots
        h.fault⟩

theorem Rep.abort (h : s.Rep v) (transaction : TransactionId) :
    (s.abort transaction).1 = (v.abort transaction).1 ∧
      (s.abort transaction).2.Rep (v.abort transaction).2 := by
  unfold CowStore.abort View.abort
  rw [h.active]
  cases v.active with
  | none => exact ⟨rfl, h⟩
  | some w =>
    simp only [okOr_some, attempt_ok]
    split
    · exact ⟨rfl, h⟩
    · exact ⟨rfl, h.congr rfl rfl rfl rfl ⟨rfl, rfl, rfl⟩ rfl h.nextTransaction h.snapshots h.fault⟩

theorem Rep.cancel (h : s.Rep v) (transaction : TransactionId) :
    (s.cancel transaction).1 = (v.cancel transaction).1 ∧
      (s.cancel transaction).2.Rep (v.cancel transaction).2 := by
  unfold CowStore.cancel View.cancel
  rw [h.active]
  cases v.active with
  | none => exact ⟨rfl, h⟩
  | some w =>
    simp only [okOr_some, attempt_ok]
    split
    · exact ⟨rfl, h⟩
    · exact ⟨rfl, h.congr rfl rfl rfl rfl ⟨rfl, rfl, rfl⟩ rfl h.nextTransaction h.snapshots h.fault⟩

theorem Rep.snapshot (h : s.Rep v) :
    s.snapshot.1 = v.snapshot.1 ∧ s.snapshot.2.Rep v.snapshot.2 := by
  unfold CowStore.snapshot View.snapshot
  rw [h.snapshots, h.committed]
  exact ⟨rfl, h.congr rfl rfl rfl rfl ⟨rfl, rfl, rfl⟩ h.active h.nextTransaction rfl h.fault⟩

theorem Rep.readSnapshot (h : s.Rep v) (id : SnapshotId) (handle : ObjectHandle) (offset : Nat)
    (output : Bytes) :
    s.readSnapshot id handle offset output = v.readSnapshot id handle offset output := by
  unfold CowStore.readSnapshot View.readSnapshot
  rw [h.snapshots]

/-! ## 4. Calls that change a superblock -/

theorem gc_active (s : CowStore) (retainFrom : Generation) :
    (s.gc retainFrom).2.superblocks s.activeBank = s.superblocks s.activeBank := by
  have h : s.reclaims retainFrom s.activeBank = false := by
    unfold reclaims
    rw [decide_eq_false (not_not.mpr rfl), Bool.false_and, Bool.false_and]
  exact if_neg (by rw [h]; exact Bool.false_ne_true)

theorem gc_inactive (s : CowStore) (retainFrom : Generation) :
    (s.gc retainFrom).2.superblocks s.activeBank.rev = s.superblocks s.activeBank.rev ∨
      ((s.gc retainFrom).2.superblocks s.activeBank.rev = Superblock.empty ∧
        (s.superblocks s.activeBank.rev).present = true ∧
        (s.superblocks s.activeBank.rev).generation < retainFrom) := by
  cases hr : s.reclaims retainFrom s.activeBank.rev with
  | false => exact Or.inl (if_neg (by rw [hr]; exact Bool.false_ne_true))
  | true =>
    refine Or.inr ⟨if_pos hr, ?_⟩
    unfold reclaims at hr
    rw [Bool.and_eq_true, Bool.and_eq_true, decide_eq_true_eq, decide_eq_true_eq] at hr
    exact ⟨hr.1.2, hr.2⟩

/-- The store after `gc`, by what has become of the inactive bank. -/
theorem Rep.collected (h : s.Rep v) (retainFrom : Generation) (pending : Pending)
    (hother : (s.gc retainFrom).2.OtherBank
      { v with snapshots := (v.snapshots.gc retainFrom).2, pending := pending }) :
    (s.gc retainFrom).2.Rep
      { v with snapshots := (v.snapshots.gc retainFrom).2, pending := pending } := by
  refine h.reblock rfl rfl rfl (s.gc_active retainFrom) ⟨rfl, rfl⟩ h.active h.nextTransaction ?_
    h.fault hother
  show (s.snapshots.gc retainFrom).2 = _
  rw [h.snapshots]

/-- `gc` can empty the superblock of what is pending. -/
theorem Rep.gc (h : s.Rep v) (hs : v.Sound) (retainFrom : Generation) :
    ∃ v', (s.gc retainFrom).2.Rep v' ∧ Moves .cow v (.gc retainFrom)
      (.reclaimed (s.gc retainFrom).1.snapshotsReclaimed) v' := by
  have hseen : (s.gc retainFrom).1.snapshotsReclaimed = (v.snapshots.gc retainFrom).1 := by
    rw [← h.snapshots]
    rfl
  have hideal : Moves .cow v (.gc retainFrom) (.reclaimed (v.snapshots.gc retainFrom).1)
      { v with snapshots := (v.snapshots.gc retainFrom).2, pending := v.pending } :=
    Moves.ideal _ nofun
  rw [hseen]
  have hother := h.other
  unfold OtherBank at hother
  rcases s.gc_inactive retainFrom with hkeep | ⟨hempty, hp, hg⟩
  · -- the inactive bank is left alone
    refine ⟨_, h.collected retainFrom v.pending ?_, hideal⟩
    rw [← hkeep] at hother
    exact hother
  · -- it is cleared, and with it a commit that waited there
    have habsent : ((s.gc retainFrom).2.superblocks s.activeBank.rev).present = false :=
      congrArg Superblock.present hempty
    cases hpend : v.pending with
    | nothing =>
      rw [hpend] at hother hideal
      refine ⟨_, h.collected retainFrom .nothing (Or.inl ⟨habsent, ?_⟩), hideal⟩
      rcases hother with ⟨-, hle⟩ | ⟨-, hlt⟩
      · exact hle
      · exact Nat.le_of_lt hlt
    | torn =>
      rw [hpend] at hother
      rw [hother.1] at hp
      cases hp
    | receipted state valid =>
      rw [hpend] at hother
      obtain ⟨hbank, hblock⟩ := hother
      have hgen : (s.superblocks s.activeBank.rev).generation = state.generation := by
        rw [hblock]
        cases valid <;> rfl
      rw [hgen] at hg
      obtain ⟨-, -, hnext⟩ := hs.pending state valid hpend
      refine ⟨_, h.collected retainFrom .torn ⟨habsent, ?_⟩,
        Moves.reclaimed retainFrom rfl state valid hpend hg⟩
      show v.committed.generation < (s.banks s.activeBank.rev).generation
      rw [hbank, hnext]
      exact Nat.lt_succ_self _

/-- A superblock that is ahead belongs to what is pending. -/
theorem Rep.ahead (h : s.Rep v) (hs : v.Sound) (i : Fin 2) :
    ((s.superblocks i).present = true ∧ v.committed.generation < (s.superblocks i).generation) ↔
      i = s.activeBank.rev ∧ ∃ state valid, v.pending = .receipted state valid := by
  have hother := h.other
  unfold OtherBank at hother
  by_cases hi : i = s.activeBank
  · -- the active bank holds the committed generation itself
    have hblock : (s.superblocks i).generation = v.committed.generation := by
      rw [hi, h.block]
      rfl
    rw [hblock]
    refine ⟨fun ha => absurd ha.2 (Nat.lt_irrefl _), fun ha => ?_⟩
    exact absurd (ha.1.symm.trans hi) (rev_ne _)
  · obtain rfl := eq_rev_of_ne hi
    cases hpend : v.pending with
    | nothing =>
      rw [hpend] at hother
      refine ⟨fun ha => ?_, fun ⟨_, _, _, heq⟩ => nomatch heq⟩
      rcases hother with ⟨hp, -⟩ | ⟨hblock, hlt⟩
      · rw [hp] at ha
        cases ha.1
      · rw [hblock] at ha
        exact absurd ha.2 (Nat.lt_asymm hlt)
    | torn =>
      rw [hpend] at hother
      refine ⟨fun ha => ?_, fun ⟨_, _, _, heq⟩ => nomatch heq⟩
      rw [hother.1] at ha
      cases ha.1
    | receipted state valid =>
      rw [hpend] at hother
      obtain ⟨-, -, hnext⟩ := hs.pending state valid hpend
      have hp : (s.superblocks s.activeBank.rev).present = true := by
        rw [hother.2]
        cases valid <;> rfl
      have hgen : (s.superblocks s.activeBank.rev).generation = state.generation := by
        rw [hother.2]
        cases valid <;> rfl
      refine ⟨fun _ => ⟨rfl, state, valid, rfl⟩, fun _ => ⟨hp, ?_⟩⟩
      rw [hgen, hnext]
      exact Nat.lt_succ_self _

/-- `corrupt_pending_metadata` takes the receipt its validity, or gives it back. -/
theorem Rep.corruptPendingMetadata (h : s.Rep v) (hs : v.Sound) :
    ∃ v', s.corruptPendingMetadata.2.Rep v' ∧
      Moves .cow v .corruptPendingMetadata (.done s.corruptPendingMetadata.1) v' := by
  unfold CowStore.corruptPendingMetadata
  cases hpos : position (fun b => b.present && b.generation > s.generation) s.superblocks with
  | none =>
    exact ⟨_, h.congr rfl rfl rfl rfl ⟨rfl, rfl, rfl⟩ h.active h.nextTransaction h.snapshots h.fault,
      Moves.ideal _ nofun⟩
  | some i =>
    have hi := position_some hpos
    rw [Bool.and_eq_true, decide_eq_true_eq, h.generation] at hi
    obtain ⟨rfl, state, valid, hpend⟩ := (h.ahead hs i).mp hi
    have hother := h.other
    unfold OtherBank at hother
    rw [hpend] at hother
    obtain ⟨hbank, hblock⟩ := hother
    refine ⟨{ v with pending := .receipted state !valid, tampered := true }, ?_,
      Moves.corrupted _ (Or.inl rfl) _ (by rw [hpend]; exact rfl)⟩
    refine h.reblock rfl rfl rfl ?_ ⟨rfl, rfl⟩ h.active h.nextTransaction h.snapshots h.fault
      ⟨hbank, ?_⟩
    · exact Function.update_of_ne (rev_ne _).symm _ _
    · show Function.update s.superblocks s.activeBank.rev _ s.activeBank.rev = _
      rw [Function.update_self, hblock]
      cases valid with
      | true => rfl
      | false => exact Superblock.flip_flip _

/-! ## 5. Commits -/

/-- The banks of a commit, with the candidate in the inactive one. -/
theorem Rep.banks_publish (h : s.Rep v) {candidate : StoreState} (hwf : candidate.Wf v.config) :
    Function.update s.banks s.activeBank.rev candidate s.activeBank = v.committed ∧
      ∀ i, (Function.update s.banks s.activeBank.rev candidate i).Wf s.config := by
  constructor
  · rw [Function.update_of_ne (rev_ne _).symm]
    exact h.committed
  · intro i
    rw [Function.update_apply]
    split
    · rw [h.config]
      exact hwf
    · exact h.wf i

/-- **A commit from the write of the inactive bank on.** -/
theorem Rep.publish (h : s.Rep v) {candidate : StoreState} (hwf : candidate.Wf v.config)
    (hgen : candidate.generation = v.committed.generation + 1) (durability : CommitDurability) :
    ((s.publish s.activeBank.rev candidate durability).1.map fun c =>
        (c.generation, c.stateChecksum)) = (v.publish candidate).1 ∧
      (s.publish s.activeBank.rev candidate durability).2.Rep (v.publish candidate).2 := by
  obtain ⟨hbank, hwfs⟩ := h.banks_publish hwf
  have hblock : ∀ b b' : Superblock, Function.update (Function.update s.superblocks
      s.activeBank.rev b) s.activeBank.rev b' s.activeBank = Superblock.of s.activeBank v.committed := by
    intro b b'
    rw [Function.update_idem, Function.update_of_ne (rev_ne _).symm]
    exact h.block
  unfold CowStore.publish View.publish
  rw [Superblock.new_eq, ← h.fault]
  cases hf : s.fault with
  | none =>
    refine ⟨rfl, h.config, ?_, rfl, h.nextTransaction, h.snapshots, rfl, ?_, ?_, hwfs⟩
    · exact Function.update_self _ _ _
    · exact Function.update_self _ _ _
    · -- the bank that was active is the inactive one now, and it is older
      refine Or.inr ⟨?_, ?_⟩
      · show Function.update (Function.update s.superblocks _ _) _ _ s.activeBank.rev.rev = _
        rw [Fin.rev_rev, hblock]
        show _ = Superblock.of s.activeBank.rev.rev
          (Function.update s.banks s.activeBank.rev candidate s.activeBank.rev.rev)
        rw [Fin.rev_rev, hbank]
      · show (Function.update s.banks s.activeBank.rev candidate s.activeBank.rev.rev).generation <
          candidate.generation
        rw [Fin.rev_rev, hbank, hgen]
        exact Nat.lt_succ_self _
  | beforeCommitReceipt =>
    -- the bank is written, its superblock is not
    refine ⟨rfl, h.config, hbank, rfl, h.nextTransaction, h.snapshots, rfl, ?_, ?_, hwfs⟩
    · exact (Function.update_of_ne (rev_ne _).symm _ _).trans h.block
    · have habsent : (Function.update s.superblocks s.activeBank.rev Superblock.empty
          s.activeBank.rev).present = false := by
        rw [Function.update_self]
        rfl
      refine ⟨habsent, ?_⟩
      show v.committed.generation <
        (Function.update s.banks s.activeBank.rev candidate s.activeBank.rev).generation
      rw [Function.update_self, hgen]
      exact Nat.lt_succ_self _
  | afterCommitReceipt =>
    -- the superblock is there, `active_bank` still names the other one
    refine ⟨rfl, h.config, hbank, rfl, h.nextTransaction, h.snapshots, rfl, hblock _ _, ?_, hwfs⟩
    exact ⟨Function.update_self _ _ _, Function.update_self _ _ _⟩
  | corruptCommitReceipt =>
    refine ⟨rfl, h.config, hbank, rfl, h.nextTransaction, h.snapshots, rfl, hblock _ _, ?_, hwfs⟩
    exact ⟨Function.update_self _ _ _, Function.update_self _ _ _⟩

theorem Rep.commit (h : s.Rep v) (hs : v.Sound) (transaction : TransactionId) (now : Tick)
    (durability : Durability) :
    ((s.commit transaction now durability).1.map fun c => (c.generation, c.stateChecksum)) =
        (v.commit .cow transaction now durability).1 ∧
      (s.commit transaction now durability).2.Rep (v.commit .cow transaction now durability).2 := by
  unfold CowStore.commit View.commit
  rw [h.check, h.active, inactive_eq]
  rcases v.check_cases transaction now with ⟨e, -, hc⟩ | ⟨w, ha, hid, hc⟩
  · rw [hc]
    exact ⟨rfl, h⟩
  · rw [hc, attempt_ok, attempt_ok, ha, okOr_some, attempt_ok, attempt_ok]
    obtain ⟨hwf, -, -, hbase, -⟩ := hs.active w ha
    rw [hid] at hbase
    rcases nextGeneration_cases transaction.baseGeneration with hg | hg
    · rw [hg]
      exact ⟨rfl, h⟩
    · rw [hg, attempt_ok, attempt_ok]
      rcases validateDurability_cases durability .cow transaction (transaction.baseGeneration + 1)
        { w.state with generation := transaction.baseGeneration + 1 }.checksum with hd | ⟨d, hd⟩
      · simp only [hd, attempt_error]
        exact ⟨rfl, h⟩
      · simp only [hd, attempt_ok]
        exact h.publish (hwf.stamp _) (congrArg (· + 1) hbase) d

/-! ## 6. Recovery -/

section Scan

variable {i : Fin 2} {rest : List (Fin 2)} {found : Scan}

theorem scan_absent (h : (s.superblocks i).present = false) :
    s.scan (i :: rest) found = s.scan rest found := by
  rw [scan, h]
  exact if_pos rfl

theorem scan_corrupt (hp : (s.superblocks i).present = true)
    (hv : (s.superblocks i).verify i (s.banks i) = false) :
    s.scan (i :: rest) found = s.scan rest { found with
      superblocks := Function.update found.superblocks i Superblock.empty
      rejected := found.rejected + 1
      changed := true } := by
  rw [scan, hp, hv]
  rfl

theorem scan_first (h : s.superblocks i = Superblock.of i (s.banks i)) (hf : found.selected = none) :
    s.scan (i :: rest) found = s.scan rest { found with
      selected := some (i, (s.banks i).generation, (s.banks i).checksum) } := by
  have hv : (s.superblocks i).verify i (s.banks i) = true := by
    rw [h]
    exact Superblock.verify_of i _
  have hp : (s.superblocks i).present = true := by rw [h]; rfl
  rw [scan, hp, hv, hf, h]
  rfl

/-- The newer of two superblocks that verify is selected. -/
theorem scan_second (h : s.superblocks i = Superblock.of i (s.banks i)) {j : Fin 2}
    {generation : Generation} {checksum : UInt64}
    (hf : found.selected = some (j, generation, checksum))
    (hne : (s.banks i).generation ≠ generation) :
    s.scan (i :: rest) found = s.scan rest (if (s.banks i).generation > generation then
      { found with selected := some (i, (s.banks i).generation, (s.banks i).checksum) }
      else found) := by
  have hv : (s.superblocks i).verify i (s.banks i) = true := by
    rw [h]
    exact Superblock.verify_of i _
  have hp : (s.superblocks i).present = true := by rw [h]; rfl
  have hgen : (s.superblocks i).generation = (s.banks i).generation := by rw [h]; rfl
  have hsum : (s.superblocks i).stateChecksum = (s.banks i).checksum := by rw [h]; rfl
  rw [scan, hp, hv]
  simp only [hf, hgen, hsum, hne, false_and, if_false, Bool.not_true, Bool.false_eq_true, if_true]
  split <;> rfl

end Scan

/-- The superblocks in the order of the scan, from either bank. -/
theorem finRange_zero : List.finRange 2 = [0, Fin.rev 0] := rfl

theorem finRange_one : List.finRange 2 = [Fin.rev 1, 1] := rfl

/-- What the scan of the superblocks finds when only the one of bank `i` verifies. -/
theorem scan_one {i : Fin 2} (hi : s.superblocks i = Superblock.of i (s.banks i))
    (hother : (s.superblocks i.rev).present = false) :
    s.scan (List.finRange 2) ⟨none, 0, false, s.superblocks⟩ =
      (.ok (), ⟨some (i, (s.banks i).generation, (s.banks i).checksum), 0, false, s.superblocks⟩) := by
  match i with
  | 0 =>
    rw [finRange_zero, scan_first hi rfl, scan_absent hother, scan]
  | 1 =>
    rw [finRange_one, scan_absent hother, scan_first hi rfl, scan]

/-- When the superblock of the other bank is corrupt. -/
theorem scan_rejected {i : Fin 2} (hi : s.superblocks i = Superblock.of i (s.banks i))
    (hp : (s.superblocks i.rev).present = true)
    (hv : (s.superblocks i.rev).verify i.rev (s.banks i.rev) = false) :
    s.scan (List.finRange 2) ⟨none, 0, false, s.superblocks⟩ =
      (.ok (), ⟨some (i, (s.banks i).generation, (s.banks i).checksum), 1, true,
        Function.update s.superblocks i.rev Superblock.empty⟩) := by
  match i with
  | 0 =>
    rw [finRange_zero, scan_first hi rfl, scan_corrupt hp hv, scan]
  | 1 =>
    rw [finRange_one, scan_corrupt hp hv, scan_first hi rfl, scan]

/-- When both verify and the one of bank `i` is newer. -/
theorem scan_newer {i : Fin 2} (hi : s.superblocks i = Superblock.of i (s.banks i))
    (hother : s.superblocks i.rev = Superblock.of i.rev (s.banks i.rev))
    (hlt : (s.banks i.rev).generation < (s.banks i).generation) :
    s.scan (List.finRange 2) ⟨none, 0, false, s.superblocks⟩ =
      (.ok (), ⟨some (i, (s.banks i).generation, (s.banks i).checksum), 0, false, s.superblocks⟩) := by
  match i with
  | 0 =>
    rw [finRange_zero, scan_first hi rfl, scan_second hother rfl (Nat.ne_of_lt hlt),
      if_neg (Nat.lt_asymm hlt), scan]
  | 1 =>
    rw [finRange_one, scan_first hother rfl, scan_second hi rfl (Nat.ne_of_gt hlt), if_pos hlt, scan]

/-- The scan is done on the store without its transaction and fault. -/
theorem Rep.scan_stopped (h : s.Rep v) (hs : v.Sound) :
    { s with active := none, fault := .none }.scan (List.finRange 2)
        ⟨none, 0, false, s.superblocks⟩ =
      match v.pending with
      | .receipted state true =>
        (.ok (), ⟨some (s.activeBank.rev, state.generation, state.checksum), 0, false,
          s.superblocks⟩)
      | .receipted _ false =>
        (.ok (), ⟨some (s.activeBank, v.committed.generation, v.committed.checksum), 1, true,
          Function.update s.superblocks s.activeBank.rev Superblock.empty⟩)
      | _ =>
        (.ok (), ⟨some (s.activeBank, v.committed.generation, v.committed.checksum), 0, false,
          s.superblocks⟩) := by
  have hblock := h.block
  have hother := h.other
  unfold OtherBank at hother
  rw [← h.committed] at hblock hother ⊢
  generalize hstop : ({ s with active := none, fault := .none } : CowStore) = stopped
  have hbanks : stopped.banks = s.banks := by rw [← hstop]
  have hblocks : stopped.superblocks = s.superblocks := by rw [← hstop]
  unfold CowStore.committed at hblock hother ⊢
  rw [← hbanks, ← hblocks] at hblock hother ⊢
  cases hpend : v.pending with
  | nothing =>
    rw [hpend] at hother
    rcases hother with ⟨habsent, -⟩ | ⟨hold, hlt⟩
    · exact scan_one hblock habsent
    · exact scan_newer hblock hold hlt
  | torn =>
    rw [hpend] at hother
    exact scan_one hblock hother.1
  | receipted state valid =>
    rw [hpend] at hother
    obtain ⟨rfl, hnew⟩ := hother
    obtain ⟨-, -, hnext⟩ := hs.pending _ _ hpend
    cases valid with
    | true =>
      -- the receipt is good: the other bank is the newer one
      refine scan_newer hnew ?_ ?_
      · rw [Fin.rev_rev]
        exact hblock
      · rw [Fin.rev_rev, hnext, ← h.committed, hbanks]
        exact Nat.lt_succ_self _
    | false =>
      -- its superblock does not verify, so it is cleared and counted
      have hp : (stopped.superblocks s.activeBank.rev).present = true := by
        rw [hnew]
        rfl
      refine scan_rejected hblock hp ?_
      rw [hnew]
      exact Superblock.verify_flip _ _

/-- The report of `recover`. -/
def report (v : View) : RecoveryReport :=
  match v.pending with
  | .nothing => ⟨v.committed.generation, false, 0, false⟩
  | .torn => ⟨v.committed.generation, true, 0, true⟩
  | .receipted state true => ⟨state.generation, true, 0, false⟩
  | .receipted _ false => ⟨v.committed.generation, true, 1, true⟩

theorem report_selected (v : View) :
    (report v).selectedGeneration = (v.pending.installed v.committed).generation := by
  unfold report Pending.installed
  cases v.pending with
  | nothing => rfl
  | torn => rfl
  | receipted state valid =>
    cases valid with
    | true => rfl
    | false => rfl

section Settle

variable {bank : Fin 2} {generation : Generation} {checksum : UInt64} {rejected : Nat}
  {changed : Bool} {blocks : Fin 2 → Superblock}

/-- A bank whose superblock is gone and that is ahead of the selected generation. -/
def Uncommitted (s : CowStore) (blocks : Fin 2 → Superblock) (generation : Generation)
    (i : Fin 2) : Prop := (blocks i).present = false ∧ generation < (s.banks i).generation

/-- `recover` from the scan on. -/
theorem recover_of_scan (h : { s with active := none, fault := .none }.scan (List.finRange 2)
      ⟨none, 0, false, s.superblocks⟩ =
      (.ok (), ⟨some (bank, generation, checksum), rejected, changed, blocks⟩)) :
    s.recover =
      (.ok ⟨generation, changed || ((List.finRange 2).any fun i =>
            !(blocks i).present && (s.banks i).generation > generation) || bank ≠ s.activeBank,
          rejected, (List.finRange 2).any fun i =>
            !(blocks i).present && (s.banks i).generation > generation⟩,
        { s with
          active := none
          fault := .none
          superblocks := blocks
          banks := fun i => if !(blocks i).present && (s.banks i).generation > generation then
            s.banks bank else s.banks i
          activeBank := bank }) := by
  unfold recover
  simp only [h, attempt_ok, okOr_some]

/-- Nothing was left uncommitted. -/
theorem recover_settled (h : { s with active := none, fault := .none }.scan (List.finRange 2)
      ⟨none, 0, false, s.superblocks⟩ =
      (.ok (), ⟨some (bank, generation, checksum), rejected, changed, blocks⟩))
    (hno : ∀ i, ¬ s.Uncommitted blocks generation i) :
    s.recover = (.ok ⟨generation, changed || bank ≠ s.activeBank, rejected, false⟩,
      { s with active := none, fault := .none, superblocks := blocks, activeBank := bank }) := by
  have hfalse : (fun i => !(blocks i).present && (s.banks i).generation > generation) =
      fun _ => false := by
    funext i
    rw [Bool.eq_false_iff]
    intro hi
    rw [Bool.and_eq_true, Bool.not_eq_true', decide_eq_true_eq] at hi
    exact hno i hi
  have hany : ((List.finRange 2).any fun _ => false) = false := rfl
  have hi : ∀ i, (!(blocks i).present && (s.banks i).generation > generation) = false :=
    congrFun hfalse
  rw [recover_of_scan h, hfalse, hany, Bool.or_false]
  simp only [hi, Bool.false_eq_true, if_false]

/-- The inactive bank was left uncommitted; it gets the state of the active one. -/
theorem recover_discards (h : { s with active := none, fault := .none }.scan (List.finRange 2)
      ⟨none, 0, false, s.superblocks⟩ =
      (.ok (), ⟨some (s.activeBank, generation, checksum), rejected, changed, blocks⟩))
    (hyes : s.Uncommitted blocks generation s.activeBank.rev) :
    s.recover = (.ok ⟨generation, true, rejected, true⟩,
      { s with
        active := none
        fault := .none
        superblocks := blocks
        banks := fun i => if i = s.activeBank then s.banks i else s.banks s.activeBank }) := by
  have hrev : (!(blocks s.activeBank.rev).present &&
      (s.banks s.activeBank.rev).generation > generation) = true := by
    rw [hyes.1, decide_eq_true hyes.2]
    rfl
  have hany : ((List.finRange 2).any fun i =>
      !(blocks i).present && (s.banks i).generation > generation) = true :=
    List.any_eq_true.mpr ⟨s.activeBank.rev, List.mem_finRange _, hrev⟩
  have hbanks : (fun i => if !(blocks i).present && (s.banks i).generation > generation then
      s.banks s.activeBank else s.banks i) =
      fun i => if i = s.activeBank then s.banks i else s.banks s.activeBank := by
    funext i
    by_cases hi : i = s.activeBank
    · rw [hi, if_pos rfl, ite_self]
    · rw [if_neg hi, eq_rev_of_ne hi, if_pos hrev]
  rw [recover_of_scan h, hany, hbanks, Bool.or_true, Bool.true_or]

end Settle

theorem Rep.present (h : s.Rep v) : (s.superblocks s.activeBank).present = true := by
  rw [h.block]
  rfl

/-- With nothing pending, `recover` only drops the transaction and the fault. -/
theorem Rep.recover_nothing (h : s.Rep v) (hs : v.Sound) (hp : v.pending = .nothing) :
    s.recover = (.ok ⟨v.committed.generation, false, 0, false⟩,
      { s with active := none, fault := .none }) := by
  have hscan := h.scan_stopped hs
  have hother := h.other
  unfold OtherBank at hother
  rw [hp] at hscan hother
  rw [recover_settled hscan]
  · rw [decide_eq_false (not_not.mpr rfl)]
    rfl
  · rintro i ⟨habsent, hlt⟩
    by_cases hi : i = s.activeBank
    · rw [hi, h.present] at habsent
      cases habsent
    · obtain rfl := eq_rev_of_ne hi
      rcases hother with ⟨-, hle⟩ | ⟨hold, -⟩
      · exact absurd hlt (Nat.not_lt.mpr hle)
      · rw [hold] at habsent
        cases habsent

/-- A receipt that verifies is installed: the banks change places. -/
theorem Rep.recover_receipted (h : s.Rep v) (hs : v.Sound) {state : StoreState}
    (hp : v.pending = .receipted state true) :
    s.recover = (.ok ⟨state.generation, true, 0, false⟩,
      { s with active := none, fault := .none, activeBank := s.activeBank.rev }) := by
  have hscan := h.scan_stopped hs
  have hother := h.other
  unfold OtherBank at hother
  rw [hp] at hscan hother
  rw [recover_settled hscan]
  · rw [decide_eq_true (rev_ne _)]
    rfl
  · rintro i ⟨habsent, -⟩
    by_cases hi : i = s.activeBank
    · rw [hi, h.present] at habsent
      cases habsent
    · obtain rfl := eq_rev_of_ne hi
      rw [hother.2] at habsent
      cases habsent

/-- The store after the inactive bank was discarded. -/
theorem Rep.discarded (h : s.Rep v) {blocks : Fin 2 → Superblock}
    (hblock : blocks s.activeBank = s.superblocks s.activeBank)
    (habsent : (blocks s.activeBank.rev).present = false) :
    Rep { s with
      active := none
      fault := .none
      superblocks := blocks
      banks := fun i => if i = s.activeBank then s.banks i else s.banks s.activeBank }
      { v with pending := .nothing, active := none, fault := .none, tampered := false } := by
  refine ⟨h.config, ?_, rfl, h.nextTransaction, h.snapshots, rfl, hblock.trans h.block, ?_, ?_⟩
  · exact (if_pos rfl).trans h.committed
  · refine Or.inl ⟨habsent, ?_⟩
    simp only [if_neg (rev_ne _)]
    exact Nat.le_of_eq (congrArg StoreState.generation h.committed)
  · intro i
    by_cases hi : i = s.activeBank
    · simp only [if_pos hi]
      exact h.wf i
    · simp only [if_neg hi]
      exact h.wf s.activeBank

/-- **`recover` does what the ideal store does.** -/
theorem Rep.recover (h : s.Rep v) (hs : v.Sound) :
    s.recover.1 = .ok (report v) ∧ s.recover.2.Rep v.recover := by
  have hscan := h.scan_stopped hs
  have hother := h.other
  unfold OtherBank at hother
  unfold report View.recover Pending.installed
  cases hp : v.pending with
  | nothing =>
    rw [h.recover_nothing hs hp]
    exact ⟨rfl, h.congr rfl rfl rfl rfl ⟨rfl, rfl, hp.symm⟩ rfl h.nextTransaction h.snapshots rfl⟩
  | torn =>
    rw [hp] at hscan hother
    rw [recover_discards hscan hother]
    exact ⟨rfl, h.discarded rfl hother.1⟩
  | receipted state valid =>
    rw [hp] at hscan hother
    obtain ⟨hwf, -, hnext⟩ := hs.pending state valid hp
    cases valid with
    | true =>
      rw [h.recover_receipted hs hp]
      -- the banks change their parts: what was committed is the older one now
      refine ⟨rfl, h.config, hother.1, rfl, h.nextTransaction, h.snapshots, rfl, hother.2, ?_, h.wf⟩
      refine Or.inr ⟨?_, ?_⟩
      · show s.superblocks s.activeBank.rev.rev =
          Superblock.of s.activeBank.rev.rev (s.banks s.activeBank.rev.rev)
        rw [Fin.rev_rev, h.block, ← h.committed]
        rfl
      · show (s.banks s.activeBank.rev.rev).generation < state.generation
        rw [Fin.rev_rev, hnext, ← h.committed]
        exact Nat.lt_succ_self _
    | false =>
      -- the damaged superblock is cleared, which leaves a bank without one
      have habsent : (Function.update s.superblocks s.activeBank.rev Superblock.empty
          s.activeBank.rev).present = false := by
        rw [Function.update_self]
        rfl
      have hyes : s.Uncommitted (Function.update s.superblocks s.activeBank.rev Superblock.empty)
          v.committed.generation s.activeBank.rev := by
        refine ⟨habsent, ?_⟩
        rw [hother.1, hnext]
        exact Nat.lt_succ_self _
      rw [recover_discards hscan hyes]
      exact ⟨rfl, h.discarded (Function.update_of_ne (rev_ne _).symm _ _) habsent⟩

/-! ## 7. Every call -/

/-- **The copy-on-write store is an ideal store**, but for a `gc` that drops what is pending and a
corrupted superblock. -/
theorem Rep.step (h : s.Rep v) (hs : v.Sound) (c : Call) :
    ∃ v', (c.run s).2.Rep v' ∧ Moves .cow v c (c.run s).1.seen v' := by
  -- it is enough that the call does what the ideal store does
  have hideal : ∀ c' : Call, (c'.run s).1.seen = (v.step .cow c').1 →
      (c'.run s).2.Rep (v.step .cow c').2 →
      ∃ v', (c'.run s).2.Rep v' ∧ Moves .cow v c' (c'.run s).1.seen v' := by
    intro c' hseen hrep
    refine ⟨_, hrep, ?_⟩
    rw [hseen]
    exact Moves.ideal c' nofun
  cases c with
  | begin now deadline =>
    exact hideal _ (congrArg Seen.transaction (h.begin now deadline).1) (h.begin now deadline).2
  | mutate transaction now m =>
    exact hideal _ (congrArg Seen.mutated (h.mutate transaction now m).1)
      (h.mutate transaction now m).2
  | read handle offset output =>
    exact hideal _
      (congrArg (fun state : StoreState => Seen.bytes (state.read handle offset output)) h.committed) h
  | lookup name =>
    exact hideal _ (congrArg (fun state : StoreState => Seen.handle (state.lookup name)) h.committed) h
  | commit transaction now durability =>
    exact hideal _ (congrArg Seen.receipt (h.commit hs transaction now durability).1)
      (h.commit hs transaction now durability).2
  | abort transaction =>
    exact hideal _ (congrArg Seen.done (h.abort transaction).1) (h.abort transaction).2
  | cancel transaction =>
    exact hideal _ (congrArg Seen.done (h.cancel transaction).1) (h.cancel transaction).2
  | snapshot => exact hideal _ (congrArg Seen.snapshot h.snapshot.1) h.snapshot.2
  | readSnapshot id handle offset output =>
    exact hideal _ (congrArg Seen.bytes (h.readSnapshot id handle offset output)) h
  | gc retainFrom => exact h.gc hs retainFrom
  | injectFault fault =>
    exact hideal _ rfl
      (h.congr rfl rfl rfl rfl ⟨rfl, rfl, rfl⟩ h.active h.nextTransaction h.snapshots rfl)
  | corruptPendingMetadata => exact h.corruptPendingMetadata hs
  | recover =>
    obtain ⟨hreport, hrep⟩ := h.recover hs
    refine hideal _ ?_ hrep
    have hmap : (s.recover.1.map fun r => r.selectedGeneration : Except Error Generation) =
        .ok (report v).selectedGeneration := congrArg (Except.map _) hreport
    exact congrArg Seen.recovered (hmap.trans (congrArg Except.ok (report_selected v)))

end CowStore

end AegisShield.Storage
