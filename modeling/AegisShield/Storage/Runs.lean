/-
# Runs of either store

Whatever calls are made of a new store, it shows a view that keeps the invariant (`Shows`), and each
call moves that view (`Shows.step`).  `Shows.run` is the rule for runs: what holds of the first view
and is kept by every call of the run holds of the last view.
-/
import AegisShield.Storage.CowIdeal
import AegisShield.Storage.WalIdeal

namespace AegisShield.Storage

open Lib

/-! ## 1. Stores and views -/

/-- The view that represents a store. -/
def Represents : (variant : VariantId) → Store variant → View → Prop
  | .cow => CowStore.Rep
  | .wal => WalStore.Rep

/-- **The store shows the view**, and the view keeps the invariant. -/
structure Shows {variant : VariantId} (s : Store variant) (v : View) : Prop where
  rep : Represents variant s v
  sound : v.Sound

section Shows

variable {variant : VariantId} {s : Store variant} {v : View} {config : Config}

theorem shows_new (h : TransactionalStore.new config = .ok s) : Shows s (View.new config) := by
  refine ⟨?_, View.sound_new config⟩
  cases variant with
  | cow => exact CowStore.rep_new h
  | wal => exact WalStore.rep_new h

/-- A store can be made for every configuration. -/
theorem exists_new (variant : VariantId) (config : Config) :
    ∃ s : Store variant, TransactionalStore.new config = .ok s := by
  cases variant with
  | cow =>
    have hblock : Superblock.new 0 StoreState.empty = .ok (Superblock.of 0 StoreState.empty) :=
      Superblock.new_eq 0 _
    cases hs : CowStore.new config with
    | ok s => exact ⟨s, hs⟩
    | error e =>
      unfold CowStore.new at hs
      simp only [config.new_self, hblock, Bind.bind, Except.bind] at hs
      cases hs
  | wal =>
    cases hs : WalStore.new config with
    | ok s => exact ⟨s, hs⟩
    | error e =>
      unfold WalStore.new at hs
      rw [config.new_self] at hs
      cases hs

/-- **Every call moves the view.** -/
theorem Shows.step (h : Shows s v) (c : Call) :
    ∃ v', Shows (c.run s).2 v' ∧ Moves variant v c (c.run s).1.seen v' := by
  have hstep : ∃ v', Represents variant (c.run s).2 v' ∧ Moves variant v c (c.run s).1.seen v' := by
    cases variant with
    | cow => exact CowStore.Rep.step h.rep h.sound c
    | wal => exact WalStore.Rep.step h.rep h.sound c
  obtain ⟨v', hrep, hmove⟩ := hstep
  exact ⟨v', ⟨hrep, (hmove.changed h.sound).sound h.sound⟩, hmove⟩

/-- **The rule for runs**, with an invariant that may speak of the calls so far. -/
theorem Shows.run {P : List Call → View → Prop} (h : Shows s v) (hnil : P [] v) :
    ∀ calls : List Call, (∀ pre c post, calls = pre ++ c :: post → ∀ u u', Shows (runCalls s pre) u →
      P pre u → Moves variant u c (c.run (runCalls s pre)).1.seen u' → P (pre ++ [c]) u') →
      ∃ v', Shows (runCalls s calls) v' ∧ P calls v' := by
  intro calls
  induction calls using List.reverseRecOn with
  | nil => exact fun _ => ⟨v, h, hnil⟩
  | append_singleton init c ih =>
    intro hstep
    obtain ⟨u, hu, hP⟩ := ih fun pre c' post hpre u u' =>
      hstep pre c' (post ++ [c]) (by rw [hpre, List.append_assoc]; rfl) u u'
    obtain ⟨u', hu', hmove⟩ := hu.step c
    rw [runCalls_append]
    exact ⟨u', hu', hstep init c [] rfl u u' hu hP hmove⟩

/-- Every reachable store shows a view. -/
theorem Shows.reach (h : Shows s v) (calls : List Call) : ∃ v', Shows (runCalls s calls) v' := by
  obtain ⟨v', hv', -⟩ := h.run (P := fun _ _ => True) trivial calls fun _ _ _ _ _ _ _ _ _ => trivial
  exact ⟨v', hv'⟩

/-! ## 2. What can be seen of a store -/

theorem Shows.committed (h : Shows s v) : Parts.committed s = v.committed := by
  cases variant with
  | cow => exact CowStore.Rep.committed h.rep
  | wal => exact WalStore.Rep.base h.rep

theorem Shows.active (h : Shows s v) : Parts.active s = v.active := by
  cases variant with
  | cow => exact CowStore.Rep.active h.rep
  | wal => exact WalStore.Rep.active h.rep

theorem Shows.snapshots (h : Shows s v) : Parts.snapshots s = v.snapshots := by
  cases variant with
  | cow => exact CowStore.Rep.snapshots h.rep
  | wal => exact WalStore.Rep.snapshots h.rep

theorem generation_eq (s : Store variant) :
    TransactionalStore.generation s = (Parts.committed s).generation := by
  cases variant <;> rfl

theorem read_eq (s : Store variant) (handle : ObjectHandle) (offset : Nat) (output : Bytes) :
    TransactionalStore.read s handle offset output =
      (Parts.committed s).read handle offset output := by
  cases variant <;> rfl

theorem lookup_eq (s : Store variant) (name : Name) :
    TransactionalStore.lookup s name = (Parts.committed s).lookup name := by
  cases variant <;> rfl

theorem readSnapshot_eq (s : Store variant) (id : SnapshotId) (handle : ObjectHandle) (offset : Nat)
    (output : Bytes) :
    TransactionalStore.readSnapshot s id handle offset output =
      ((Parts.snapshots s).state id).bind fun state => state.read handle offset output := by
  cases variant <;> rfl

/-- With nothing pending and no transaction, `recover` does nothing. -/
theorem Shows.recover_quiet (h : Shows s v) (hp : v.pending = .nothing) (ha : v.active = none)
    (hf : v.fault = .none) :
    TransactionalStore.recover s = (.ok ⟨v.committed.generation, false, 0, false⟩, s) := by
  cases variant with
  | cow =>
    have hrep : CowStore.Rep s v := h.rep
    have ha' : CowStore.active s = none := hrep.active.trans ha
    have hf' : CowStore.fault s = .none := hrep.fault.trans hf
    refine (hrep.recover_nothing h.sound hp).trans ?_
    rw [← ha', ← hf']
    rfl
  | wal =>
    have hrep : WalStore.Rep s v := h.rep
    have ha' : WalStore.active s = none := hrep.active.trans ha
    have hf' : WalStore.fault s = .none := hrep.fault.trans hf
    refine (WalStore.recover_empty (hrep.log_eq_nil ha hp)).trans ?_
    rw [← ha', ← hf', ← hrep.base]
    rfl

end Shows

/-! ## 3. What a reply says -/

section Inversion

variable {variant : VariantId} {v v' : View} {transaction : TransactionId} {now : Tick}
  {durability : Durability}

/-- `recover` has no deviations. -/
theorem Moves.recover_eq {seen : Seen} (h : Moves variant v .recover seen v') :
    v' = v.recover ∧ seen = .recovered (.ok v.recover.committed.generation) := by
  cases h with
  | ideal => exact ⟨rfl, rfl⟩

/-- A commit that was interrupted. -/
theorem Changed.of_interrupted {fault : FaultPoint}
    (h : Changed v (.commit transaction now durability) (.receipt (.error (.interrupted fault))) v') :
    ∃ w pending, v.active = some w ∧ w.id = transaction ∧ fault = v.fault ∧ v.Leaves w pending ∧
      v' = { v with pending := pending, active := none, fault := .none } := by
  cases h with
  | refused _ _ e he hi =>
    cases he
    exact absurd rfl (hi fault)
  | looked _ _ hl => cases hl
  | interrupted _ _ w ha pending hp => exact ⟨w, pending, ha, rfl, rfl, hp, rfl⟩

/-- A commit that succeeded. -/
theorem Changed.of_published {r : Generation × UInt64}
    (h : Changed v (.commit transaction now durability) (.receipt (.ok r)) v') :
    ∃ w, v.active = some w ∧ w.id = transaction ∧
      v' = { v with committed := v.candidate w, pending := .nothing, active := none } := by
  cases h with
  | refused _ _ e he hi => cases he
  | looked _ _ hl => cases hl
  | published _ _ w ha hf => exact ⟨w, ha, rfl, rfl⟩

/-- Only `recover` and a commit that succeeds change the committed state. -/
theorem Changed.committed_eq {c : Call} {seen : Seen} (h : Changed v c seen v') (hc : c ≠ .recover)
    (hok : ∀ r, seen ≠ .receipt (.ok r)) : v'.committed = v.committed := by
  cases h with
  | published now durability w ha hf => exact absurd rfl (hok _)
  | recovered => exact absurd rfl hc
  | _ => rfl

/-- Metadata is corrupted by `corrupt_pending_metadata` only. -/
theorem Changed.untampered {c : Call} {seen : Seen} (h : Changed v c seen v')
    (hc : c ≠ .corruptPendingMetadata) (ht : v.tampered = false) : v'.tampered = false := by
  cases h with
  | corrupted r pending hp hr => exact absurd rfl hc
  | recovered => rfl
  | _ => exact ht

end Inversion

/-- The errors of the check of a transaction. -/
def Error.ofCheck : Error → Bool
  | .noActiveTransaction | .staleTransaction | .deadlineExceeded | .cancelled => true
  | _ => false

theorem View.check_error {v : View} {transaction : TransactionId} {now : Tick} {e : Error}
    (h : v.check transaction now = .error e) : e.ofCheck = true := by
  unfold View.check at h
  cases ha : v.active with
  | none =>
    rw [ha] at h
    cases h
    rfl
  | some w =>
    rw [ha] at h
    have hcheck : w.check transaction now = .error e := h
    unfold WorkingTransaction.check at hcheck
    split at hcheck
    · cases hcheck
      rfl
    · split at hcheck
      · cases hcheck
        rfl
      · split at hcheck
        · cases hcheck
          rfl
        · cases hcheck

/-- **What an operation of a store returns**: the error of the check, that of the log, or what the
operation on the working state returns. -/
theorem Shows.mutate_cases {variant : VariantId} {s : Store variant} {v : View} (h : Shows s v)
    (transaction : TransactionId) (now : Tick) (m : Mutation) :
    (∃ e : Error, e.ofCheck = true ∧ v.check transaction now = .error e ∧
        (m.run s transaction now).1 = .error e) ∨
      ∃ w, v.active = some w ∧ w.id = transaction ∧ v.check transaction now = .ok () ∧
        ((m.run s transaction now).1 = (m.apply v.config w.state).1 ∨
          (m.run s transaction now).1 = .error .walFull ∧
            ∃ r, (m.apply v.config w.state).1 = .ok r) := by
  obtain ⟨v', -, hmove⟩ := h.step (.mutate transaction now m)
  have hmove' : Moves variant v (.mutate transaction now m)
      (.mutated (m.run s transaction now).1) v' := hmove
  generalize (m.run s transaction now).1 = r at hmove'
  generalize hseen : Seen.mutated r = seen at hmove'
  have hmutate : ∀ w, v.active = some w → v.check transaction now = .ok () →
      (v.mutate transaction now m).1 = (m.apply v.config w.state).1 := by
    intro w ha hc
    unfold View.mutate
    rw [hc, attempt_ok, ha, okOr_some, attempt_ok]
  rcases v.check_cases transaction now with ⟨e, -, hc⟩ | ⟨w, ha, hid, hc⟩
  · have hrefused : (v.mutate transaction now m).1 = .error e := by
      unfold View.mutate
      rw [hc, attempt_error]
    cases hmove' with
    | full _ _ _ hw r' hm => cases hrefused.symm.trans hm
    | ideal =>
      have hr : r = (v.mutate transaction now m).1 := Seen.mutated.inj hseen
      exact Or.inl ⟨e, v.check_error hc, hc, hr.trans hrefused⟩
  · refine Or.inr ⟨w, ha, hid, hc, ?_⟩
    cases hmove' with
    | full _ _ _ hw r' hm =>
      cases hseen
      exact Or.inr ⟨rfl, r', (hmutate w ha hc).symm.trans hm⟩
    | ideal =>
      have hr : r = (v.mutate transaction now m).1 := Seen.mutated.inj hseen
      exact Or.inl (hr.trans (hmutate w ha hc))

theorem Reply.seen_receipt_ok {reply : Reply} {r : Generation × UInt64}
    (h : reply.seen = .receipt (.ok r)) : ∃ receipt, reply = .receipt (.ok receipt) := by
  cases reply with
  | receipt x =>
    cases x with
    | error e => cases h
    | ok receipt => exact ⟨receipt, rfl⟩
  | _ => cases h

theorem Reply.seen_interrupted {reply : Reply} {fault : FaultPoint}
    (h : reply.seen = .receipt (.error (.interrupted fault))) :
    reply = .receipt (.error (.interrupted fault)) := by
  cases reply with
  | receipt x =>
    cases x with
    | error e =>
      cases h
      rfl
    | ok receipt => cases h
  | _ => cases h

section Untampered

variable {variant : VariantId} {s : Store variant} {v : View}

/-- A run without `corrupt_pending_metadata`. -/
theorem Shows.untampered (h : Shows s v) (ht : v.tampered = false) (calls : List Call)
    (hno : Call.corruptPendingMetadata ∉ calls) :
    ∃ v', Shows (runCalls s calls) v' ∧ v'.tampered = false := by
  refine h.run (P := fun _ u => u.tampered = false) ht calls ?_
  intro pre c post hcalls u u' hu hP hmove
  refine (hmove.changed hu.sound).untampered ?_ hP
  rintro rfl
  exact hno (hcalls ▸ List.mem_append_right pre List.mem_cons_self)

end Untampered

/-! ## 4. Runs of the ideal store -/

/-- The view after a list of calls. -/
def View.run (variant : VariantId) (v : View) (calls : List Call) : View :=
  calls.foldl (fun v c => (v.step variant c).2) v

/-- A call that the copy-on-write store answers as the ideal store does. -/
def Call.regular : Call → Bool
  | .gc _ | .corruptPendingMetadata => false
  | _ => true

theorem Moves.cow_regular {v v' : View} {c : Call} {seen : Seen} (h : Moves .cow v c seen v')
    (hc : c.regular = true) : seen = (v.step .cow c).1 ∧ v' = (v.step .cow c).2 := by
  cases h with
  | ideal => exact ⟨rfl, rfl⟩
  | recoveryRequired _ _ hw => cases hw
  | full _ _ _ hw => cases hw
  | commitFull _ _ _ hw => cases hw
  | untrusted _ _ _ hw => cases hw
  | reclaimed => cases hc
  | corrupted => cases hc

/-- A run of the copy-on-write store is a run of the ideal store. -/
theorem Shows.cow_run : ∀ {calls : List Call} {s : Store .cow} {v : View}, Shows s v →
    calls.all Call.regular = true → Shows (runCalls s calls) (v.run .cow calls) := by
  intro calls
  induction calls with
  | nil => exact fun h _ => h
  | cons c calls ih =>
    intro s v h hall
    rw [List.all_cons, Bool.and_eq_true] at hall
    obtain ⟨v', hv', hmove⟩ := h.step c
    rw [(hmove.cow_regular hall.1).2] at hv'
    exact ih hv' hall.2

theorem Shows.cow_seen {s : Store .cow} {v : View} (h : Shows s v) {c : Call}
    (hc : c.regular = true) : (c.run s).1.seen = (v.step .cow c).1 := by
  obtain ⟨v', -, hmove⟩ := h.step c
  exact (hmove.cow_regular hc).1

/-- A configuration with room for all objects. -/
def roomy : Config := ⟨1024, 64, by decide, by decide, by decide⟩

end AegisShield.Storage
