/-
# Tokens are single-use, while the version grows

A token names the state version it is for, and an accepted token leads to a transition, which
increments the version: as long as the version only grows, no token is accepted twice.  A
constructor that does not restore the state file starts again at version 1, without the nonces, so
a token that was accepted before is then good for a second time until it expires
(`token_accepted_twice`).

A device accepts no token twice in a life in which every constructor restores the file that the
engine before it wrote, or comes after the expiry of all tokens accepted so far
(`tokens_are_single_use`).  Behind a constructor of the second kind only their expiry stands in the
way of the old tokens, so that no call may then be given a time before the wall clock.
-/
import AegisShield.Engine.Runs
import Mathlib.Order.Monotone.Basic

namespace AegisShield

open Lib Relation

variable {W : World}

/-! ## 1. Time passes -/

section Ticks

theorem Sys.audit_ticks (s : Sys W) (event : String) (details : Dict W.R.Value) :
    s.ticks ≤ (s.audit event details).ticks := Nat.le_add_right _ _

theorem Sys.saveState_ticks (s : Sys W) : s.ticks ≤ s.saveState.ticks := by
  have h : s.pruned.ticks ≤ s.saveState.ticks := Nat.le_add_right _ _
  exact le_trans (Nat.le_succ s.ticks) h

theorem Sys.enterFault_ticks (s : Sys W) (reason : String) :
    s.ticks ≤ (s.enterFault reason).ticks := by
  rw [enterFault_eq]
  exact le_trans (Sys.audit_ticks (s.entering .fault) _ _) (Sys.saveState_ticks _)

theorem Sys.transition_ticks {s : Sys W} {target : AegisState}
    (h : target ∈ s.engine.state.allowed) (reason : String) :
    s.ticks ≤ (s.transition target reason).2.ticks := by
  rw [transition_eq h]
  exact le_trans (Sys.audit_ticks (s.entering target) _ _) (Sys.saveState_ticks _)

theorem Part.ticks {s s' : Sys W} (hpart : Part s s') : s.ticks ≤ s'.ticks := by
  cases hpart with
  | observe analyzer readings => exact Nat.le_add_right _ _
  | audit hevent hwf => exact s.audit_ticks _ _
  | journal hstate hprepare => exact le_refl _
  | compact name hstate => exact le_of_eq (s.compactFiles_frame name).2.2.symm
  | save ha =>
    rename_i e
    exact Sys.saveState_ticks { s with engine := e }

theorem Parts.ticks {s m : Sys W} (hparts : Parts s m) : s.ticks ≤ m.ticks := by
  induction hparts with
  | refl => exact le_refl _
  | tail _ hpart ih => exact le_trans ih hpart.ticks

theorem EngineCall.ticks (s : Sys W) (c : EngineCall) : s.ticks ≤ (c.run s).2.ticks := by
  obtain ⟨m, hparts, hends⟩ := c.parts s
  have hm := hparts.ticks
  generalize (c.run s).2 = s' at hends ⊢
  cases hends with
  | here => exact hm
  | transition reason ha hallowed hfault hmaintenance =>
    rename_i e target
    have hallowed' := ha.allowed hallowed
    exact le_trans hm (Sys.transition_ticks hallowed' reason)

end Ticks

/-! ## 2. Constructors on any files -/

section Constructor

/-- Values found in a dumpable `dict` can be dumped. -/
theorem wf_get {R : Runtime} {kvs : Dict R.Value} (h : (Json.obj kvs).Wf) (key : String)
    {default : R.Value} (hdefault : default.Wf) : ((kvs.get key).getD default).Wf := by
  cases hget : kvs.get key with
  | none => exact hdefault
  | some v =>
    obtain ⟨l₁, l₂, heq, -⟩ := List.lookup_eq_some_iff.mp hget
    exact Json.wfMembers_iff.mp h.2 (key, v) (by rw [heq]; simp)

theorem mapM_keys {R : Runtime} : ∀ {kvs : Dict R.Value} {nonces : Dict Int},
    kvs.mapM (fun kv => do return (kv.1, ← pyInt kv.2)) = .ok nonces →
      nonces.map Prod.fst = kvs.map Prod.fst
  | [], nonces, h => by
    cases h
    rfl
  | kv :: kvs, nonces, h => by
    rw [List.mapM_cons] at h
    obtain ⟨n, hn, h⟩ := bind_eq_ok.mp h
    obtain ⟨rest, hrest, h⟩ := bind_eq_ok.mp h
    obtain ⟨e, -, hn⟩ := bind_eq_ok.mp hn
    cases h
    cases hn
    rw [List.map_cons, List.map_cons, mapM_keys hrest]

theorem sorted_iff_keys {α : Type} {d : Dict α} :
    d.Sorted ↔ (d.map Prod.fst).Pairwise (· < ·) := List.pairwise_map.symm

/-- Whatever `_prune_nonces` returns can be dumped. -/
theorem pruneNonces_sorted {R : Runtime} {v : R.Value} (hv : v.Wf) {current : Int}
    {nonces : Dict Int} (h : pruneNonces current v = .ok nonces) : nonces.Sorted := by
  have hempty : Dict.Sorted ([] : Dict Int) := List.Pairwise.nil
  cases v with
  | obj kvs =>
    obtain ⟨all, hall, h⟩ := bind_eq_ok.mp h
    cases h
    have hsorted : Dict.Sorted all := by
      rw [sorted_iff_keys, mapM_keys hall, ← sorted_iff_keys]
      exact hv.1
    exact Dict.Sorted.pruneDict hsorted current
  | arr xs =>
    obtain ⟨names, -, h⟩ := bind_eq_ok.mp h
    cases h
    exact run_invariant (I := fun d : Dict Int => d.Sorted) hempty names
      fun _ _ _ hd => Dict.sorted_set hd
  | null => cases h; exact hempty
  | bool b => cases h; exact hempty
  | int i => cases h; exact hempty
  | float x => cases h; exact hempty
  | str t => cases h; exact hempty

/-- The version in a payload. -/
def payloadVersion {R : Runtime} (kvs : Dict R.Value) : Except Raised Int := do
  pyInt (← getItem kvs "state_version")

/-- **Restoring takes over the version**, whatever else the file holds. -/
theorem Sys.restore_version {s s' : Sys W} {kvs : Dict W.R.Value} (hwf : (Json.obj kvs).Wf)
    (h : s.restore kvs = .ok s') :
    payloadVersion kvs = .ok s'.engine.stateVersion ∧ s'.engine.Sound ∧
      s'.disk.state = s.disk.state ∧ s.ticks ≤ s'.ticks := by
  obtain ⟨value, -, h⟩ := bind_eq_ok.mp h
  obtain ⟨state, -, h⟩ := bind_eq_ok.mp h
  obtain ⟨versionValue, hget, h⟩ := bind_eq_ok.mp h
  obtain ⟨version, hversion, h⟩ := bind_eq_ok.mp h
  obtain ⟨nonces, hnonces, h⟩ := bind_eq_ok.mp h
  cases h
  have hempty : (Json.obj [] : W.R.Value).Wf := ⟨List.Pairwise.nil, trivial⟩
  refine ⟨bind_eq_ok.mpr ⟨versionValue, hget, hversion⟩, ⟨?_, ?_, ?_⟩, rfl, ?_⟩
  · exact wf_get hwf _ trivial
  · exact wf_get hwf _ trivial
  · exact pruneNonces_sorted (wf_get hwf _ hempty) hnonces
  · exact le_trans (Nat.le_succ s.ticks) (Nat.le_add_right _ _)

/-- The constructor trusts the state file it finds. -/
def Accepts (W : World) (ticks : Nat) (d : Disk) : Prop :=
  ∃ journal dir s kvs, DurableJournal.init W.R d.root.toDir = .ok (journal, dir) ∧
    AegisEngine.bringUp W ticks journal { d with root := { d.root with toDir := dir } } = .ok s ∧
    loadState W.R s.disk.state (s.disk.audit.active.getD []) = .ok (some kvs, none)

/-- The same, as a test. -/
def accepts (W : World) (ticks : Nat) (d : Disk) : Bool :=
  match DurableJournal.init W.R d.root.toDir with
  | .error _ => false
  | .ok (journal, dir) =>
    match AegisEngine.bringUp W ticks journal { d with root := { d.root with toDir := dir } } with
    | .error _ => false
    | .ok s =>
      match loadState W.R s.disk.state (s.disk.audit.active.getD []) with
      | .ok (some _, none) => true
      | _ => false

theorem accepts_iff {ticks : Nat} {d : Disk} : accepts W ticks d = true ↔ Accepts W ticks d := by
  unfold accepts Accepts
  cases DurableJournal.init W.R d.root.toDir with
  | error e => simp
  | ok opened =>
    obtain ⟨journal, dir⟩ := opened
    simp only [Except.ok.injEq, Prod.mk.injEq]
    cases hup : AegisEngine.bringUp W ticks journal { d with root := { d.root with toDir := dir } } with
    | error e =>
      constructor
      · intro h
        cases h
      · rintro ⟨journal', dir', s, kvs, ⟨rfl, rfl⟩, hup', -⟩
        cases hup.symm.trans hup'
    | ok s =>
      constructor
      · intro h
        simp only at h
        split at h
        · rename_i kvs hload
          exact ⟨journal, dir, s, kvs, ⟨rfl, rfl⟩, hup, hload⟩
        · cases h
      · rintro ⟨journal', dir', s', kvs, ⟨rfl, rfl⟩, hup', hload⟩
        obtain rfl : s = s' := Except.ok.inj (hup.symm.trans hup')
        simp only [hload]

instance (ticks : Nat) (d : Disk) : Decidable (Accepts W ticks d) :=
  decidable_of_iff (accepts W ticks d = true) accepts_iff

/-- Opening the audit log leaves the state file alone. -/
theorem bringUp_frame {ticks : Nat} {journal : DurableJournal} {d : Disk} {s : Sys W}
    (h : AegisEngine.bringUp W ticks journal d = .ok s) :
    s.disk.state = d.state ∧ s.engine.Sound ∧ ticks ≤ s.ticks ∧
      s.engine.state = .bootSelftest := by
  obtain ⟨lastHash, -, h⟩ := bind_eq_ok.mp h
  cases h
  unfold Sys.noteTail
  split
  · exact ⟨rfl, Engine.initial_sound _ _, le_refl _, rfl⟩
  · exact ⟨rfl, ⟨trivial, trivial, List.Pairwise.nil⟩, Nat.le_add_right _ _, rfl⟩

theorem loadState_some {R : Runtime} {state : Option Bytes} {file : Bytes} {kvs : Dict R.Value}
    (h : loadState R state file = .ok (some kvs, none)) :
    ∃ raw, state = some raw ∧ readState R raw = .ok kvs := by
  unfold loadState at h
  cases state with
  | none =>
    obtain ⟨recorded, -, h⟩ := bind_eq_ok.mp h
    split at h <;> cases h
  | some raw =>
    refine ⟨raw, rfl, ?_⟩
    simp only at h
    split at h
    · cases h
    · rename_i kvs' hkvs
      obtain ⟨recorded, -, h⟩ := bind_eq_ok.mp h
      split at h
      · split at h
        · cases h
          exact hkvs
        · cases h
      · split at h
        · cases h
        · cases h
          exact hkvs

/-- **What a constructor does about the version**, on any files. -/
theorem reopen_version {ticks : Nat} {d : Disk} {s' : Sys W} (h : reopen W ticks d = .ok s') :
    ticks ≤ s'.ticks ∧ s'.engine.Sound ∧ (Accepts W ticks d → ∃ raw kvs, d.state = some raw ∧
      readState W.R raw = .ok kvs ∧ payloadVersion kvs = .ok s'.engine.stateVersion ∧
      s'.disk.state = d.state) := by
  obtain ⟨⟨journal, dir⟩, hinit, h⟩ := bind_eq_ok.mp h
  obtain ⟨s, hup, h⟩ := bind_eq_ok.mp h
  obtain ⟨hstate, hsound, hticks, hboot⟩ := bringUp_frame hup
  obtain ⟨verdict, hload, h⟩ := bind_eq_ok.mp h
  -- the constructor is a function: `Accepts` is about this verdict
  have haccepts : Accepts W ticks d → ∃ kvs, verdict = (some kvs, none) := by
    rintro ⟨journal', dir', s₁, kvs, hinit', hup', hload'⟩
    cases hinit.symm.trans hinit'
    cases hup.symm.trans hup'
    exact ⟨kvs, Except.ok.inj (hload.symm.trans hload')⟩
  have hbytes : s.disk.state = d.state := hstate
  match verdict, h with
  | (some kvs, none), h =>
    obtain ⟨raw, hraw, hread⟩ := loadState_some hload
    obtain ⟨h1, h2, h3, h4⟩ := Sys.restore_version (readState_wf hread).2 h
    refine ⟨le_trans hticks h4, h2, fun _ => ⟨raw, kvs, ?_, hread, h1, h3.trans hbytes⟩⟩
    rw [← hbytes]
    exact hraw
  | (x, some err), h =>
    cases h
    refine ⟨le_trans hticks (Sys.enterFault_ticks _ _),
      Sys.saveState_sound ⟨hsound.1, hsound.2, hsound.3⟩, ?_⟩
    intro hacc
    obtain ⟨kvs, heq⟩ := haccepts hacc
    cases heq
  | (none, none), h =>
    cases h
    have hallowed : AegisState.normal ∈ s.engine.state.allowed := by
      rw [hboot]
      decide
    refine ⟨le_trans hticks (Sys.transition_ticks hallowed _), ?_, ?_⟩
    · rw [Sys.transition_eq hallowed]
      exact Sys.saveState_sound ⟨hsound.1, hsound.2, hsound.3⟩
    · intro hacc
      obtain ⟨kvs, heq⟩ := haccepts hacc
      cases heq

end Constructor

/-! ## 3. Accepted tokens -/

/-- A token and the authorization in it. -/
abbrev Accepted := String × RecoveryAuthorization

/-- The token a call accepts by completing. -/
def EngineCall.accepted (s : Sys W) : EngineCall → Option Accepted
  | .authorizeRecovery token verifier presence now =>
    match (s.authorizeRecovery token verifier presence now).1 with
    | .ok _ => (verifier.authenticate W.R token).map fun a => (token, a)
    | .error _ => none
  | .enterMaintenance token verifier presence now =>
    match (s.enterMaintenance token verifier presence now).1 with
    | .ok _ => (verifier.authenticate W.R token).map fun a => (token, a)
    | .error _ => none
  | _ => none

/-- The `now` a call was given is not before the wall clock. -/
def EngineCall.NotBackdated (s : Sys W) : EngineCall → Prop
  | .authorizeRecovery _ _ _ now => (W.clock.time s.ticks : Int) ≤ s.currentTime now
  | .enterMaintenance _ _ _ now => (W.clock.time s.ticks : Int) ≤ s.currentTime now
  | _ => True

/-- What a token says does not depend on who verifies it. -/
theorem TokenVerifier.openPayload_unique {R : Runtime} {v v' : TokenVerifier}
    {encoded signature : List Char} {a b : RecoveryAuthorization}
    (ha : v.openPayload R encoded signature = some a)
    (hb : v'.openPayload R encoded signature = some b) : a = b := by
  obtain ⟨sig, hsig, ha⟩ := Option.bind_eq_some_iff.mp ha
  obtain ⟨sig', hsig', hb⟩ := Option.bind_eq_some_iff.mp hb
  split at ha
  · split at hb
    · rw [ha] at hb
      exact Option.some.inj hb
    · cases hb
  · cases ha

theorem TokenVerifier.authenticate_unique {R : Runtime} {v v' : TokenVerifier} {token : String}
    {a b : RecoveryAuthorization} (ha : v.authenticate R token = some a)
    (hb : v'.authenticate R token = some b) : a = b := by
  unfold authenticate at ha hb
  split at ha
  · rename_i version encoded signature hsplit
    rw [hsplit] at hb
    simp only at hb
    split at ha
    · rename_i hversion
      rw [if_pos hversion] at hb
      exact openPayload_unique ha hb
    · cases ha
  · cases ha

/-- **What an accepted token was**: genuine, for the version of the time, and not expired as far as
the call knew the time; and the version has grown. -/
theorem EngineCall.accepted_spec {s : Sys W} {c : EngineCall} {t : Accepted}
    (h : c.accepted s = some t) :
    (∃ verifier : TokenVerifier, verifier.authenticate W.R t.1 = some t.2) ∧
      t.2.stateVersion = s.engine.stateVersion ∧
      (c.NotBackdated s → (W.clock.time s.ticks : Int) ≤ t.2.expiresUnix) ∧
      (c.run s).2.engine.stateVersion = s.engine.stateVersion + 1 := by
  cases c with
  | authorizeRecovery token verifier presence now =>
    unfold accepted at h
    simp only at h
    split at h
    · rename_i u hok
      obtain ⟨a, ha, rfl⟩ := Option.map_eq_some_iff.mp h
      obtain ⟨hstate, -, a', target, hverify, -, hrun⟩ := s.authorizeRecovery_ok hok
      -- the verifier has checked the version and the time; the transition then raises the version
      obtain ⟨h1, -, -, h4, -, h6, -⟩ := TokenVerifier.verify_ok hverify
      obtain rfl : a = a' := Option.some.inj (ha.symm.trans h1)
      refine ⟨⟨verifier, ha⟩, h4, fun hnow => le_trans hnow h6, ?_⟩
      have hallowed : AegisState.recoveryReadOnly ∈ s.engine.state.allowed := by
        rw [hstate]
        decide
      have hrun' : (run s (.authorizeRecovery token verifier presence now)).2 = _ := hrun
      rw [hrun', Sys.transition_eq (by exact hallowed)]
      rfl
    · cases h
  | enterMaintenance token verifier presence now =>
    unfold accepted at h
    simp only at h
    split at h
    · rename_i u hok
      obtain ⟨a, ha, rfl⟩ := Option.map_eq_some_iff.mp h
      obtain ⟨hstate, rfl, a', hverify, hnonce⟩ := s.enterMaintenance_ok hok
      obtain ⟨h1, -, -, h4, -, h6, -⟩ := TokenVerifier.verify_ok hverify
      obtain rfl : a = a' := Option.some.inj (ha.symm.trans h1)
      refine ⟨⟨verifier, ha⟩, h4, fun hnow => le_trans hnow h6, ?_⟩
      have hallowed := AegisState.maintenance_allowed hstate
      have hrun : (run s (.enterMaintenance token verifier true now)).2 = _ :=
        congrArg Prod.snd (s.enterMaintenance_eq hstate hverify hnonce)
      rw [hrun, Sys.transition_eq (by exact hallowed)]
      rfl
    · cases h
  | read lba blocks => cases h
  | write lba payload => cases h
  | flush => cases h
  | rejectDestructiveCommand opcode name => cases h
  | exitMaintenance compact => cases h
  | compactJournal label => cases h

/-! ## 4. The life of a device -/

/-- A device, whether its state file is as the last engine left it, the tokens accepted so far, and
whether all engines knew of those accepted before them. -/
structure Usage (W : World) where
  device : Device W
  untouched : Bool
  accepted : List Accepted
  remembered : Bool

/-- A device that has accepted no token yet. -/
def Usage.unused (d : Disk) (ticks : Nat) : Usage W := ⟨.off d ticks, false, [], true⟩

/-- What can happen to a device. -/
inductive TokenOp
  | call (c : EngineCall)
  | stop (pause : Nat)
  /-- A crash after `n` durable steps of a call, which does not complete then. -/
  | crash (c : EngineCall) (n pause : Nat)
  /-- Whatever becomes of the files of a device that is off. -/
  | files (change : Disk → Disk)
  | start

/-- One operation. -/
def TokenOp.step (u : Usage W) (o : TokenOp) : Usage W :=
  match u.device, o with
  | .on s, .call c =>
    { u with device := .on (c.run s).2, accepted := u.accepted ++ (c.accepted s).toList }
  | .on s, .stop pause => { u with device := .off s.disk (s.ticks + pause), untouched := true }
  | .on s, .crash c n pause =>
    { u with device := .off (s.disk.cut (c.effects s) n) (s.ticks + pause), untouched := true }
  | .off d ticks, .files change =>
    { u with device := .off (change d) ticks
             untouched := u.untouched && (change d).state = d.state }
  | .off d ticks, .start =>
    match reopen W ticks d with
    | .ok s =>
      { u with device := .on s
               remembered := u.remembered &&
                 (u.accepted.isEmpty || u.untouched && decide (Accepts W ticks d)) }
    | .error _ => u
  | _, _ => u

theorem TokenOp.step_call {s : Sys W} {c : EngineCall} {untouched remembered : Bool}
    {accepted : List Accepted} :
    TokenOp.step ⟨.on s, untouched, accepted, remembered⟩ (.call c) =
      ⟨.on (c.run s).2, untouched, accepted ++ (c.accepted s).toList, remembered⟩ := rfl

theorem TokenOp.step_start {d : Disk} {ticks : Nat} {s : Sys W} {untouched remembered : Bool}
    {accepted : List Accepted} (h : reopen W ticks d = .ok s) :
    TokenOp.step ⟨.off d ticks, untouched, accepted, remembered⟩ .start =
      ⟨.on s, untouched, accepted,
        remembered && (accepted.isEmpty || untouched && decide (Accepts W ticks d))⟩ := by
  simp only [TokenOp.step, h]

/-- The condition on an operation: an engine comes up on the state file its predecessor left and
trusts it, or when all accepted tokens have expired; and once one has come up in the second way, no
call is given a time in the past. -/
def TokenOp.Sane (u : Usage W) (o : TokenOp) : Prop :=
  match u.device, o with
  | .on s, .call c => u.remembered = true ∨ c.NotBackdated s
  | .off d ticks, .start => (u.untouched = true ∧ Accepts W ticks d) ∨
    ∀ t ∈ u.accepted, t.2.expiresUnix < W.clock.time ticks
  | _, _ => True

/-! ## 5. Single use -/

section SingleUse

/-- The device may have forgotten these tokens, and none of them has been good since the reading
`ticks`. -/
def Expired (W : World) (remembered : Bool) (ticks : Nat) (accepted : List Accepted) : Prop :=
  ∀ t ∈ accepted, remembered = false ∧ t.2.expiresUnix < W.clock.time ticks

/-- No token of the list is good at this version and at this time. -/
def Spent (W : World) (remembered : Bool) (ticks : Nat) (version : Int) (accepted : List Accepted) :
    Prop :=
  ∀ t ∈ accepted, t.2.stateVersion < version ∨
    remembered = false ∧ t.2.expiresUnix < W.clock.time ticks

/-- No token of the list is good for an engine that restores this state file. -/
def SpentIn (W : World) (remembered : Bool) (ticks : Nat) (accepted : List Accepted)
    (file : Option Bytes) : Prop :=
  (∃ p : Saved W.R, file = some p.bytes ∧ Spent W remembered ticks p.stateVersion accepted) ∨
    Expired W remembered ticks accepted

variable {remembered : Bool} {ticks ticks' : Nat} {version version' : Int} {accepted : List Accepted}
  {file : Option Bytes}

theorem Expired.spent (h : Expired W remembered ticks accepted) (version : Int) :
    Spent W remembered ticks version accepted := fun t ht => Or.inr (h t ht)

theorem Expired.later (hclock : Monotone W.clock.time) (hle : ticks ≤ ticks')
    (h : Expired W remembered ticks accepted) : Expired W remembered ticks' accepted := by
  intro t ht
  obtain ⟨hforgotten, h1⟩ := h t ht
  have h2 : (W.clock.time ticks : Int) ≤ W.clock.time ticks' := Int.ofNat_le.mpr (hclock hle)
  exact ⟨hforgotten, by omega⟩

theorem Spent.later (hclock : Monotone W.clock.time) (hle : ticks ≤ ticks')
    (h : Spent W remembered ticks version accepted) : Spent W remembered ticks' version accepted := by
  intro t ht
  have h2 : (W.clock.time ticks : Int) ≤ W.clock.time ticks' := Int.ofNat_le.mpr (hclock hle)
  rcases h t ht with h1 | ⟨hforgotten, h1⟩
  · exact Or.inl h1
  · exact Or.inr ⟨hforgotten, by omega⟩

theorem Spent.grow (hle : version ≤ version') (h : Spent W remembered ticks version accepted) :
    Spent W remembered ticks version' accepted := by
  intro t ht
  rcases h t ht with h1 | h1
  · exact Or.inl (by omega)
  · exact Or.inr h1

theorem SpentIn.later (hclock : Monotone W.clock.time) (hle : ticks ≤ ticks')
    (h : SpentIn W remembered ticks accepted file) : SpentIn W remembered ticks' accepted file := by
  rcases h with ⟨p, hp, hspent⟩ | hexpired
  · exact Or.inl ⟨p, hp, hspent.later hclock hle⟩
  · exact Or.inr (hexpired.later hclock hle)

/-- The tokens are spent for the device. -/
def Device.SpentFor (untouched remembered : Bool) (accepted : List Accepted) : Device W → Prop
  | .on s => s.engine.Sound ∧ Spent W remembered s.ticks s.engine.stateVersion accepted ∧
    SpentIn W remembered s.ticks accepted s.disk.state
  | .off d ticks => untouched = true → SpentIn W remembered ticks accepted d.state

/-- The invariant: accepted tokens are genuine, different, and spent. -/
structure Usage.Sound (u : Usage W) : Prop where
  nodup : (u.accepted.map Prod.fst).Nodup
  genuine : ∀ t ∈ u.accepted, ∃ verifier : TokenVerifier,
    verifier.authenticate W.R t.1 = some t.2
  spent : u.device.SpentFor u.untouched u.remembered u.accepted

/-- A genuine token for the current version, that has not expired where the device may have forgotten
some, is a new one. -/
theorem Spent.fresh {t : Accepted} {verifier : TokenVerifier}
    (h : Spent W remembered ticks version accepted)
    (hgenuine : ∀ t ∈ accepted, ∃ verifier : TokenVerifier,
      verifier.authenticate W.R t.1 = some t.2)
    (ht : verifier.authenticate W.R t.1 = some t.2) (hversion : t.2.stateVersion = version)
    (hexpires : remembered = true ∨ (W.clock.time ticks : Int) ≤ t.2.expiresUnix) :
    t.1 ∉ accepted.map Prod.fst := by
  intro hmem
  obtain ⟨t', ht', hsame⟩ := List.mem_map.mp hmem
  obtain ⟨verifier', hauth⟩ := hgenuine t' ht'
  rw [hsame] at hauth
  have heq : t'.2 = t.2 := TokenVerifier.authenticate_unique hauth ht
  have hspent := h t' ht'
  rw [heq] at hspent
  rcases hspent with hspent | ⟨hforgotten, hspent⟩
  · omega
  · rcases hexpires with hremembered | hexpires
    · rw [hforgotten] at hremembered
      cases hremembered
    · omega

/-- **A call**: the version grows with each accepted token. -/
theorem EngineCall.spent (hclock : Monotone W.clock.time) {s : Sys W} (c : EngineCall)
    (hs : s.engine.Sound) (hspent : Spent W remembered s.ticks s.engine.stateVersion accepted)
    (hfile : SpentIn W remembered s.ticks accepted s.disk.state) :
    (c.run s).2.engine.Sound ∧
      Spent W remembered (c.run s).2.ticks (c.run s).2.engine.stateVersion
        (accepted ++ (c.accepted s).toList) ∧
      SpentIn W remembered (c.run s).2.ticks (accepted ++ (c.accepted s).toList)
        (c.run s).2.disk.state := by
  have hticks := c.ticks s
  have hlater := hspent.later hclock hticks
  obtain ⟨-, hsound, hsettled⟩ := c.emits_state (X := SpentIn W remembered s.ticks accepted) hs
    (fun p _ hv => Or.inl ⟨p, rfl, by rw [hv]; exact hspent⟩) hfile
  cases hacc : c.accepted s with
  | none =>
    rw [Option.toList_none, List.append_nil]
    cases hsettled with
    | same hstate hversion hsame =>
      rw [hversion]
      exact ⟨hsound, hlater, hsame.later hclock hticks⟩
    | moved hstate hversion hs' hmoved =>
      -- the version grew or stayed, so an older token is still not fresh
      have hgrown : Spent W remembered (c.run s).2.ticks (c.run s).2.engine.stateVersion accepted :=
        hlater.grow (by omega)
      exact ⟨hsound, hgrown, Or.inl ⟨_, hmoved, hgrown⟩⟩
  | some t =>
    obtain ⟨-, hversion', -, hgrew⟩ := c.accepted_spec hacc
    have hgrown : Spent W remembered (c.run s).2.ticks (c.run s).2.engine.stateVersion
        (accepted ++ [t]) := by
      intro t' ht'
      rcases List.mem_append.mp ht' with ht' | ht'
      · exact hlater.grow (by omega) t' ht'
      · rw [List.mem_singleton] at ht'
        rw [ht']
        exact Or.inl (by omega)
    rw [Option.toList_some]
    -- a token is accepted only with a transition, and a transition saves the state
    cases hsettled with
    | same hstate hversion hsame => omega
    | moved hstate hversion hs' hmoved => exact ⟨hsound, hgrown, Or.inl ⟨_, hmoved, hgrown⟩⟩

/-- **A crash**: the file is as good as before the call, or as after it. -/
theorem EngineCall.cut_spent {s : Sys W} (c : EngineCall) (n : Nat)
    (hs : s.engine.Sound) (hspent : Spent W remembered s.ticks s.engine.stateVersion accepted)
    (hfile : SpentIn W remembered s.ticks accepted s.disk.state) :
    SpentIn W remembered s.ticks accepted (s.disk.cut (c.effects s) n).state := by
  obtain ⟨hemits, -, hsettled⟩ := c.emits_state (X := SpentIn W remembered s.ticks accepted) hs
    (fun p _ hv => Or.inl ⟨p, rfl, by rw [hv]; exact hspent⟩) hfile
  rcases hemits.cut n with ⟨e, -, hcut⟩ | hend
  · exact hcut
  · have hdisk : s.disk.cut (c.effects s) n = (c.run s).2.disk := hend
    rw [hdisk]
    cases hsettled with
    | same hstate hversion hsame => exact hsame
    | moved hstate hversion hs' hmoved =>
      have hgrown : Spent W remembered s.ticks (c.run s).2.engine.stateVersion accepted :=
        hspent.grow (by omega)
      exact Or.inl ⟨_, hmoved, hgrown⟩

/-- **A constructor**, on a file that is trusted or late enough. -/
theorem reopen_spent (hclock : Monotone W.clock.time) {d : Disk} {s : Sys W}
    (hopen : reopen W ticks d = .ok s)
    (hsane : SpentIn W remembered ticks accepted d.state ∧ Accepts W ticks d ∨
      Expired W remembered ticks accepted) :
    s.engine.Sound ∧ Spent W remembered s.ticks s.engine.stateVersion accepted ∧
      SpentIn W remembered s.ticks accepted s.disk.state := by
  obtain ⟨hticks, hsound, hversion⟩ := reopen_version hopen
  have hlate : Expired W remembered ticks accepted → s.engine.Sound ∧
      Spent W remembered s.ticks s.engine.stateVersion accepted ∧
      SpentIn W remembered s.ticks accepted s.disk.state := by
    intro hexpired
    have h := hexpired.later hclock hticks
    exact ⟨hsound, h.spent _, Or.inr h⟩
  rcases hsane with ⟨hfile, haccepts⟩ | hexpired
  · rcases hfile with ⟨p, hp, hspent⟩ | hexpired
    · obtain ⟨raw, kvs, hraw, hread, hv, hsame⟩ := hversion haccepts
      obtain rfl : raw = p.bytes := Option.some.inj (hraw.symm.trans hp)
      obtain rfl : kvs = p.payload := Except.ok.inj (hread.symm.trans p.readState_bytes)
      have hpv : payloadVersion p.payload = .ok p.stateVersion := rfl
      have heq : s.engine.stateVersion = p.stateVersion := Except.ok.inj (hv.symm.trans hpv)
      have h := hspent.later hclock hticks
      refine ⟨hsound, ?_, Or.inl ⟨p, hsame.trans hp, h⟩⟩
      rw [heq]
      exact h
    · exact hlate hexpired
  · exact hlate hexpired

theorem Usage.Sound.call (hclock : Monotone W.clock.time) {s : Sys W} {untouched remembered : Bool}
    {accepted : List Accepted} {c : EngineCall}
    (hsane : (TokenOp.call c).Sane ⟨.on s, untouched, accepted, remembered⟩)
    (h : Usage.Sound ⟨.on s, untouched, accepted, remembered⟩) :
    (TokenOp.step ⟨.on s, untouched, accepted, remembered⟩ (.call c)).Sound := by
  obtain ⟨hnodup, hgenuine, hs, hversion, hfile⟩ := h
  have hnext := c.spent hclock hs hversion hfile
  cases hacc : c.accepted s with
  | none =>
    rw [hacc] at hnext
    simp only [TokenOp.step, hacc, Option.toList_none, List.append_nil] at hnext ⊢
    exact ⟨hnodup, hgenuine, hnext⟩
  | some t =>
    -- the token names the current version, so no token accepted before is the same
    obtain ⟨⟨verifier, hauth⟩, hv, hexpires, -⟩ := c.accepted_spec hacc
    have hnew := hversion.fresh hgenuine hauth hv (hsane.imp_right hexpires)
    rw [hacc] at hnext
    simp only [TokenOp.step, hacc, Option.toList_some] at hnext ⊢
    refine ⟨?_, ?_, hnext⟩
    · simp only [List.map_append, List.map_singleton]
      refine List.nodup_append.mpr ⟨hnodup, List.nodup_singleton _, ?_⟩
      rintro x hx y hy rfl
      rw [List.mem_singleton] at hy
      rw [hy] at hx
      exact hnew hx
    · intro t' ht'
      rcases List.mem_append.mp ht' with ht' | ht'
      · exact hgenuine t' ht'
      · rw [List.mem_singleton] at ht'
        rw [ht']
        exact ⟨verifier, hauth⟩

theorem Usage.Sound.start (hclock : Monotone W.clock.time) {d : Disk} {ticks : Nat}
    {untouched remembered : Bool} {accepted : List Accepted}
    (hsane : TokenOp.start.Sane (⟨.off d ticks, untouched, accepted, remembered⟩ : Usage W))
    (h : Usage.Sound (⟨.off d ticks, untouched, accepted, remembered⟩ : Usage W)) :
    (TokenOp.step (⟨.off d ticks, untouched, accepted, remembered⟩ : Usage W) .start).Sound := by
  obtain ⟨hnodup, hgenuine, hspent⟩ := h
  cases hopen : reopen W ticks d with
  | error e =>
    simp only [TokenOp.step, hopen]
    exact ⟨hnodup, hgenuine, hspent⟩
  | ok s =>
    simp only [TokenOp.step, hopen]
    refine ⟨hnodup, hgenuine, ?_⟩
    -- a trusted file still holds the nonces; after any other start every accepted token is
    -- past its time
    by_cases htrusted : untouched = true ∧ Accepts W ticks d
    · obtain ⟨huntouched, haccepts⟩ := htrusted
      have hsame : (remembered && (accepted.isEmpty || untouched && decide (Accepts W ticks d))) =
          remembered := by
        rw [huntouched, decide_eq_true haccepts, Bool.and_true, Bool.or_true, Bool.and_true]
      rw [hsame]
      exact reopen_spent hclock hopen (Or.inl ⟨hspent huntouched, haccepts⟩)
    · have hexpired := hsane.resolve_left htrusted
      refine reopen_spent hclock hopen (Or.inr fun t ht => ⟨?_, hexpired t ht⟩)
      have hsome : accepted.isEmpty = false := by
        cases accepted with
        | nil => cases ht
        | cons t' accepted => rfl
      have hforgotten : (untouched && decide (Accepts W ticks d)) = false := by
        rw [← Bool.not_eq_true, Bool.and_eq_true, decide_eq_true_iff]
        exact htrusted
      rw [hsome, hforgotten, Bool.or_false, Bool.and_false]

/-- **One operation.** -/
theorem Usage.Sound.step (hclock : Monotone W.clock.time) {u : Usage W} {o : TokenOp}
    (hsane : o.Sane u) (h : u.Sound) : (TokenOp.step u o).Sound := by
  obtain ⟨device, untouched, accepted, remembered⟩ := u
  cases device with
  | on s =>
    obtain ⟨hs, hversion, hfile⟩ := h.spent
    cases o with
    | call c => exact h.call hclock hsane
    | stop pause => exact ⟨h.nodup, h.genuine, fun _ => hfile.later hclock (Nat.le_add_right _ _)⟩
    | crash c n pause =>
      have hcut := c.cut_spent n hs hversion hfile
      exact ⟨h.nodup, h.genuine, fun _ => hcut.later hclock (Nat.le_add_right _ _)⟩
    | files change => exact h
    | start => exact h
  | off d ticks =>
    cases o with
    | call c => exact h
    | stop pause => exact h
    | crash c n pause => exact h
    | files change =>
      refine ⟨h.nodup, h.genuine, ?_⟩
      intro htouched
      simp only [TokenOp.step, Bool.and_eq_true, decide_eq_true_eq] at htouched
      obtain ⟨huntouched, hsame⟩ := htouched
      have hfile := h.spent huntouched
      rw [← hsame] at hfile
      exact hfile
    | start => exact h.start hclock hsane

/-- **No token is accepted twice** in a life whose operations meet the condition, whatever the
files were that it started with. -/
theorem tokens_are_single_use (hclock : Monotone W.clock.time) (d : Disk) (ticks : Nat)
    {ops pre : List TokenOp}
    (hsane : Along TokenOp.step (fun u o => o.Sane u) (Usage.unused d ticks : Usage W) ops)
    (hpre : pre <+: ops) :
    ((pre.foldl TokenOp.step (Usage.unused d ticks : Usage W)).accepted.map Prod.fst).Nodup := by
  have hstart : (Usage.unused d ticks : Usage W).Sound :=
    ⟨List.nodup_nil, (by intro t ht; cases ht), (by intro h; cases h)⟩
  exact (run_along_initial (I := Usage.Sound) (fun _ _ hs h => h.step hclock hs) hstart hsane
    hpre).nodup

/-! ## 6. A token accepted twice -/

/-- The authorization to enter MAINTENANCE at a version. -/
def serviceAt (nonce : String) (version : Int) : RecoveryAuthorization :=
  ⟨"enter_maintenance", "dev", 600, 0, nonce, version, none⟩

/-- An authorization to enter MAINTENANCE at version 1. -/
def serviceAuthorization : RecoveryAuthorization :=
  ⟨"enter_maintenance", "dev", 600, 0, "n-1", 1, none⟩

/-- A key whose signature of a message is the message. -/
def serviceKey : TokenVerifier := ⟨fun signature message => signature = message⟩

/-- The token. -/
def serviceToken : String := signAuthorization World.quiet.R id serviceAuthorization

theorem serviceToken_authentic :
    serviceKey.authenticate World.quiet.R serviceToken = some serviceAuthorization :=
  authenticate_sign (fun _ => decide_eq_true rfl) serviceAuthorization

/-- The call that presents a token. -/
abbrev service (token : String) : EngineCall := .enterMaintenance token serviceKey true none

section Service

variable {token nonce : String} {version : Int} {s : Sys World.quiet}

/-- **The token is accepted** by an engine at its version that does not know the nonce, which goes on
to the next version. -/
theorem service_accepted
    (hauth : serviceKey.authenticate World.quiet.R token = some (serviceAt nonce version))
    (hstate : s.engine.state ∈ AegisState.maintenanceEntry)
    (hversion : s.engine.stateVersion = version)
    (hnonce : (s.engine.usedNonces.get nonce).isSome = false)
    (hdevice : s.engine.journal.deviceId = "dev") :
    (service token).accepted s = some (token, serviceAt nonce version) ∧
      ((service token).run s).2.engine.state = .maintenance ∧
      ((service token).run s).2.engine.stateVersion = version + 1 ∧
      ((service token).run s).2.engine.usedNonces =
        pruneDict 0 (pruneDict 0 (s.engine.usedNonces.set nonce 600)) ∧
      ((service token).run s).2.engine.journal.deviceId = "dev" := by
  have hverify : serviceKey.verify World.quiet.R token s.engine.journal.deviceId
      "enter_maintenance" s.engine.stateVersion (s.currentTime none) =
        .ok (serviceAt nonce version) := by
    have hnow : s.currentTime none = 0 := rfl
    have hissued : (0 : Int) ≤ 0 + 60 := by decide
    have hexpires : (0 : Int) ≤ 600 := by decide
    have hlifetime : (600 : Int) - 0 ≤ 900 := by decide
    rw [hdevice, hversion, hnow]
    exact TokenVerifier.verify_of_authenticate hauth 0 hissued hexpires hlifetime
  have hallowed := AegisState.maintenance_allowed hstate
  have hmaintenance := s.enterMaintenance_eq hstate hverify hnonce
  have hok : (s.enterMaintenance token serviceKey true none).1 = .ok () := by
    rw [hmaintenance]
    exact Sys.transition_ok (by exact hallowed) _
  have hrun : ((service token).run s).2 = _ :=
    (congrArg Prod.snd hmaintenance).trans (Sys.transition_eq (by exact hallowed) _)
  refine ⟨?_, ?_, ?_, ?_, ?_⟩
  · simp only [EngineCall.accepted, hok, hauth, Option.map_some]
  · rw [hrun]
    rfl
  · rw [hrun, ← hversion]
    rfl
  · rw [hrun]
    rfl
  · rw [hrun]
    exact hdevice

/-- A token for another version is refused, and the engine stays as it is. -/
theorem service_refused
    (hauth : serviceKey.authenticate World.quiet.R token = some (serviceAt nonce version))
    (hstate : s.engine.state ∈ AegisState.maintenanceEntry)
    (hversion : s.engine.stateVersion ≠ version) :
    (service token).accepted s = none ∧ ((service token).run s).2.engine = s.engine := by
  cases hverify : serviceKey.verify World.quiet.R token s.engine.journal.deviceId
      "enter_maintenance" s.engine.stateVersion (s.currentTime none) with
  | ok a =>
    obtain ⟨hsame, -, -, hcurrent, -⟩ := TokenVerifier.verify_ok hverify
    obtain rfl := Option.some.inj (hauth.symm.trans hsame)
    exact absurd hcurrent.symm hversion
  | error e =>
    have hrun : s.enterMaintenance token serviceKey true none = (.error e, s.tick) := by
      unfold Sys.enterMaintenance
      rw [if_neg (not_not.mpr hstate), hverify]
      rfl
    have hcall : (service token).run s = (.error e, s.tick) := hrun
    refine ⟨?_, by rw [hcall]; rfl⟩
    simp only [EngineCall.accepted, hrun]

/-- The service ends. -/
theorem service_ended (hstate : s.engine.state = .maintenance) :
    ((EngineCall.exitMaintenance false).run s).2.engine.state = .normal ∧
      ((EngineCall.exitMaintenance false).run s).2.engine.stateVersion = s.engine.stateVersion + 1 ∧
      ((EngineCall.exitMaintenance false).run s).2.engine.usedNonces =
        pruneDict 0 s.engine.usedNonces ∧
      ((EngineCall.exitMaintenance false).run s).2.engine.journal.deviceId =
        s.engine.journal.deviceId := by
  have hallowed : AegisState.normal ∈ s.engine.state.allowed := by
    rw [hstate]
    decide
  have hexit : s.exitMaintenance false = s.leaveMaintenance none := by
    rw [Sys.exitMaintenance, if_neg (not_not.mpr hstate)]
    rfl
  have hrun : ((EngineCall.exitMaintenance false).run s).2 = _ :=
    (congrArg Prod.snd hexit).trans (Sys.transition_eq (by exact hallowed) _)
  rw [hrun]
  exact ⟨rfl, rfl, rfl, rfl⟩

end Service

theorem quiet_clock : Monotone World.quiet.clock.time := fun _ _ _ => le_refl _

/-- The token for the version after a service. -/
def laterToken : String := signAuthorization World.quiet.R id (serviceAt "n-2" 3)

/-- A life in which a token is presented again after the service, and then another one. -/
abbrev serviceLife : List TokenOp :=
  [.start, .call (service serviceToken), .call (.exitMaintenance false),
    .call (service serviceToken), .call (service laterToken)]

/-- What becomes of the three presentations. -/
theorem serviceLife_accepted {s : Sys World.quiet} (hstate : s.engine.state = .normal)
    (hversion : s.engine.stateVersion = 1) (hnonces : s.engine.usedNonces = [])
    (hdevice : s.engine.journal.deviceId = "dev") :
    let left := ((EngineCall.exitMaintenance false).run ((service serviceToken).run s).2).2
    (service serviceToken).accepted s = some (serviceToken, serviceAt "n-1" 1) ∧
      (service serviceToken).accepted left = none ∧
      (service laterToken).accepted ((service serviceToken).run left).2 =
        some (laterToken, serviceAt "n-2" 3) := by
  have hentry : s.engine.state ∈ AegisState.maintenanceEntry := by
    rw [hstate]
    decide
  obtain ⟨hfirst, hstate₁, hversion₁, hnonces₁, hdevice₁⟩ :=
    service_accepted serviceToken_authentic hentry hversion (by rw [hnonces]; rfl) hdevice
  generalize ((service serviceToken).run s).2 = s₁ at *
  obtain ⟨hstate₂, hversion₂, hnonces₂, hdevice₂⟩ := service_ended hstate₁
  rw [hversion₁] at hversion₂
  rw [hnonces₁, hnonces] at hnonces₂
  generalize ((EngineCall.exitMaintenance false).run s₁).2 = s₂ at *
  have hentry₂ : s₂.engine.state ∈ AegisState.maintenanceEntry := by
    rw [hstate₂]
    decide
  obtain ⟨hrefused, hsame⟩ := service_refused serviceToken_authentic hentry₂
    (by rw [hversion₂]; decide)
  have hlater : serviceKey.authenticate World.quiet.R laterToken = some (serviceAt "n-2" 3) :=
    authenticate_sign (fun _ => decide_eq_true rfl) _
  intro left
  refine ⟨hfirst, hrefused, (service_accepted hlater ?_ ?_ ?_ ?_).1⟩
  · rw [hsame]
    exact hentry₂
  · rw [hsame]
    exact hversion₂
  · rw [hsame, hnonces₂]
    rfl
  · rw [hsame]
    exact hdevice₂.trans hdevice₁

/-- The first token is accepted once, and the second one too. -/
theorem tokens_are_single_use_presented_again : ∃ dir : Dir,
    provision World.quiet.R 4 512 "dev" = .ok dir ∧
      let accepted := (serviceLife.foldl TokenOp.step
        (Usage.unused (Disk.fresh dir) 0 : Usage World.quiet)).accepted.map Prod.fst
      accepted = [serviceToken, laterToken] ∧ accepted.Nodup := by
  obtain ⟨dir, hdir⟩ := provision_four_blocks
  have hopen := (reopen_fresh (W := World.quiet) hdir 0).1
  obtain ⟨hfirst, hrefused, hsecond⟩ :=
    serviceLife_accepted (s := quietBoot dir) rfl rfl rfl rfl
  have hsane : Along TokenOp.step (fun u o => o.Sane u)
      (Usage.unused (Disk.fresh dir) 0 : Usage World.quiet) serviceLife := by
    refine ⟨Or.inr (by intro t ht; cases ht), ?_⟩
    simp only [Usage.unused, TokenOp.step, hopen]
    exact ⟨Or.inl rfl, Or.inl rfl, Or.inl rfl, Or.inl rfl, trivial⟩
  refine ⟨dir, hdir, ?_, tokens_are_single_use quiet_clock _ 0 hsane (List.prefix_refl _)⟩
  simp only [serviceLife, List.foldl_cons, List.foldl_nil]
  rw [Usage.unused, TokenOp.step_start hopen, TokenOp.step_call, hfirst, TokenOp.step_call,
    TokenOp.step_call, hrefused, TokenOp.step_call, hsecond]
  rfl

/-- What comes up without a state file is at version 1 again, and knows no nonce. -/
theorem Rested.reopen_without_file {md : Metadata} {ws : List (Write md)}
    {es : List (AuditEntry W.R)} {d : Disk} (h : Rested W ws es { d with state := none })
    (ticks : Nat) :
    ∃ s, AegisShield.reopen W ticks { d with state := none } = .ok s ∧
      s.engine.state ∈ AegisState.maintenanceEntry ∧ s.engine.stateVersion = 1 ∧
      s.engine.usedNonces = [] ∧ s.engine.journal.deviceId = md.deviceId := by
  have hfault : AegisState.fault ∈ AegisState.maintenanceEntry := by decide
  have hnormal : AegisState.normal ∈ AegisState.maintenanceEntry := by decide
  rcases loadState_none h.reads.recorded with hload | ⟨err, hload⟩
  · exact ⟨_, h.reopen_first hload ticks, hnormal, rfl, rfl, rfl⟩
  · obtain ⟨reason, hopen⟩ := h.reopen_refused hload ticks
    exact ⟨_, hopen, hfault, rfl, rfl, rfl⟩

/-- A life in which the state file is lost between two presentations of a token. -/
abbrev lossyLife (token : String) : List TokenOp :=
  [.start, .call (service token), .stop 0, .files fun d => { d with state := none }, .start,
    .call (service token)]

theorem lossyLife_accepted {token : String}
    (hauth : serviceKey.authenticate World.quiet.R token = some serviceAuthorization) {dir : Dir}
    (hdir : provision World.quiet.R 4 512 "dev" = .ok dir) :
    ((lossyLife token).foldl TokenOp.step
        (Usage.unused (Disk.fresh dir) 0 : Usage World.quiet)).accepted =
      [(token, serviceAuthorization), (token, serviceAuthorization)] := by
  obtain ⟨hopen, es₀, p₀, hsaved⟩ := reopen_fresh (W := World.quiet) hdir 0
  have hnormal : AegisState.normal ∈ AegisState.maintenanceEntry := by decide
  obtain ⟨hfirst, -⟩ := service_accepted (s := quietBoot dir) hauth hnormal rfl rfl rfl
  obtain ⟨⟨ws, es, p, hgood⟩, -⟩ := (service token).good hsaved.toGood
  obtain ⟨s, hopen', hstate, hversion, hnonces, hdevice⟩ :=
    (hgood.rested.withState none).reopen_without_file
      (((service token).run (quietBoot dir)).2.ticks + 0)
  obtain ⟨hsecond, -⟩ := service_accepted hauth hstate hversion (by rw [hnonces]; rfl) hdevice
  simp only [Usage.unused, List.foldl_cons, List.foldl_nil, TokenOp.step, hopen, hfirst, hopen',
    hsecond]
  rfl

/-- **A token is accepted twice** when the state file is lost in between. -/
theorem token_accepted_twice : ∃ dir : Dir, provision World.quiet.R 4 512 "dev" = .ok dir ∧
    Monotone World.quiet.clock.time ∧
    ((lossyLife serviceToken).foldl TokenOp.step
        (Usage.unused (Disk.fresh dir) 0 : Usage World.quiet)).accepted.map Prod.fst =
      [serviceToken, serviceToken] := by
  obtain ⟨dir, hdir⟩ := provision_four_blocks
  have haccepted := lossyLife_accepted serviceToken_authentic hdir
  refine ⟨dir, hdir, quiet_clock, ?_⟩
  rw [haccepted, List.map_cons, List.map_cons, List.map_nil]

end SingleUse

end AegisShield
