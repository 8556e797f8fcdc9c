/-
# Well-formed states

Every state a store holds is well formed: handles are unique and below the counter, names are
unique and bound to objects that exist, the bytes beyond the length of an object are zero, and the
objects together leave the recovery reserve free (`Wf`).  Each operation either fails and leaves
the state as it was, or keeps it well formed (`Mutation.apply_cases`).

A state `Descends` from an earlier one if its counter is not behind and no object that was gone has
come back.  The operations also go down this order.
-/
import AegisShield.Storage.Stores
import Mathlib.Algebra.Order.BigOperators.Group.Finset

namespace AegisShield.Storage

open Lib

namespace StoreState

variable {config : Config} {s : StoreState}

/-! ## 1. Live handles -/

/-- The handle names an object of the state. -/
def Live (s : StoreState) (handle : ObjectHandle) : Prop :=
  ∃ i, (s.objects i).present = true ∧ (s.objects i).handle = handle

theorem objectIndex_ok {handle : ObjectHandle} {i : Fin maxObjects}
    (h : s.objectIndex handle = .ok i) :
    (s.objects i).present = true ∧ (s.objects i).handle = handle := by
  have h1 := position_some (okOr_eq_ok.mp h)
  rw [Bool.and_eq_true, decide_eq_true_eq] at h1
  exact h1

theorem objectIndex_stale {handle : ObjectHandle} (h : ¬ s.Live handle) :
    s.objectIndex handle = .error .staleHandle := by
  have hnone : position (fun o => o.present && o.handle = handle) s.objects = none := by
    rw [position_none]
    intro i
    rw [Bool.and_eq_false_iff, decide_eq_false_iff_not]
    by_cases hp : (s.objects i).present = true
    · exact Or.inr fun heq => h ⟨i, hp, heq⟩
    · exact Or.inl (Bool.eq_false_iff.mpr hp)
  rw [objectIndex, hnone, okOr_none]

theorem objectIndex_cases (s : StoreState) (handle : ObjectHandle) :
    (¬ s.Live handle ∧ s.objectIndex handle = .error .staleHandle) ∨
      ∃ i, s.objectIndex handle = .ok i ∧ (s.objects i).present = true ∧
        (s.objects i).handle = handle := by
  by_cases hlive : s.Live handle
  · cases hi : s.objectIndex handle with
    | ok i => exact Or.inr ⟨i, rfl, objectIndex_ok hi⟩
    | error e =>
      obtain ⟨i, hp, heq⟩ := hlive
      unfold objectIndex at hi
      cases hpos : position (fun o => o.present && o.handle = handle) s.objects with
      | some j =>
        rw [hpos] at hi
        cases hi
      | none =>
        have hfalse := position_none.mp hpos i
        rw [hp, heq, Bool.true_and, decide_eq_false_iff_not] at hfalse
        exact absurd rfl hfalse
  · exact Or.inl ⟨hlive, objectIndex_stale hlive⟩

@[simp] theorem setObject_objects (s : StoreState) (i : Fin maxObjects) (o : ObjectSlot) :
    (s.setObject i o).objects = Function.update s.objects i o := rfl

@[simp] theorem setObject_setObject (s : StoreState) (i : Fin maxObjects) (o o' : ObjectSlot) :
    (s.setObject i o).setObject i o' = s.setObject i o' := by
  unfold setObject
  rw [Function.update_idem]

/-! ## 2. Used bytes and the quota -/

end StoreState

/-- The bytes an object takes. -/
def ObjectSlot.size (o : ObjectSlot) : Nat := if o.present then o.len else 0

namespace StoreState

variable {config : Config} {s : StoreState}

/-- The bytes all objects take. -/
def used (s : StoreState) : Nat := ∑ i, (s.objects i).size

theorem usedBytes_foldlM (h : ∀ i, (s.objects i).len ≤ maxObjectBytes) :
    ∀ (l : List (Fin maxObjects)) (acc : Nat), acc + maxObjectBytes * l.length < 2 ^ 64 →
      l.foldlM (fun used i =>
        if (s.objects i).present then okOr (checkedAdd used (s.objects i).len) .arithmeticOverflow
        else .ok used) acc = (.ok (acc + (l.map fun i => (s.objects i).size).sum) : Except Error Nat) := by
  intro l
  induction l with
  | nil => intro acc _; rfl
  | cons i l ih =>
    intro acc hacc
    have hi := h i
    rw [List.length_cons, Nat.mul_succ] at hacc
    rw [List.foldlM_cons, List.map_cons, List.sum_cons, ObjectSlot.size]
    cases (s.objects i).present with
    | true =>
      simp only [if_true]
      rw [checkedAdd_of_lt (by omega), okOr_some]
      have h1 := ih (acc + (s.objects i).len) (by omega)
      rw [Nat.add_assoc] at h1
      exact h1
    | false =>
      simp only [Bool.false_eq_true, if_false, Nat.zero_add]
      exact ih acc (by omega)

theorem usedBytes_eq (h : ∀ i, (s.objects i).len ≤ maxObjectBytes) : s.usedBytes = .ok s.used := by
  have h1 := usedBytes_foldlM h (List.finRange maxObjects) 0
    (by rw [List.length_finRange]; decide)
  rw [Nat.zero_add, ← Fin.sum_univ_def] at h1
  exact h1

/-- **What `ensure_quota` checks** when it is called for an object of the state. -/
theorem ensureQuota_eq (h : ∀ i, (s.objects i).len ≤ maxObjectBytes) {oldLen newLen : Nat}
    (hold : oldLen ≤ s.used) (hused : s.used ≤ logicalCapacityBytes) (hnew : newLen ≤ maxObjectBytes) :
    s.ensureQuota oldLen newLen config =
      if s.used - oldLen + newLen > config.quotaBytes then .error .quotaExceeded
      else if s.used - oldLen + newLen + config.recoveryReserveBytes > config.quotaBytes then
        .error .recoveryReserveProtected
      else .ok () := by
  have hcap : logicalCapacityBytes = 1024 := rfl
  have hmax : maxObjectBytes = 128 := rfl
  have hquota := config.quota_le
  have hreserve := config.reserve_lt
  unfold ensureQuota
  rw [usedBytes_eq h]
  have h1 : checkedSub s.used oldLen = some (s.used - oldLen) := checkedSub_of_le hold
  have h2 : checkedAdd (s.used - oldLen) newLen = some (s.used - oldLen + newLen) :=
    checkedAdd_of_lt (by omega)
  have h3 : checkedAdd (s.used - oldLen + newLen) config.recoveryReserveBytes =
      some (s.used - oldLen + newLen + config.recoveryReserveBytes) := checkedAdd_of_lt (by omega)
  simp only [Bind.bind, Except.bind, h1, h2, h3, okOr_some]
  split
  · rfl
  · split <;> rfl

/-! ## 3. Well-formed states -/

/-- **A well-formed state.** -/
structure Wf (config : Config) (s : StoreState) : Prop where
  /-- Objects have different ids. -/
  ids : ∀ i j, (s.objects i).present = true → (s.objects j).present = true →
    (s.objects i).id = (s.objects j).id → i = j
  /-- Ids are below the counter. -/
  fresh : ∀ i, (s.objects i).present = true → (s.objects i).id < s.nextObjectId
  /-- Names are unique. -/
  names : ∀ i j, (s.namespaces i).present = true → (s.namespaces j).present = true →
    (s.namespaces i).name = (s.namespaces j).name → i = j
  /-- Names are bound to objects that exist. -/
  bound : ∀ i, (s.namespaces i).present = true → s.Live (s.namespaces i).handle
  len_le : ∀ i, (s.objects i).len ≤ maxObjectBytes
  /-- The bytes beyond the length are zero. -/
  tail : ∀ i (k : Fin maxObjectBytes), (s.objects i).len ≤ k → (s.objects i).data k = 0
  /-- The recovery reserve is free. -/
  quota : s.used + config.recoveryReserveBytes ≤ config.quotaBytes

theorem wf_empty (config : Config) : empty.Wf config where
  ids := nofun
  fresh := nofun
  names := nofun
  bound := nofun
  len_le _ := Nat.zero_le _
  tail _ _ _ := rfl
  quota := by
    have hused : empty.used = 0 := by
      unfold used
      exact Finset.sum_eq_zero fun i _ => rfl
    rw [hused, Nat.zero_add]
    exact Nat.le_of_lt config.reserve_lt

theorem Wf.used_le (h : s.Wf config) : s.used ≤ logicalCapacityBytes := by
  have h1 := h.quota
  have h2 := config.quota_le
  omega

theorem size_le_used (s : StoreState) (i : Fin maxObjects) : (s.objects i).size ≤ s.used :=
  Finset.single_le_sum (f := fun j => (s.objects j).size) (fun _ _ => Nat.zero_le _)
    (Finset.mem_univ i)

theorem len_le_used {i : Fin maxObjects} (h : (s.objects i).present = true) :
    (s.objects i).len ≤ s.used := by
  have h1 := s.size_le_used i
  rw [ObjectSlot.size, if_pos h] at h1
  exact h1

theorem Wf.ensureQuota_eq (h : s.Wf config) {i : Fin maxObjects}
    (hi : (s.objects i).present = true) {newLen : Nat} (hnew : newLen ≤ maxObjectBytes) :
    s.ensureQuota (s.objects i).len newLen config =
      if s.used - (s.objects i).len + newLen > config.quotaBytes then .error .quotaExceeded
      else if s.used - (s.objects i).len + newLen + config.recoveryReserveBytes > config.quotaBytes then
        .error .recoveryReserveProtected
      else .ok () :=
  StoreState.ensureQuota_eq h.len_le (len_le_used hi) h.used_le hnew

/-- Only the generation of a state differs from that of a well-formed one. -/
theorem Wf.stamp (h : s.Wf config) (generation : Generation) :
    { s with generation := generation }.Wf config :=
  ⟨h.ids, h.fresh, h.names, h.bound, h.len_le, h.tail, h.quota⟩

/-! ## 4. Descent -/

/-- `s` descends from `c`: the counter is not behind, and an object that `c` did not have any more
is not there. -/
structure Descends (c s : StoreState) : Prop where
  next_le : c.nextObjectId ≤ s.nextObjectId
  live : ∀ handle, handle.id < c.nextObjectId → s.Live handle → c.Live handle

theorem Descends.refl (s : StoreState) : Descends s s := ⟨Nat.le_refl _, fun _ _ h => h⟩

theorem Descends.trans {a b c : StoreState} (h : Descends a b) (h' : Descends b c) : Descends a c where
  next_le := Nat.le_trans h.next_le h'.next_le
  live handle hid hlive :=
    h.live handle hid (h'.live handle (Nat.lt_of_lt_of_le hid h.next_le) hlive)

theorem Descends.stamp {c s : StoreState} (h : Descends c s) (generation : Generation) :
    Descends c { s with generation := generation } := ⟨h.next_le, h.live⟩

/-- The handles of a state are below its counter. -/
theorem Wf.live_lt (h : s.Wf config) {handle : ObjectHandle} (hlive : s.Live handle) :
    handle.id < s.nextObjectId := by
  obtain ⟨i, hp, rfl⟩ := hlive
  exact h.fresh i hp

/-! ## 5. Objects in place -/

/-- The slot of an object changed in place: `write` and `truncate`. -/
structure InPlace (s : StoreState) (i : Fin maxObjects) (o : ObjectSlot) : Prop where
  was_present : (s.objects i).present = true
  present : o.present = true
  handle : o.handle = (s.objects i).handle
  len_le : o.len ≤ maxObjectBytes
  tail : ∀ k : Fin maxObjectBytes, o.len ≤ k → o.data k = 0

theorem InPlace.slot {i : Fin maxObjects} {o : ObjectSlot} (h : InPlace s i o) (j : Fin maxObjects) :
    ((s.setObject i o).objects j).present = (s.objects j).present ∧
      ((s.setObject i o).objects j).handle = (s.objects j).handle := by
  by_cases hj : j = i
  · subst hj
    rw [setObject_objects, Function.update_self]
    exact ⟨h.present.trans h.was_present.symm, h.handle⟩
  · rw [setObject_objects, Function.update_of_ne hj]
    exact ⟨rfl, rfl⟩

theorem InPlace.live {i : Fin maxObjects} {o : ObjectSlot} (h : InPlace s i o)
    (handle : ObjectHandle) : (s.setObject i o).Live handle ↔ s.Live handle := by
  unfold Live
  simp only [h.slot]

theorem InPlace.used {i : Fin maxObjects} {o : ObjectSlot} (h : InPlace s i o) :
    (s.setObject i o).used = s.used - (s.objects i).len + o.len := by
  have h1 := sum_update ObjectSlot.size s.objects i o
  have h2 : (s.objects i).size = (s.objects i).len := if_pos h.was_present
  have h3 : o.size = o.len := if_pos h.present
  have h4 := len_le_used h.was_present
  rw [h2, h3] at h1
  unfold StoreState.used at h4 ⊢
  rw [setObject_objects]
  omega

/-- **An object changed in place** leaves the state well formed if the quota is kept. -/
theorem InPlace.wf {i : Fin maxObjects} {o : ObjectSlot} (h : InPlace s i o) (hwf : s.Wf config)
    (hquota : s.used - (s.objects i).len + o.len + config.recoveryReserveBytes ≤ config.quotaBytes) :
    (s.setObject i o).Wf config where
  ids j k hj hk heq := by
    obtain ⟨hj1, hj2⟩ := h.slot j
    obtain ⟨hk1, hk2⟩ := h.slot k
    have hid := congrArg ObjectHandle.id hj2
    have hid' := congrArg ObjectHandle.id hk2
    exact hwf.ids j k (hj1 ▸ hj) (hk1 ▸ hk) (hid.symm.trans (heq.trans hid'))
  fresh j hj := by
    obtain ⟨hj1, hj2⟩ := h.slot j
    have hid := congrArg ObjectHandle.id hj2
    have hlt := hwf.fresh j (hj1 ▸ hj)
    exact lt_of_eq_of_lt hid hlt
  names := hwf.names
  bound j hj := (h.live _).mpr (hwf.bound j hj)
  len_le j := by
    by_cases hj : j = i
    · subst hj
      rw [setObject_objects, Function.update_self]
      exact h.len_le
    · rw [setObject_objects, Function.update_of_ne hj]
      exact hwf.len_le j
  tail j := by
    by_cases hj : j = i
    · subst hj
      rw [setObject_objects, Function.update_self]
      exact h.tail
    · rw [setObject_objects, Function.update_of_ne hj]
      exact hwf.tail j
  quota := by
    rw [h.used]
    exact hquota

theorem InPlace.descends {i : Fin maxObjects} {o : ObjectSlot} (h : InPlace s i o) :
    Descends s (s.setObject i o) :=
  ⟨Nat.le_refl _, fun handle _ hlive => (h.live handle).mp hlive⟩

/-! ## 6. The operations -/

end StoreState

/-- An error that the operations on a state may end with. -/
def Error.plain : Error → Bool
  | .invariantViolation | .walFull | .recoveryRequired | .interrupted _ => false
  | _ => true

namespace StoreState

variable {config : Config} {s : StoreState}

/-- The state with a new object in slot `i`. -/
def created (s : StoreState) (i : Fin maxObjects) : StoreState :=
  { s with nextObjectId := s.nextObjectId + 1
           nextObjectGeneration := s.nextObjectGeneration + 1 }.setObject i
    ⟨true, s.nextObjectId, s.nextObjectGeneration, 0, fun _ => 0⟩

theorem create_cases (s : StoreState) :
    (∃ e : Error, e.plain = true ∧ s.create = (.error e, s)) ∨
      ∃ i, (s.objects i).present = false ∧ s.nextObjectId + 1 < 2 ^ 64 ∧
        s.nextObjectGeneration + 1 < 2 ^ 64 ∧
        position (fun o => !o.present) s.objects = some i ∧
        s.create = (.ok ⟨s.nextObjectId, s.nextObjectGeneration⟩, s.created i) := by
  unfold create
  cases hi : position (fun o => !o.present) s.objects with
  | none => exact Or.inl ⟨_, rfl, rfl⟩
  | some i =>
    rw [okOr_some, attempt_ok]
    cases hid : checkedAdd s.nextObjectId 1 with
    | none => exact Or.inl ⟨_, rfl, rfl⟩
    | some nextId =>
      rw [okOr_some, attempt_ok]
      cases hgen : checkedAdd s.nextObjectGeneration 1 with
      | none => exact Or.inl ⟨_, rfl, rfl⟩
      | some nextGeneration =>
        obtain ⟨h1, rfl⟩ := checkedAdd_eq_some.mp hid
        obtain ⟨h2, rfl⟩ := checkedAdd_eq_some.mp hgen
        have hp := position_some hi
        rw [Bool.not_eq_true'] at hp
        exact Or.inr ⟨i, hp, h1, h2, rfl, rfl⟩

/-- A logged creation is replayed to the same state. -/
theorem replayCreate_of_create {handle : ObjectHandle} {s' : StoreState}
    (h : s.create = (.ok handle, s')) : s.replayCreate handle = (.ok (), s') := by
  rcases s.create_cases with ⟨e, -, he⟩ | ⟨i, -, hid, hgen, hi, hs⟩
  · rw [he] at h
    cases h
  · rw [hs] at h
    cases h
    unfold replayCreate
    rw [if_neg (by simp), hi, okOr_some, attempt_ok, checkedAdd_of_lt hid, okOr_some, attempt_ok,
      checkedAdd_of_lt hgen, okOr_some, attempt_ok]
    rfl

theorem created_live {i : Fin maxObjects} (hi : (s.objects i).present = false)
    (handle : ObjectHandle) :
    (s.created i).Live handle ↔
      handle = ⟨s.nextObjectId, s.nextObjectGeneration⟩ ∨ s.Live handle := by
  unfold Live created
  simp only [setObject_objects]
  constructor
  · rintro ⟨j, hp, heq⟩
    by_cases hj : j = i
    · subst hj
      rw [Function.update_self] at heq
      exact Or.inl heq.symm
    · rw [Function.update_of_ne hj] at hp heq
      exact Or.inr ⟨j, hp, heq⟩
  · rintro (rfl | ⟨j, hp, heq⟩)
    · refine ⟨i, ?_⟩
      rw [Function.update_self]
      exact ⟨rfl, rfl⟩
    · have hj : j ≠ i := by
        rintro rfl
        rw [hi] at hp
        cases hp
      refine ⟨j, ?_⟩
      rw [Function.update_of_ne hj]
      exact ⟨hp, heq⟩

theorem created_used {i : Fin maxObjects} (hi : (s.objects i).present = false) :
    (s.created i).used = s.used := by
  have h1 := sum_update ObjectSlot.size s.objects i
    ⟨true, s.nextObjectId, s.nextObjectGeneration, 0, fun _ => 0⟩
  have h2 : (s.objects i).size = 0 := by
    rw [ObjectSlot.size, hi]
    rfl
  have h3 : ObjectSlot.size ⟨true, s.nextObjectId, s.nextObjectGeneration, 0, fun _ => 0⟩ = 0 := rfl
  rw [h2, h3, Nat.add_zero, Nat.add_zero] at h1
  unfold used created
  rw [setObject_objects]
  exact h1

theorem created_slot (s : StoreState) (i j : Fin maxObjects) :
    (s.created i).objects j = if j = i then
      ⟨true, s.nextObjectId, s.nextObjectGeneration, 0, fun _ => 0⟩ else s.objects j :=
  Function.update_apply s.objects i _ j

theorem Wf.created (h : s.Wf config) {i : Fin maxObjects} (hi : (s.objects i).present = false) :
    (s.created i).Wf config where
  ids j k hj hk heq := by
    rw [created_slot] at hj hk heq
    rw [created_slot] at heq
    -- two slots with one id: the new id is above every other
    split at hj
    · rename_i hji
      split at hk
      · rename_i hki
        rw [hji, hki]
      · rename_i hki
        rw [if_pos hji, if_neg hki] at heq
        have hlt := h.fresh k hk
        exact absurd heq.symm (Nat.ne_of_lt hlt)
    · rename_i hji
      split at hk
      · rename_i hki
        rw [if_neg hji, if_pos hki] at heq
        exact absurd heq (Nat.ne_of_lt (h.fresh j hj))
      · rename_i hki
        rw [if_neg hji, if_neg hki] at heq
        exact h.ids j k hj hk heq
  fresh j hj := by
    rw [created_slot] at hj ⊢
    split at hj
    · rename_i hji
      rw [if_pos hji]
      exact Nat.lt_succ_self _
    · rename_i hji
      rw [if_neg hji]
      exact Nat.lt_succ_of_lt (h.fresh j hj)
  names := h.names
  bound j hj := (created_live hi _).mpr (Or.inr (h.bound j hj))
  len_le j := by
    rw [created_slot]
    split
    · exact Nat.zero_le _
    · exact h.len_le j
  tail j k hk := by
    rw [created_slot] at hk ⊢
    split
    · rfl
    · rename_i hji
      rw [if_neg hji] at hk
      exact h.tail j k hk
  quota := by
    rw [created_used hi]
    exact h.quota

theorem created_descends {i : Fin maxObjects} (hi : (s.objects i).present = false) :
    Descends s (s.created i) where
  next_le := Nat.le_succ _
  live handle hid hlive := by
    rcases (created_live hi handle).mp hlive with rfl | hlive
    · exact absurd hid (Nat.lt_irrefl _)
    · exact hlive

end StoreState

/-- The slot after a `write`. -/
def ObjectSlot.written (o : ObjectSlot) (offset : Nat) (input : Bytes) : ObjectSlot :=
  { o with data := StoreState.copyFrom o.data offset input
           len := max o.len (offset + input.length) }

/-- The slot after a `truncate`. -/
def ObjectSlot.truncated (o : ObjectSlot) (newLen : Nat) : ObjectSlot :=
  { o with data := StoreState.fillZero o.data (min newLen o.len) (max newLen o.len)
           len := newLen }

namespace StoreState

variable {config : Config} {s : StoreState}

/-- The quota after a length has changed. -/
def KeepsQuota (config : Config) (s : StoreState) (i : Fin maxObjects) (newLen : Nat) : Prop :=
  s.used - (s.objects i).len + newLen + config.recoveryReserveBytes ≤ config.quotaBytes

theorem Wf.ensureQuota_cases (h : s.Wf config) {i : Fin maxObjects}
    (hi : (s.objects i).present = true) {newLen : Nat} (hnew : newLen ≤ maxObjectBytes) :
    (∃ e : Error, e.plain = true ∧ s.ensureQuota (s.objects i).len newLen config = .error e) ∨
      (KeepsQuota config s i newLen ∧ s.ensureQuota (s.objects i).len newLen config = .ok ()) := by
  rw [h.ensureQuota_eq hi hnew]
  split
  · exact Or.inl ⟨_, rfl, rfl⟩
  · split
    · exact Or.inl ⟨_, rfl, rfl⟩
    · rename_i hr
      exact Or.inr ⟨Nat.le_of_not_lt hr, rfl⟩

theorem Wf.written_inPlace (h : s.Wf config) {i : Fin maxObjects}
    (hi : (s.objects i).present = true) {offset : Nat} {input : Bytes}
    (hend : offset + input.length ≤ maxObjectBytes) :
    InPlace s i ((s.objects i).written offset input) where
  was_present := hi
  present := hi
  handle := rfl
  len_le := Nat.max_le.mpr ⟨h.len_le i, hend⟩
  tail k hk := by
    obtain ⟨h1, h2⟩ := Nat.max_le.mp hk
    have h3 : ¬ (offset ≤ k ∧ k < offset + input.length) := by omega
    have hdata : ((s.objects i).written offset input).data k = (s.objects i).data k := if_neg h3
    rw [hdata]
    exact h.tail i k h1

/-- **What `write` does** to a well-formed state. -/
theorem Wf.write_cases (h : s.Wf config) (handle : ObjectHandle) (offset : Nat) (input : Bytes) :
    (∃ e : Error, e.plain = true ∧ s.write handle offset input config = (.error e, s)) ∨
      ∃ i, s.objectIndex handle = .ok i ∧ input.length ≤ maxIoBytes ∧
        offset + input.length ≤ maxObjectBytes ∧
        InPlace s i ((s.objects i).written offset input) ∧
        KeepsQuota config s i ((s.objects i).written offset input).len ∧
        s.write handle offset input config =
          (.ok (), s.setObject i ((s.objects i).written offset input)) := by
  have hmax : maxObjectBytes = 128 := rfl
  unfold write
  split
  · exact Or.inl ⟨_, rfl, rfl⟩
  · rename_i hio
    unfold tryUsize
    split
    · rw [attempt_ok]
      cases hadd : checkedAdd offset input.length with
      | none => exact Or.inl ⟨_, rfl, rfl⟩
      | some stop =>
        obtain ⟨-, rfl⟩ := checkedAdd_eq_some.mp hadd
        rw [okOr_some, attempt_ok]
        split
        · exact Or.inl ⟨_, rfl, rfl⟩
        · rename_i hend
          -- the checks on the input are through, next the handle and the quota
          rcases s.objectIndex_cases handle with ⟨-, hstale⟩ | ⟨i, hi, hp, -⟩
          · rw [hstale]
            exact Or.inl ⟨_, rfl, rfl⟩
          · have hplace := h.written_inPlace hp (Nat.le_of_not_lt hend)
            rw [hi, attempt_ok]
            rcases h.ensureQuota_cases hp hplace.len_le with ⟨e, he, hq⟩ | ⟨hkeeps, hq⟩
            · have hq' : s.ensureQuota (s.objects i).len
                  (max (s.objects i).len (offset + input.length)) config = .error e := hq
              refine Or.inl ⟨e, he, ?_⟩
              simp only [hq', attempt_error]
            · have hq' : s.ensureQuota (s.objects i).len
                  (max (s.objects i).len (offset + input.length)) config = .ok () := hq
              have hu16 : tryU16 (max (s.objects i).len (offset + input.length)) .objectTooLarge =
                  .ok (max (s.objects i).len (offset + input.length)) := by
                have hle : max (s.objects i).len (offset + input.length) ≤ maxObjectBytes :=
                  hplace.len_le
                exact if_pos (by omega)
              refine Or.inr ⟨i, rfl, Nat.le_of_not_lt hio, Nat.le_of_not_lt hend, hplace, hkeeps, ?_⟩
              simp only [hq', attempt_ok, hu16, setObject_setObject]
              rfl
    · exact Or.inl ⟨_, rfl, rfl⟩

theorem fillZero_of_le (data : Fin maxObjectBytes → UInt8) {start stop : Nat} (h : stop ≤ start) :
    fillZero data start stop = data := by
  funext k
  exact if_neg (by omega)

theorem Wf.truncated_inPlace (h : s.Wf config) {i : Fin maxObjects}
    (hi : (s.objects i).present = true) {newLen : Nat} (hnew : newLen ≤ maxObjectBytes) :
    InPlace s i ((s.objects i).truncated newLen) where
  was_present := hi
  present := hi
  handle := rfl
  len_le := hnew
  tail k hk := by
    have hle : newLen ≤ k := hk
    have hdata : ((s.objects i).truncated newLen).data k =
        if min newLen (s.objects i).len ≤ k ∧ k < max newLen (s.objects i).len then 0
        else (s.objects i).data k := rfl
    rw [hdata]
    split
    · rfl
    · exact h.tail i k (by omega)

/-- **What `truncate` does** to a well-formed state. -/
theorem Wf.truncate_cases (h : s.Wf config) (handle : ObjectHandle) (newLen : Nat) :
    (∃ e : Error, e.plain = true ∧ s.truncate handle newLen config = (.error e, s)) ∨
      ∃ i, s.objectIndex handle = .ok i ∧ newLen ≤ maxObjectBytes ∧
        InPlace s i ((s.objects i).truncated newLen) ∧ KeepsQuota config s i newLen ∧
        s.truncate handle newLen config =
          (.ok (), s.setObject i ((s.objects i).truncated newLen)) := by
  have hmax : maxObjectBytes = 128 := rfl
  unfold truncate tryUsize
  split
  · rw [attempt_ok]
    split
    · exact Or.inl ⟨_, rfl, rfl⟩
    · rename_i hle
      rcases s.objectIndex_cases handle with ⟨-, hstale⟩ | ⟨i, hi, hp, -⟩
      · rw [hstale]
        exact Or.inl ⟨_, rfl, rfl⟩
      · have hplace := h.truncated_inPlace hp (Nat.le_of_not_lt hle)
        rw [hi, attempt_ok]
        rcases h.ensureQuota_cases hp (Nat.le_of_not_lt hle) with ⟨e, he, hq⟩ | ⟨hkeeps, hq⟩
        · refine Or.inl ⟨e, he, ?_⟩
          simp only [hq, attempt_error]
        · have hu16 : tryU16 newLen .objectTooLarge = .ok newLen := if_pos (by omega)
          refine Or.inr ⟨i, rfl, Nat.le_of_not_lt hle, hplace, hkeeps, ?_⟩
          simp only [hq, hu16, attempt_ok, setObject_setObject]
          unfold ObjectSlot.truncated
          -- the three branches of the source fill the same range
          split
          · rename_i hlt
            rw [Nat.min_eq_left (Nat.le_of_lt hlt), Nat.max_eq_right (Nat.le_of_lt hlt)]
          · split
            · rename_i hlt
              rw [Nat.min_eq_right (Nat.le_of_lt hlt), Nat.max_eq_left (Nat.le_of_lt hlt)]
            · rw [fillZero_of_le _ (by omega)]
  · exact Or.inl ⟨_, rfl, rfl⟩

/-- The state without the object in slot `i` and the names of it. -/
def deleted (s : StoreState) (i : Fin maxObjects) (handle : ObjectHandle) : StoreState :=
  { s.setObject i { s.objects i with present := false, len := 0, data := fun _ => 0 } with
    namespaces := fun j =>
      if (s.namespaces j).present && (s.namespaces j).handle = handle then NamespaceSlot.empty
      else s.namespaces j }

theorem delete_cases (s : StoreState) (handle : ObjectHandle) :
    (∃ e : Error, e.plain = true ∧ s.delete handle = (.error e, s)) ∨
      ∃ i, s.objectIndex handle = .ok i ∧ s.delete handle = (.ok (), s.deleted i handle) := by
  unfold delete
  rcases s.objectIndex_cases handle with ⟨-, hstale⟩ | ⟨i, hi, -, -⟩
  · rw [hstale]
    exact Or.inl ⟨_, rfl, rfl⟩
  · rw [hi]
    exact Or.inr ⟨i, rfl, rfl⟩

theorem deleted_self (s : StoreState) (i : Fin maxObjects) (handle : ObjectHandle) :
    (s.deleted i handle).objects i =
      { s.objects i with present := false, len := 0, data := fun _ => 0 } :=
  Function.update_self _ _ _

theorem deleted_of_ne {i j : Fin maxObjects} (h : j ≠ i) (handle : ObjectHandle) :
    (s.deleted i handle).objects j = s.objects j := Function.update_of_ne h _ _

theorem deleted_present {i j : Fin maxObjects} {handle : ObjectHandle}
    (h : ((s.deleted i handle).objects j).present = true) :
    j ≠ i ∧ (s.deleted i handle).objects j = s.objects j := by
  by_cases hj : j = i
  · subst hj
    rw [deleted_self] at h
    cases h
  · exact ⟨hj, deleted_of_ne hj handle⟩

theorem deleted_name {i : Fin maxObjects} {handle : ObjectHandle} {j : Fin maxNames}
    (h : ((s.deleted i handle).namespaces j).present = true) :
    (s.deleted i handle).namespaces j = s.namespaces j ∧ (s.namespaces j).present = true ∧
      (s.namespaces j).handle ≠ handle := by
  have hslot : (s.deleted i handle).namespaces j =
      if (s.namespaces j).present && (s.namespaces j).handle = handle then NamespaceSlot.empty
      else s.namespaces j := rfl
  rw [hslot] at h ⊢
  split at h
  · cases h
  · rename_i hkeep
    rw [if_neg hkeep]
    refine ⟨rfl, h, fun heq => hkeep ?_⟩
    rw [h, heq, decide_eq_true rfl]
    rfl

theorem Wf.deleted_live (hwf : s.Wf config) {i : Fin maxObjects} {handle : ObjectHandle}
    (hi : s.objectIndex handle = .ok i) (other : ObjectHandle) :
    (s.deleted i handle).Live other ↔ s.Live other ∧ other ≠ handle := by
  obtain ⟨hp, heq⟩ := objectIndex_ok hi
  constructor
  · rintro ⟨j, hj, rfl⟩
    obtain ⟨hne, hslot⟩ := deleted_present hj
    rw [hslot] at hj ⊢
    refine ⟨⟨j, hj, rfl⟩, fun hsame => hne ?_⟩
    exact hwf.ids j i hj hp (congrArg ObjectHandle.id (hsame.trans heq.symm))
  · rintro ⟨⟨j, hj, rfl⟩, hne⟩
    have hji : j ≠ i := by
      rintro rfl
      exact hne heq
    refine ⟨j, ?_⟩
    rw [deleted_of_ne hji]
    exact ⟨hj, rfl⟩

theorem deleted_used_le (s : StoreState) (i : Fin maxObjects) (handle : ObjectHandle) :
    (s.deleted i handle).used ≤ s.used := by
  have h1 := sum_update ObjectSlot.size s.objects i
    { s.objects i with present := false, len := 0, data := fun _ => 0 }
  have h2 : ObjectSlot.size { s.objects i with present := false, len := 0, data := fun _ => 0 } = 0 :=
    rfl
  have h3 : (s.deleted i handle).used = ∑ j, (Function.update s.objects i
    { s.objects i with present := false, len := 0, data := fun _ => 0 } j).size := rfl
  rw [h3]
  unfold used
  omega

theorem Wf.deleted (hwf : s.Wf config) {i : Fin maxObjects} {handle : ObjectHandle}
    (hi : s.objectIndex handle = .ok i) : (s.deleted i handle).Wf config where
  ids j k hj hk heq := by
    obtain ⟨-, hj'⟩ := deleted_present hj
    obtain ⟨-, hk'⟩ := deleted_present hk
    rw [hj'] at hj
    rw [hk'] at hk
    rw [hj', hk'] at heq
    exact hwf.ids j k hj hk heq
  fresh j hj := by
    obtain ⟨-, hj'⟩ := deleted_present hj
    rw [hj'] at hj ⊢
    exact hwf.fresh j hj
  names j k hj hk heq := by
    obtain ⟨hj', hjp, -⟩ := deleted_name hj
    obtain ⟨hk', hkp, -⟩ := deleted_name hk
    rw [hj', hk'] at heq
    exact hwf.names j k hjp hkp heq
  bound j hj := by
    obtain ⟨hj', hjp, hne⟩ := deleted_name hj
    rw [hj']
    exact (hwf.deleted_live hi _).mpr ⟨hwf.bound j hjp, hne⟩
  len_le j := by
    by_cases hj : j = i
    · subst hj
      rw [deleted_self]
      exact Nat.zero_le _
    · rw [deleted_of_ne hj]
      exact hwf.len_le j
  tail j k hk := by
    by_cases hj : j = i
    · subst hj
      rw [deleted_self]
    · rw [deleted_of_ne hj] at hk ⊢
      exact hwf.tail j k hk
  quota := Nat.le_trans (Nat.add_le_add_right (s.deleted_used_le i handle) _) hwf.quota

/-- The state with a name bound in slot `k`. -/
def named (s : StoreState) (k : Fin maxNames) (name : Name) (handle : ObjectHandle) : StoreState :=
  { s with namespaces := Function.update s.namespaces k ⟨true, name, handle⟩ }

/-- **What `bind` does**: it takes the slot that has the name, or a free one. -/
theorem Wf.bind_cases (h : s.Wf config) (name : Name) (handle : ObjectHandle) :
    (∃ e : Error, e.plain = true ∧ s.bind name handle = (.error e, s)) ∨
      ∃ k, s.Live handle ∧ (∀ j, (s.namespaces j).present = true → (s.namespaces j).name = name →
          j = k) ∧ ((s.namespaces k).present = true → (s.namespaces k).name = name) ∧
        s.bind name handle = (.ok (), s.named k name handle) := by
  unfold bind
  rcases s.objectIndex_cases handle with ⟨-, hstale⟩ | ⟨i, hi, hp, heq⟩
  · rw [hstale]
    exact Or.inl ⟨_, rfl, rfl⟩
  · rw [hi, attempt_ok]
    cases hpos : position (fun slot => slot.present && slot.name = name) s.namespaces with
    | some k =>
      have hk := position_some hpos
      rw [Bool.and_eq_true, decide_eq_true_eq] at hk
      obtain ⟨hkp, hkn⟩ := hk
      refine Or.inr ⟨k, ⟨i, hp, heq⟩, ?_, fun _ => hkn, ?_⟩
      · intro j hj hname
        exact h.names j k hj hkp (hname.trans hkn.symm)
      · have hslot : ({ s.namespaces k with handle := handle } : NamespaceSlot) =
            ⟨true, name, handle⟩ := by
          simp only [hkp, hkn]
        simp only [hslot]
        rfl
    | none =>
      cases hfree : position (fun slot => !slot.present) s.namespaces with
      | none => exact Or.inl ⟨_, rfl, rfl⟩
      | some k =>
        have hk := position_some hfree
        rw [Bool.not_eq_true'] at hk
        refine Or.inr ⟨k, ⟨i, hp, heq⟩, ?_, ?_, rfl⟩
        · intro j hj hname
          have hno := position_none.mp hpos j
          rw [hj, hname, Bool.true_and, decide_eq_false_iff_not] at hno
          exact absurd rfl hno
        · intro hkp
          rw [hk] at hkp
          cases hkp

theorem Wf.named (h : s.Wf config) {k : Fin maxNames} {name : Name} {handle : ObjectHandle}
    (hlive : s.Live handle)
    (hu : ∀ j, (s.namespaces j).present = true → (s.namespaces j).name = name → j = k) :
    (s.named k name handle).Wf config where
  ids := h.ids
  fresh := h.fresh
  names j l hj hl heq := by
    have hslot : ∀ m, (s.named k name handle).namespaces m =
        if m = k then ⟨true, name, handle⟩ else s.namespaces m :=
      fun m => Function.update_apply _ _ _ _
    rw [hslot] at hj hl
    rw [hslot, hslot] at heq
    by_cases hjk : j = k
    · by_cases hlk : l = k
      · rw [hjk, hlk]
      · rw [if_neg hlk] at hl
        rw [if_pos hjk, if_neg hlk] at heq
        rw [hjk, hu l hl heq.symm]
    · rw [if_neg hjk] at hj
      by_cases hlk : l = k
      · rw [if_neg hjk, if_pos hlk] at heq
        rw [hlk, hu j hj heq]
      · rw [if_neg hlk] at hl
        rw [if_neg hjk, if_neg hlk] at heq
        exact h.names j l hj hl heq
  bound j hj := by
    have hslot : (s.named k name handle).namespaces j =
        if j = k then ⟨true, name, handle⟩ else s.namespaces j := Function.update_apply _ _ _ _
    rw [hslot] at hj ⊢
    by_cases hjk : j = k
    · rw [if_pos hjk]
      exact hlive
    · rw [if_neg hjk] at hj ⊢
      exact h.bound j hj
  len_le := h.len_le
  tail := h.tail
  quota := h.quota

end StoreState

/-! ## 7. Every operation -/

/-- An operation other than `create` that succeeds, on the state. -/
theorem Mutation.of_unit {x : Except Error Unit × StoreState} {r : Option ObjectHandle}
    {s' : StoreState}
    (h : ((x.1.map fun _ => none : Except Error (Option ObjectHandle)), x.2) = (.ok r, s')) :
    x = (.ok (), s') := by
  obtain ⟨y, s⟩ := x
  cases y with
  | error e => cases h
  | ok u =>
    cases h
    rfl

/-- What an operation that succeeds makes of a state. -/
structure Edited (config : Config) (s s' : StoreState) : Prop where
  wf : s'.Wf config
  descends : StoreState.Descends s s'
  generation : s'.generation = s.generation

/-- **An operation fails and changes nothing, or keeps the state well formed.** -/
theorem Mutation.apply_cases {config : Config} {s : StoreState} (h : s.Wf config) (m : Mutation) :
    (∃ e : Error, e.plain = true ∧ m.apply config s = (.error e, s)) ∨
      ∃ r s', m.apply config s = (.ok r, s') ∧ Edited config s s' := by
  cases m with
  | create =>
    unfold apply
    rcases s.create_cases with ⟨e, he, hs⟩ | ⟨i, hi, -, -, -, hs⟩
    · exact Or.inl ⟨e, he, by simp only [hs]; rfl⟩
    · exact Or.inr ⟨_, _, by simp only [hs]; rfl, h.created hi, StoreState.created_descends hi, rfl⟩
  | write handle offset input =>
    unfold apply
    rcases h.write_cases handle offset input with ⟨e, he, hs⟩ | ⟨i, -, -, -, hplace, hq, hs⟩
    · exact Or.inl ⟨e, he, by simp only [hs]; rfl⟩
    · exact Or.inr ⟨_, _, by simp only [hs]; rfl, hplace.wf h hq, hplace.descends, rfl⟩
  | truncate handle newLen =>
    unfold apply
    rcases h.truncate_cases handle newLen with ⟨e, he, hs⟩ | ⟨i, -, -, hplace, hq, hs⟩
    · exact Or.inl ⟨e, he, by simp only [hs]; rfl⟩
    · exact Or.inr ⟨_, _, by simp only [hs]; rfl, hplace.wf h hq, hplace.descends, rfl⟩
  | delete handle =>
    unfold apply
    rcases s.delete_cases handle with ⟨e, he, hs⟩ | ⟨i, hi, hs⟩
    · exact Or.inl ⟨e, he, by simp only [hs]; rfl⟩
    · refine Or.inr ⟨_, _, by simp only [hs]; rfl, h.deleted hi, ⟨Nat.le_refl _, ?_⟩, rfl⟩
      intro other _ hlive
      exact ((h.deleted_live hi other).mp hlive).1
  | bind name handle =>
    unfold apply
    rcases h.bind_cases name handle with ⟨e, he, hs⟩ | ⟨k, hlive, hu, -, hs⟩
    · exact Or.inl ⟨e, he, by simp only [hs]; rfl⟩
    · exact Or.inr ⟨_, _, by simp only [hs]; rfl, h.named hlive hu, ⟨Nat.le_refl _, fun _ _ hl => hl⟩,
        rfl⟩

end AegisShield.Storage
