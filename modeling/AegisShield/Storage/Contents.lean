/-
# What a state is for

A state is a table of byte strings under handles and of handles under names (`Contents`), kept in
arrays that are reused.  Every operation that succeeds does to the table what it says, `read` and
`lookup` report the table (`Refines`), and so a sequence of operations of a store is the sequence of
their effects on the table (`contents_refined`).
-/
import AegisShield.Storage.Held
import AegisShield.Lib.Buffer
import Mathlib.Data.Set.Finite.Range

namespace AegisShield.Storage

open Lib

/-! ## 1. Contents -/

/-- Byte strings under handles, and handles under names. -/
structure Contents where
  objects : ObjectHandle → Option Bytes
  names : Name → Option ObjectHandle

namespace Contents

/-- A new empty object. -/
def create (c : Contents) (handle : ObjectHandle) : Contents :=
  { c with objects := Function.update c.objects handle (some []) }

/-- The object is filled up with zeros to the end of the input if it is shorter, and overwritten. -/
def write (c : Contents) (handle : ObjectHandle) (offset : Nat) (input : Bytes) : Contents :=
  let bytes := (c.objects handle).map fun bytes => overwrite 0 bytes offset input
  { c with objects := Function.update c.objects handle bytes }

/-- The object keeps its first bytes, filled up with zeros if it is shorter. -/
def truncate (c : Contents) (handle : ObjectHandle) (newLen : Nat) : Contents :=
  let bytes := (c.objects handle).map fun bytes => resize 0 bytes newLen
  { c with objects := Function.update c.objects handle bytes }

/-- The object and all its names are gone. -/
def delete (c : Contents) (handle : ObjectHandle) : Contents where
  objects := Function.update c.objects handle none
  names name := if c.names name = some handle then none else c.names name

/-- The name is bound to the handle. -/
def bind (c : Contents) (name : Name) (handle : ObjectHandle) : Contents :=
  { c with names := Function.update c.names name (some handle) }

/-- The bytes from the offset on, as many as there are and fit. -/
def read (c : Contents) (handle : ObjectHandle) (offset : Nat) (output : Bytes) :
    Except Error (Nat × Bytes) :=
  match c.objects handle with
  | none => .error .staleHandle
  | some bytes =>
    if bytes.length < offset then .error .offsetOutOfRange
    else
      let count := min output.length (bytes.length - offset)
      .ok (count, (bytes.drop offset).take count ++ output.drop count)

end Contents

/-- What an operation that has returned `r` does. -/
def Mutation.effect (r : Option ObjectHandle) (c : Contents) : Mutation → Contents
  | .create => match r with
    | some handle => c.create handle
    | none => c
  | .write handle offset input => c.write handle offset input
  | .truncate handle newLen => c.truncate handle newLen
  | .delete handle => c.delete handle
  | .bind name handle => c.bind name handle

/-! ## 2. The contents of a state -/

/-- The bytes of an object. -/
def ObjectSlot.content (o : ObjectSlot) : Bytes := (List.ofFn o.data).take o.len

/-- The contents of a state. -/
def StoreState.contents (s : StoreState) : Contents where
  objects handle := match s.objectIndex handle with
    | .ok i => some (s.objects i).content
    | .error _ => none
  names name := (position (fun slot => slot.present && slot.name = name) s.namespaces).map fun i =>
    (s.namespaces i).handle

theorem ObjectSlot.length_content {o : ObjectSlot} (h : o.len ≤ maxObjectBytes) :
    o.content.length = o.len := by
  rw [content, List.length_take, List.length_ofFn]
  exact Nat.min_eq_left h

/-- With a tail of zeros, the bytes of an object read as its array does. -/
theorem ObjectSlot.getD_content {o : ObjectSlot}
    (h : ∀ k : Fin maxObjectBytes, o.len ≤ k → o.data k = 0) (k : Nat) :
    o.content.getD k 0 = if hk : k < maxObjectBytes then o.data ⟨k, hk⟩ else 0 := by
  rw [content, getD_take]
  by_cases hk : k < maxObjectBytes
  · rw [dif_pos hk]
    split
    · rw [List.getD_eq_getElem _ 0 (by rw [List.length_ofFn]; exact hk), List.getElem_ofFn]
    · rename_i hlen
      exact (h ⟨k, hk⟩ (Nat.le_of_not_lt hlen)).symm
  · rw [dif_neg hk]
    split
    · exact List.getD_eq_default _ 0 (by rw [List.length_ofFn]; exact Nat.le_of_not_lt hk)
    · rfl

namespace StoreState

variable {config : Config} {s : StoreState}

/-- **The bytes of an object after a `write`.** -/
theorem Wf.content_written (h : s.Wf config) {i : Fin maxObjects}
    (hi : (s.objects i).present = true) {offset : Nat} {input : Bytes}
    (hend : offset + input.length ≤ maxObjectBytes) :
    ((s.objects i).written offset input).content =
      overwrite 0 (s.objects i).content offset input := by
  have hplace := h.written_inPlace hi hend
  apply ext_getD 0
  · rw [ObjectSlot.length_content hplace.len_le, length_overwrite,
      ObjectSlot.length_content (h.len_le i)]
    rfl
  · intro k
    rw [ObjectSlot.getD_content hplace.tail, getD_overwrite, ObjectSlot.getD_content (h.tail i)]
    by_cases hk : k < maxObjectBytes
    · rw [dif_pos hk, dif_pos hk]
      rfl
    · rw [dif_neg hk, dif_neg hk, if_neg (by omega)]

/-- **The bytes of an object after a `truncate`.** -/
theorem Wf.content_truncated (h : s.Wf config) {i : Fin maxObjects}
    (hi : (s.objects i).present = true) {newLen : Nat} (hnew : newLen ≤ maxObjectBytes) :
    ((s.objects i).truncated newLen).content = resize 0 (s.objects i).content newLen := by
  have hplace := h.truncated_inPlace hi hnew
  apply ext_getD 0
  · rw [ObjectSlot.length_content hplace.len_le, length_resize]
    rfl
  · intro k
    rw [ObjectSlot.getD_content hplace.tail, getD_resize, ObjectSlot.getD_content (h.tail i)]
    by_cases hk : k < maxObjectBytes
    · have hslot : ((s.objects i).truncated newLen).data ⟨k, hk⟩ =
          if min newLen (s.objects i).len ≤ k ∧ k < max newLen (s.objects i).len then 0
          else (s.objects i).data ⟨k, hk⟩ := rfl
      have hzero : (s.objects i).len ≤ k → (s.objects i).data ⟨k, hk⟩ = 0 := h.tail i ⟨k, hk⟩
      rw [dif_pos hk, dif_pos hk, hslot]
      -- between the two lengths both sides are zero
      by_cases hlt : k < newLen
      · rw [if_pos hlt]
        split
        · exact (hzero (by omega)).symm
        · rfl
      · rw [if_neg hlt]
        split
        · rfl
        · exact hzero (by omega)
    · rw [dif_neg hk, if_neg (by omega)]

/-! ## 3. Slots and contents -/

/-- The handle of an object leads to its slot. -/
theorem Wf.objectIndex_eq (h : s.Wf config) {i : Fin maxObjects}
    (hi : (s.objects i).present = true) : s.objectIndex (s.objects i).handle = .ok i := by
  rcases s.objectIndex_cases (s.objects i).handle with ⟨hdead, -⟩ | ⟨j, hj, hp, heq⟩
  · exact absurd ⟨i, hi, rfl⟩ hdead
  · rw [hj, h.ids j i hp hi (congrArg ObjectHandle.id heq)]

theorem contents_objects_eq (s : StoreState) (handle : ObjectHandle) :
    s.contents.objects handle = match s.objectIndex handle with
      | .ok i => some (s.objects i).content
      | .error _ => none := rfl

/-- **The objects of the contents are the slots that are in use.** -/
theorem Wf.contents_objects (h : s.Wf config) {handle : ObjectHandle} {bytes : Bytes} :
    s.contents.objects handle = some bytes ↔
      ∃ i, (s.objects i).present = true ∧ (s.objects i).handle = handle ∧
        (s.objects i).content = bytes := by
  rw [contents_objects_eq]
  constructor
  · intro heq
    rcases s.objectIndex_cases handle with ⟨-, hi⟩ | ⟨i, hi, hp, hh⟩
    · rw [hi] at heq
      cases heq
    · rw [hi] at heq
      exact ⟨i, hp, hh, Option.some.inj heq⟩
  · rintro ⟨i, hp, rfl, rfl⟩
    rw [h.objectIndex_eq hp]

/-- **So are the names.** -/
theorem Wf.contents_names (h : s.Wf config) {name : Name} {handle : ObjectHandle} :
    s.contents.names name = some handle ↔
      ∃ k, (s.namespaces k).present = true ∧ (s.namespaces k).name = name ∧
        (s.namespaces k).handle = handle := by
  refine Option.map_eq_some_iff.trans ?_
  constructor
  · rintro ⟨k, hk, rfl⟩
    have hslot := position_some hk
    rw [Bool.and_eq_true, decide_eq_true_eq] at hslot
    exact ⟨k, hslot.1, hslot.2, rfl⟩
  · rintro ⟨k, hp, hn, rfl⟩
    refine ⟨k, position_unique ?_ ?_, rfl⟩
    · rw [hp, hn, decide_eq_true rfl]
      rfl
    · intro j hj
      rw [Bool.and_eq_true, decide_eq_true_eq] at hj
      exact h.names j k hj.1 hp (hj.2.trans hn.symm)

/-- An object that is live has bytes. -/
theorem Wf.contents_of_index (h : s.Wf config) {handle : ObjectHandle} {i : Fin maxObjects}
    (hi : s.objectIndex handle = .ok i) :
    s.contents.objects handle = some (s.objects i).content :=
  h.contents_objects.mpr ⟨i, (objectIndex_ok hi).1, (objectIndex_ok hi).2, rfl⟩

theorem contents_ext {c : Contents} (hobjects : s.contents.objects = c.objects)
    (hnames : s.contents.names = c.names) : s.contents = c :=
  calc s.contents = ⟨s.contents.objects, s.contents.names⟩ := rfl
    _ = ⟨c.objects, c.names⟩ := by rw [hobjects, hnames]
    _ = c := rfl

/-- Two states have the same objects if their slots say so. -/
theorem Wf.objects_ext (h : s.Wf config) {f : ObjectHandle → Option Bytes}
    (hf : ∀ handle bytes, (∃ i, (s.objects i).present = true ∧ (s.objects i).handle = handle ∧
      (s.objects i).content = bytes) ↔ f handle = some bytes) : s.contents.objects = f := by
  funext handle
  apply Option.ext
  intro bytes
  exact h.contents_objects.trans (hf handle bytes)

/-- An object changed in place has new bytes; nothing else changes. -/
theorem InPlace.contents {i : Fin maxObjects} {o : ObjectSlot} (h : InPlace s i o)
    (hwf : s.Wf config) (hwf' : (s.setObject i o).Wf config) :
    (s.setObject i o).contents =
      { s.contents with
        objects := Function.update s.contents.objects (s.objects i).handle (some o.content) } := by
  have hobjects := hwf'.objects_ext (f := Function.update s.contents.objects (s.objects i).handle
    (some o.content)) (by
      intro handle bytes
      rw [Function.update_apply]
      by_cases hh : handle = (s.objects i).handle
      · rw [if_pos hh, Option.some.injEq]
        constructor
        · rintro ⟨j, hp, heq, hbytes⟩
          have hj : j = i := by
            refine hwf.ids j i ((h.slot j).1 ▸ hp) h.was_present ?_
            have hhandle := (h.slot j).2.symm.trans (heq.trans hh)
            exact congrArg ObjectHandle.id hhandle
          rw [hj, setObject_objects, Function.update_self] at hbytes
          exact hbytes
        · intro hbytes
          refine ⟨i, ?_⟩
          rw [setObject_objects, Function.update_self]
          exact ⟨h.present, h.handle.trans hh.symm, hbytes⟩
      · rw [if_neg hh, hwf.contents_objects]
        refine exists_congr fun j => ?_
        by_cases hj : j = i
        · subst hj
          rw [setObject_objects, Function.update_self, h.handle]
          exact ⟨fun ha => absurd ha.2.1.symm hh, fun ha => absurd ha.2.1.symm hh⟩
        · rw [setObject_objects, Function.update_of_ne hj])
  exact contents_ext hobjects rfl

theorem Wf.created_contents (h : s.Wf config) {i : Fin maxObjects}
    (hi : (s.objects i).present = false) :
    (s.created i).contents = s.contents.create ⟨s.nextObjectId, s.nextObjectGeneration⟩ := by
  have hobjects := (h.created hi).objects_ext (f := Function.update s.contents.objects
    ⟨s.nextObjectId, s.nextObjectGeneration⟩ (some [])) (by
      intro handle bytes
      rw [Function.update_apply]
      by_cases hh : handle = ⟨s.nextObjectId, s.nextObjectGeneration⟩
      · rw [if_pos hh, Option.some.injEq]
        constructor
        · rintro ⟨j, hp, heq, hbytes⟩
          rw [created_slot] at hp heq hbytes
          split at hbytes
          · exact hbytes
          · rename_i hj
            rw [if_neg hj] at hp heq
            have hlt := h.fresh j hp
            have hid : (s.objects j).id = s.nextObjectId := congrArg ObjectHandle.id (heq.trans hh)
            exact absurd hid (Nat.ne_of_lt hlt)
        · intro hbytes
          refine ⟨i, ?_⟩
          rw [created_slot, if_pos rfl]
          exact ⟨rfl, hh.symm, hbytes⟩
      · rw [if_neg hh, h.contents_objects]
        refine exists_congr fun j => ?_
        rw [created_slot]
        split
        · rename_i hj
          rw [hj, hi]
          exact ⟨fun ha => absurd ha.2.1.symm hh, fun ha => nomatch ha.1⟩
        · exact Iff.rfl)
  exact contents_ext hobjects rfl

theorem Wf.deleted_contents (h : s.Wf config) {handle : ObjectHandle} {i : Fin maxObjects}
    (hi : s.objectIndex handle = .ok i) :
    (s.deleted i handle).contents = s.contents.delete handle := by
  obtain ⟨hp, heq⟩ := objectIndex_ok hi
  have hobjects := (h.deleted hi).objects_ext (f := Function.update s.contents.objects handle none) (by
      intro other bytes
      rw [Function.update_apply]
      by_cases hh : other = handle
      · rw [if_pos hh]
        refine ⟨?_, nofun⟩
        rintro ⟨j, hj, hjh, -⟩
        have hlive : (s.deleted i handle).Live other := ⟨j, hj, hjh⟩
        exact absurd hh ((h.deleted_live hi other).mp hlive).2
      · rw [if_neg hh, h.contents_objects]
        refine exists_congr fun j => ?_
        by_cases hj : j = i
        · subst hj
          rw [deleted_self]
          exact ⟨fun ha => (nomatch ha.1), fun ha => absurd (ha.2.1.symm.trans heq) hh⟩
        · rw [deleted_of_ne hj])
  have hnames : (s.deleted i handle).contents.names =
      fun name => if s.contents.names name = some handle then none else s.contents.names name := by
    funext name
    apply Option.ext
    intro other
    rw [(h.deleted hi).contents_names]
    constructor
    · rintro ⟨k, hk, hn, hh⟩
      obtain ⟨hslot, hkp, hne⟩ := deleted_name hk
      rw [hslot] at hn hh
      have hname := h.contents_names.mpr ⟨k, hkp, hn, hh⟩
      -- a binding that is left was not one to the handle
      rw [if_neg, hname]
      rw [hname, Option.some.injEq, ← hh]
      exact hne
    · intro hname
      split at hname
      · cases hname
      · rename_i hne
        obtain ⟨k, hkp, hn, hh⟩ := h.contents_names.mp hname
        have hslot : (s.deleted i handle).namespaces k = s.namespaces k := by
          refine if_neg ?_
          rw [Bool.and_eq_true, decide_eq_true_eq]
          rintro ⟨-, hbound⟩
          rw [hname, ← hh, hbound] at hne
          exact hne rfl
        exact ⟨k, by rw [hslot]; exact hkp, by rw [hslot]; exact hn, by rw [hslot]; exact hh⟩
  exact contents_ext hobjects hnames

theorem Wf.named_contents (h : s.Wf config) {k : Fin maxNames} {name : Name}
    {handle : ObjectHandle} (hlive : s.Live handle)
    (hu : ∀ j, (s.namespaces j).present = true → (s.namespaces j).name = name → j = k)
    (hk : (s.namespaces k).present = true → (s.namespaces k).name = name) :
    (s.named k name handle).contents = s.contents.bind name handle := by
  have hslot : ∀ j, (s.named k name handle).namespaces j =
      if j = k then ⟨true, name, handle⟩ else s.namespaces j :=
    fun j => Function.update_apply _ _ _ _
  have hnames : (s.named k name handle).contents.names =
      Function.update s.contents.names name (some handle) := by
    funext other
    apply Option.ext
    intro bound
    rw [(h.named hlive hu).contents_names, Function.update_apply]
    by_cases ho : other = name
    · rw [if_pos ho, Option.some.injEq]
      constructor
      · rintro ⟨j, hj, hn, hh⟩
        rw [hslot] at hj hn hh
        split at hh
        · exact hh
        · rename_i hjk
          rw [if_neg hjk] at hj hn
          exact absurd (hu j hj (hn.trans ho)) hjk
      · intro hh
        refine ⟨k, ?_⟩
        rw [hslot, if_pos rfl]
        exact ⟨rfl, ho.symm, hh⟩
    · rw [if_neg ho, h.contents_names]
      refine exists_congr fun j => ?_
      rw [hslot]
      split
      · rename_i hjk
        subst hjk
        exact ⟨fun ha => absurd ha.2.1.symm ho, fun ha => absurd (ha.2.1.symm.trans (hk ha.1)) ho⟩
      · exact Iff.rfl
  exact contents_ext rfl hnames

end StoreState

/-! ## 4. Refinement -/

/-- **The state refines its contents**: what succeeds has its effect, what fails has none, a new
handle was not in use, and `read` and `lookup` report the contents. -/
structure Refines (config : Config) (s : StoreState) : Prop where
  finite : {handle | s.contents.objects handle ≠ none}.Finite ∧
    {name | s.contents.names name ≠ none}.Finite
  applied : ∀ (m : Mutation) r s', m.apply config s = (.ok r, s') → s'.contents = m.effect r s.contents
  failed : ∀ (m : Mutation) e s', m.apply config s = (.error e, s') → s' = s
  fresh : ∀ handle s', s.create = (.ok handle, s') → s.contents.objects handle = none
  read : ∀ handle offset output, s.read handle offset output = s.contents.read handle offset output
  lookup : ∀ name, s.lookup name = okOr (s.contents.names name) .nameNotFound

section Refine

variable {config : Config} {s s' : StoreState}

/-- An operation that succeeds has its effect. -/
theorem Mutation.contents_eq (h : s.Wf config) {m : Mutation} {r : Option ObjectHandle}
    (hm : m.apply config s = (.ok r, s')) : s'.contents = m.effect r s.contents := by
  have hwf := Mutation.apply_wf h hm
  cases m with
  | create =>
    have happly : ((s.create.1.map some : Except Error (Option ObjectHandle)), s.create.2) =
        (.ok r, s') := hm
    rcases s.create_cases with ⟨e, -, hs⟩ | ⟨i, hi, -, -, -, hs⟩
    · rw [hs] at happly
      cases happly
    · rw [hs] at happly
      cases happly
      exact h.created_contents hi
  | write handle offset input =>
    have hok : s.write handle offset input config = (.ok (), s') := Mutation.of_unit hm
    rcases h.write_cases handle offset input with ⟨e, -, hs⟩ | ⟨i, hi, -, hend, hplace, -, hs⟩
    · cases hs.symm.trans hok
    · cases hs.symm.trans hok
      obtain ⟨hp, hh⟩ := StoreState.objectIndex_ok hi
      have heffect : s.contents.write handle offset input = { s.contents with
          objects := Function.update s.contents.objects handle
            (some (overwrite 0 (s.objects i).content offset input)) } := by
        unfold Contents.write
        rw [h.contents_of_index hi]
        rfl
      rw [hplace.contents h hwf, hh, h.content_written hp hend]
      exact heffect.symm
  | truncate handle newLen =>
    have hok : s.truncate handle newLen config = (.ok (), s') := Mutation.of_unit hm
    rcases h.truncate_cases handle newLen with ⟨e, -, hs⟩ | ⟨i, hi, hle, hplace, -, hs⟩
    · cases hs.symm.trans hok
    · cases hs.symm.trans hok
      obtain ⟨hp, hh⟩ := StoreState.objectIndex_ok hi
      have heffect : s.contents.truncate handle newLen = { s.contents with
          objects := Function.update s.contents.objects handle
            (some (resize 0 (s.objects i).content newLen)) } := by
        unfold Contents.truncate
        rw [h.contents_of_index hi]
        rfl
      rw [hplace.contents h hwf, hh, h.content_truncated hp hle]
      exact heffect.symm
  | delete handle =>
    have hok : s.delete handle = (.ok (), s') := Mutation.of_unit hm
    rcases s.delete_cases handle with ⟨e, -, hs⟩ | ⟨i, hi, hs⟩
    · cases hs.symm.trans hok
    · cases hs.symm.trans hok
      exact h.deleted_contents hi
  | bind name handle =>
    have hok : s.bind name handle = (.ok (), s') := Mutation.of_unit hm
    rcases h.bind_cases name handle with ⟨e, -, hs⟩ | ⟨k, hlive, hu, hk, hs⟩
    · cases hs.symm.trans hok
    · cases hs.symm.trans hok
      exact h.named_contents hlive hu hk

/-- `read` reports the bytes of the object. -/
theorem StoreState.Wf.read_eq (h : s.Wf config) (handle : ObjectHandle) (offset : Nat)
    (output : Bytes) : s.read handle offset output = s.contents.read handle offset output := by
  have hmax : maxObjectBytes = 128 := rfl
  unfold StoreState.read Contents.read
  rcases s.objectIndex_cases handle with ⟨hdead, hi⟩ | ⟨i, hi, -, -⟩
  · have hnone : s.contents.objects handle = none := by
      rw [StoreState.contents_objects_eq, hi]
    rw [hi, hnone]
    rfl
  · have hlen := ObjectSlot.length_content (h.len_le i)
    have hle := h.len_le i
    rw [hi, h.contents_of_index hi]
    unfold tryUsize
    simp only [Bind.bind, Except.bind, hlen]
    by_cases hoff : (s.objects i).len < offset
    · rw [if_pos hoff]
      split
      · rename_i heq
        split at heq
        · cases heq
        · cases heq
          rfl
      · rename_i heq
        split at heq
        · cases heq
          rw [if_pos hoff]
          rfl
        · cases heq
    · rw [if_neg hoff, if_pos (by omega)]
      simp only [if_neg hoff]
      -- the count does not go beyond the length
      have hdrop : ((s.objects i).content.drop offset).take
          (min output.length ((s.objects i).len - offset)) =
          ((List.ofFn (s.objects i).data).drop offset).take
            (min output.length ((s.objects i).len - offset)) := by
        unfold ObjectSlot.content
        rw [List.drop_take, List.take_take]
        congr 1
        omega
      rw [hdrop]
      rfl

/-- There are no more objects and names than slots. -/
theorem StoreState.Wf.contents_finite (h : s.Wf config) :
    {handle | s.contents.objects handle ≠ none}.Finite ∧
      {name | s.contents.names name ≠ none}.Finite := by
  constructor
  · refine (Set.finite_range fun i => (s.objects i).handle).subset ?_
    intro handle hne
    obtain ⟨bytes, hbytes⟩ := Option.ne_none_iff_exists'.mp hne
    obtain ⟨i, -, hh, -⟩ := h.contents_objects.mp hbytes
    exact ⟨i, hh⟩
  · refine (Set.finite_range fun k => (s.namespaces k).name).subset ?_
    intro name hne
    obtain ⟨handle, hhandle⟩ := Option.ne_none_iff_exists'.mp hne
    obtain ⟨k, -, hn, -⟩ := h.contents_names.mp hhandle
    exact ⟨k, hn⟩

theorem StoreState.Wf.refines (h : s.Wf config) : Refines config s where
  finite := h.contents_finite
  applied m r s' hm := Mutation.contents_eq h hm
  failed m e s' hm := by
    rcases Mutation.apply_cases h m with ⟨e', -, hs⟩ | ⟨r, s'', hs, -⟩
    · rw [hs] at hm
      cases hm
      rfl
    · rw [hs] at hm
      cases hm
  fresh handle s' hc := by
    rcases s.create_cases with ⟨e, -, hs⟩ | ⟨i, -, -, -, -, hs⟩
    · rw [hs] at hc
      cases hc
    · rw [hs] at hc
      cases hc
      rw [Option.eq_none_iff_forall_ne_some]
      intro bytes hbytes
      obtain ⟨j, hp, hh, -⟩ := h.contents_objects.mp hbytes
      have hid : (s.objects j).id = s.nextObjectId := congrArg ObjectHandle.id hh
      exact absurd hid (Nat.ne_of_lt (h.fresh j hp))
  read := h.read_eq
  lookup name := by
    have hnames : s.contents.names name =
        (position (fun slot => slot.present && slot.name = name) s.namespaces).map
          fun i => (s.namespaces i).handle := rfl
    rw [hnames]
    unfold StoreState.lookup
    cases position (fun slot => slot.present && slot.name = name) s.namespaces with
    | none => rfl
    | some i => rfl

end Refine

/-! ## 5. Every run -/

/-- What a list of operations does, by what the store returns for each. -/
def effects {S : Type} [TransactionalStore S] (s : S) :
    List (TransactionId × Tick × Mutation) → Contents → Contents
  | [], c => c
  | (transaction, now, m) :: ops, c =>
    let r := m.run s transaction now
    effects r.2 ops (match r.1 with
      | .ok handle => m.effect handle c
      | .error _ => c)

/-- The operations, as calls. -/
def operations (ops : List (TransactionId × Tick × Mutation)) : List Call :=
  ops.map fun op => .mutate op.1 op.2.1 op.2.2

section Run

variable {variant : VariantId} {config : Config}

/-- **One operation.** -/
theorem Shows.mutate_effect {s : Store variant} {v : View} (h : Shows s v) {w : WorkingTransaction}
    (hw : v.active = some w) (transaction : TransactionId) (now : Tick) (m : Mutation) :
    ∃ v' w', Shows (m.run s transaction now).2 v' ∧ v'.active = some w' ∧
      w'.state.contents = match (m.run s transaction now).1 with
        | .ok r => m.effect r w.state.contents
        | .error _ => w.state.contents := by
  obtain ⟨v', hv', hmove⟩ := h.step (.mutate transaction now m)
  have hchanged : Changed v (.mutate transaction now m) (.mutated (m.run s transaction now).1) v' :=
    hmove.changed h.sound
  have hshows : Shows (m.run s transaction now).2 v' := hv'
  generalize (m.run s transaction now).1 = reply at hchanged
  cases hchanged with
  | refused _ _ e he =>
    cases reply with
    | error e' => exact ⟨v, w, hshows, hw, rfl⟩
    | ok r => cases he
  | looked _ _ hl => cases hl
  | edited _ _ r w' state ha hm hedit =>
    obtain rfl : w' = w := Option.some.inj (ha.symm.trans hw)
    exact ⟨_, _, hshows, rfl, Mutation.contents_eq (h.sound.active w' ha).1 hm⟩

/-- **A sequence of operations.** -/
theorem Shows.operations_effect : ∀ {ops : List (TransactionId × Tick × Mutation)}
    {s : Store variant} {v : View}, Shows s v → ∀ {w : WorkingTransaction}, v.active = some w →
      ∃ w', Parts.active (runCalls s (operations ops)) = some w' ∧
        w'.state.contents = effects s ops w.state.contents := by
  intro ops
  induction ops with
  | nil => exact fun h w hw => ⟨w, h.active.trans hw, rfl⟩
  | cons op ops ih =>
    intro s v h w hw
    obtain ⟨transaction, now, m⟩ := op
    obtain ⟨v', w', hv', hw', hcontents⟩ := h.mutate_effect hw transaction now m
    obtain ⟨last, hlast, heffects⟩ := ih hv' hw'
    rw [hcontents] at heffects
    exact ⟨last, hlast, heffects⟩

/-- **The states of a store refine their contents**, and so does every sequence of operations. -/
theorem contents_refined {s₀ : Store variant} (hnew : TransactionalStore.new config = .ok s₀)
    (calls : List Call) :
    (∀ state, Holds variant (runCalls s₀ calls) state → Refines config state) ∧
      (∀ w ops, Parts.active (runCalls s₀ calls) = some w →
        ∃ w', Parts.active (runCalls (runCalls s₀ calls) (operations ops)) = some w' ∧
          w'.state.contents = effects (runCalls s₀ calls) ops w.state.contents) ∧
      (∀ handle offset output, TransactionalStore.read (runCalls s₀ calls) handle offset output =
        (Parts.committed (runCalls s₀ calls)).contents.read handle offset output) ∧
      ∀ name, TransactionalStore.lookup (runCalls s₀ calls) name =
        okOr ((Parts.committed (runCalls s₀ calls)).contents.names name) .nameNotFound := by
  obtain ⟨v, hv, hconfig⟩ := reach_config hnew calls
  have hcommitted : Refines config (Parts.committed (runCalls s₀ calls)) := by
    rw [hv.committed, ← hconfig]
    exact hv.sound.committed.refines
  refine ⟨?_, ?_, ?_, ?_⟩
  · intro state hheld
    rw [← hconfig]
    exact (hv.holds_wf hheld).refines
  · intro w ops hw
    exact hv.operations_effect (hv.active.symm.trans hw)
  · intro handle offset output
    rw [read_eq]
    exact hcommitted.read handle offset output
  · intro name
    rw [lookup_eq]
    exact hcommitted.lookup name

theorem contents_refined_written :
    ∃ s₀ : Store .wal, TransactionalStore.new roomy = .ok s₀ ∧
      ∃ w', Parts.active (runCalls (runCalls s₀ [.begin 0 9]) (operations
          [(⟨1, 0⟩, 0, .create), (⟨1, 0⟩, 0, .write ⟨1, 1⟩ 2 [7])])) = some w' ∧
        w'.state.contents.objects ⟨1, 1⟩ = some [0, 0, 7] := by
  obtain ⟨s₀, hnew⟩ := exists_new .wal roomy
  have hactive : ∃ w, Parts.active (runCalls s₀ [.begin 0 9]) = some w := by
    cases hnew
    exact ⟨_, rfl⟩
  obtain ⟨w, hw⟩ := hactive
  obtain ⟨w', hw', hcontents⟩ := (contents_refined hnew [.begin 0 9]).2.1 w
    [(⟨1, 0⟩, 0, .create), (⟨1, 0⟩, 0, .write ⟨1, 1⟩ 2 [7])] hw
  refine ⟨s₀, hnew, w', hw', ?_⟩
  rw [hcontents]
  cases hnew
  cases hw
  rfl

end Run

end AegisShield.Storage
