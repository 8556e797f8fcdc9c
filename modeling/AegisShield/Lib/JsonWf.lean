/-
# What `json.loads` returns

Every `dict` the machine builds is built with `Dict.set`, so a value that was read is well formed
(`loads_wf`): it can be printed and read back.
-/
import AegisShield.Lib.Json

namespace Lib

namespace Json

variable {F : Type}

/-! ## 1. Well-formed machines -/

theorem wfElems_iff : ∀ {xs : List (Json F)}, WfElems xs ↔ ∀ x ∈ xs, x.Wf
  | [] => by simp [WfElems]
  | x :: xs => by
    have ih : WfElems xs ↔ _ := wfElems_iff
    simp [WfElems, ih]

theorem wfElems_concat {xs : List (Json F)} {x : Json F} (h : WfElems xs) (hx : x.Wf) :
    WfElems (xs ++ [x]) := by
  rw [wfElems_iff] at h ⊢
  intro y hy
  rcases List.mem_append.mp hy with hy | hy
  · exact h y hy
  · rw [List.mem_singleton.mp hy]
    exact hx

theorem wf_empty : (Json.obj [] : Json F).Wf := ⟨List.Pairwise.nil, trivial⟩

/-- The container has well-formed contents. -/
def Frame.Wf : Frame F → Prop
  | .arr xs => WfElems xs
  | .member kvs _ => (Json.obj kvs).Wf

/-- The members read before the string are well formed. -/
def Slot.Wf : Slot F → Prop
  | .value => True
  | .key kvs => (Json.obj kvs).Wf

/-- What has been read so far is well formed. -/
def Mode.Wf : Mode F → Prop
  | .value => True
  | .arrOpen => True
  | .objOpen => True
  | .key kvs => (Json.obj kvs).Wf
  | .colon kvs _ => (Json.obj kvs).Wf
  | .afterElem xs => WfElems xs
  | .afterMember kvs => (Json.obj kvs).Wf
  | .done v => v.Wf
  | .num _ _ => True
  | .word _ v => v.Wf
  | .text slot _ => slot.Wf
  | .esc slot _ => slot.Wf
  | .uni slot _ _ _ _ => slot.Wf
  | .pair slot _ _ => slot.Wf
  | .pairU slot _ _ => slot.Wf

/-- Everything the machine holds is well formed. -/
def Machine.Wf (m : Machine F) : Prop := m.mode.Wf ∧ ∀ f ∈ m.stack, f.Wf

theorem wf_push {st : List (Frame F)} {f : Frame F} (hst : ∀ g ∈ st, g.Wf) (hf : f.Wf) :
    ∀ g ∈ f :: st, g.Wf := by
  intro g hg
  rcases List.mem_cons.mp hg with rfl | hg
  · exact hf
  · exact hst g hg

theorem finish_wf {v : Json F} (hv : v.Wf) : ∀ {st : List (Frame F)}, (∀ f ∈ st, f.Wf) →
    (finish v st).Wf
  | [], _ => ⟨hv, by simp [finish]⟩
  | .arr xs :: st, hst => by
    have hxs : WfElems xs := hst (.arr xs) List.mem_cons_self
    exact ⟨wfElems_concat hxs hv, fun f hf => hst f (List.mem_cons_of_mem _ hf)⟩
  | .member kvs k :: st, hst => by
    have hkvs : (Json.obj kvs).Wf := hst (.member kvs k) List.mem_cons_self
    exact ⟨Wf.set hkvs hv, fun f hf => hst f (List.mem_cons_of_mem _ hf)⟩

theorem finishText_wf {slot : Slot F} (hs : slot.Wf) (acc : List Char) {st : List (Frame F)}
    (hst : ∀ f ∈ st, f.Wf) : (finishText slot acc st).Wf := by
  cases slot with
  | value => exact finish_wf (v := Json.str _) trivial hst
  | key done => exact ⟨hs, hst⟩

theorem Mode.InText.wf {slot : Slot F} {mode : Mode F} (h : mode.InText slot) :
    mode.Wf ↔ slot.Wf := by
  cases mode with
  | text s acc | esc s acc | uni s acc hi count code | pair s acc hi | pairU s acc hi =>
    cases h
    rfl
  | _ => exact h.elim

/-! ## 2. Every step keeps them so -/

section Step

variable [PyFloat F]

theorem numValue_wf (text : List Char) (ns : NumState) : (numValue text ns : Json F).Wf := by
  unfold numValue
  split <;> trivial

theorem startValue_wf {st : List (Frame F)} {c : Char} {m : Machine F} (hst : ∀ f ∈ st, f.Wf)
    (h : startValue st c = some m) : m.Wf := by
  revert h
  unfold startValue
  iterate 8 refine of_ite_eq_some (fun _ hm => hm ▸ ⟨trivial, hst⟩) ?_
  intro h
  obtain ⟨ns, -, rfl⟩ := Option.map_eq_some_iff.mp h
  exact ⟨trivial, hst⟩

/-- **One character.** -/
theorem Moves.wf {m m' : Machine F} (h : Moves m m') (hm : m.Wf) : m'.Wf := by
  induction h with
  | stays m => exact hm
  | begins h => exact startValue_wf hm.2 h
  | beginsElem h => exact startValue_wf (wf_push (f := .arr []) hm.2 trivial) h
  | emptyArr st => exact finish_wf (v := Json.arr []) trivial hm.2
  | emptyObj st => exact finish_wf wf_empty hm.2
  | firstKey st => exact ⟨wf_empty, hm.2⟩
  | nextKey kvs st => exact ⟨hm.1, hm.2⟩
  | member kvs k st => exact ⟨trivial, wf_push hm.2 hm.1⟩
  | nextElem xs st => exact ⟨trivial, wf_push hm.2 hm.1⟩
  | closesArr xs st => exact finish_wf (v := Json.arr xs) hm.1 hm.2
  | nextMember kvs st => exact ⟨hm.1, hm.2⟩
  | closesObj kvs st => exact finish_wf hm.1 hm.2
  | digit t t' ns ns' st => exact ⟨trivial, hm.2⟩
  | infinity t rest ns x st => exact ⟨trivial, hm.2⟩
  | endsNum h ih => exact ih (finish_wf (numValue_wf _ _) hm.2)
  | letter rest rest' v st => exact ⟨hm.1, hm.2⟩
  | endsWord rest v st => exact finish_wf hm.1 hm.2
  | inText slot st h h' => exact ⟨h'.wf.mpr (h.wf.mp hm.1), hm.2⟩
  | endsText slot acc st => exact finishText_wf hm.1 acc hm.2

theorem run_wf : ∀ {cs : List Char} {m m' : Machine F}, m.Wf → run m cs = some m' → m'.Wf
  | [], _, _, hm, h => by cases h; exact hm
  | c :: cs, m, m', hm, h => by
    obtain ⟨m₁, h₁, h₂⟩ := Option.bind_eq_some_iff.mp h
    exact run_wf ((moves_of_step h₁).wf hm) h₂

/-- **A value that was read is well formed.** -/
theorem loads_wf {bs : Bytes} {v : Json F} (h : loads bs = some v) : v.Wf := by
  obtain ⟨cs, -, h⟩ := Option.bind_eq_some_iff.mp h
  obtain ⟨m, hm, hv⟩ := Option.bind_eq_some_iff.mp h
  have hwf : m.Wf := run_wf (m := ⟨.value, []⟩) ⟨trivial, by simp⟩ hm
  unfold final at hv
  split at hv
  · rename_i hmode _
    cases hv
    have := hwf.1
    rwa [hmode] at this
  · split at hv
    · cases hv; exact numValue_wf _ _
    · cases hv
  · cases hv

end Step

end Json

end Lib
