/-
# Block images and their history

An image gives every block its content.  A `Patch` replaces a run of consecutive blocks, and an
image with a history of patches can be looked at after any number of them.

There are two ways to find a block's content: apply the patches one by one (`patched`), or look
for the newest patch that covers the block (`newest`) and fall back on the base.  `patched_eq`
says they agree, for every pattern of overlaps.
-/
import Mathlib.Data.List.Induction
import Mathlib.Tactic.Ring

namespace Lib

/-! ## 1. Patches -/

/-- New content for `count` blocks from `start` on.  `content` is indexed by the block itself. -/
structure Patch (α : Type) where
  start : Nat
  count : Nat
  content : Nat → α

namespace Patch

variable {α : Type}

/-- The patch replaces block `b`. -/
def Covers (p : Patch α) (b : Nat) : Prop := p.start ≤ b ∧ b < p.start + p.count

instance (p : Patch α) (b : Nat) : Decidable (p.Covers b) :=
  inferInstanceAs (Decidable (p.start ≤ b ∧ b < p.start + p.count))

/-- The image after the patch. -/
def overwrite (image : Nat → α) (p : Patch α) : Nat → α :=
  fun b => if p.Covers b then p.content b else image b

/-- The image after a history of patches, oldest first. -/
def patched (image : Nat → α) (ps : List (Patch α)) : Nat → α := ps.foldl overwrite image

theorem patched_concat (image : Nat → α) (ps : List (Patch α)) (p : Patch α) :
    patched image (ps ++ [p]) = overwrite (patched image ps) p := by
  simp [patched]

theorem patched_congr {image image' : Nat → α} {b : Nat} (h : image b = image' b)
    (ps : List (Patch α)) : patched image ps b = patched image' ps b := by
  induction ps using List.reverseRecOn with
  | nil => exact h
  | append_singleton ps p ih =>
    rw [patched_concat, patched_concat, overwrite, overwrite]
    split
    · rfl
    · exact ih

/-! ## 2. The newest patch that covers a block -/

/-- The position of the last patch that covers block `b`. -/
def newest : List (Patch α) → Nat → Option Nat
  | [], _ => none
  | p :: ps, b =>
    match newest ps b with
    | some i => some (i + 1)
    | none => if p.Covers b then some 0 else none

theorem newest_concat (ps : List (Patch α)) (p : Patch α) (b : Nat) :
    newest (ps ++ [p]) b = if p.Covers b then some ps.length else newest ps b := by
  induction ps with
  | nil => rfl
  | cons q ps ih =>
    rw [List.cons_append, newest, ih]
    by_cases h : p.Covers b
    · simp [h]
    · simp [h, newest]

/-- The newest patch is one of the history, and covers the block. -/
theorem newest_some {ps : List (Patch α)} {b i : Nat} (h : newest ps b = some i) :
    ∃ p, ps[i]? = some p ∧ p.Covers b := by
  induction ps using List.reverseRecOn generalizing i with
  | nil => cases h
  | append_singleton ps p ih =>
    rw [newest_concat] at h
    split at h
    · rename_i hp
      cases h
      exact ⟨p, by simp, hp⟩
    · obtain ⟨q, hq, hc⟩ := ih h
      have hlt : i < ps.length := (List.getElem?_eq_some_iff.mp hq).1
      exact ⟨q, by rw [List.getElem?_append_left hlt]; exact hq, hc⟩

/-- **Applying the patches and looking the newest one up agree.** -/
theorem patched_eq (image : Nat → α) (ps : List (Patch α)) (b : Nat) :
    patched image ps b =
      match (newest ps b).bind (ps[·]?) with
      | some p => p.content b
      | none => image b := by
  induction ps using List.reverseRecOn with
  | nil => rfl
  | append_singleton ps p ih =>
    rw [patched_concat, overwrite, newest_concat]
    split
    · simp
    · rw [ih]
      cases hn : newest ps b with
      | none => rfl
      | some i =>
        obtain ⟨q, hq, -⟩ := newest_some hn
        have hlt : i < ps.length := (List.getElem?_eq_some_iff.mp hq).1
        rw [Option.bind_some, Option.bind_some, List.getElem?_append_left hlt]

/-- **Applying a history twice is applying it once.** -/
theorem patched_patched (image : Nat → α) (ps : List (Patch α)) (b : Nat) :
    patched (patched image ps) ps b = patched image ps b := by
  rw [patched_eq (patched image ps)]
  cases hn : newest ps b with
  | none => rfl
  | some i =>
    obtain ⟨p, hp, -⟩ := newest_some hn
    rw [Option.bind_some, hp, patched_eq, hn, Option.bind_some, hp]

end Patch

/-! ## 3. Images as flat files -/

section Flat

variable {α : Type}

/-- Block `b` of a file of `size`-element blocks. -/
def blockOf (size : Nat) (file : List α) (b : Nat) : List α := (file.drop (b * size)).take size

theorem length_blockOf {size blocks b : Nat} {file : List α} (h : file.length = blocks * size)
    (hb : b < blocks) : (blockOf size file b).length = size := by
  have hle : (b + 1) * size ≤ blocks * size := Nat.mul_le_mul_right _ hb
  rw [Nat.add_mul, Nat.one_mul] at hle
  simp only [blockOf, List.length_take, List.length_drop, h]
  omega

/-- A file written block by block has the blocks it was written from. -/
theorem blockOf_flatten {size : Nat} (f : Nat → List α) :
    ∀ (start n b : Nat), (∀ i, start ≤ i → i < start + n → (f i).length = size) → b < n →
      blockOf size ((List.range' start n).map f).flatten b = f (start + b)
  | start, 0, b, _, hb => absurd hb (Nat.not_lt_zero b)
  | start, n + 1, 0, h, _ => by
    have hs : (f start).length = size := h start (Nat.le_refl _) (by omega)
    simp [blockOf, List.range'_succ, ← hs]
  | start, n + 1, b + 1, h, hb => by
    have hs : (f start).length = size := h start (Nat.le_refl _) (by omega)
    have ih := blockOf_flatten f (start + 1) n b
      (fun i h1 h2 => h i (by omega) (by omega)) (by omega)
    have hdrop : (b + 1) * size = (f start).length + b * size := by rw [hs]; ring
    rw [blockOf] at ih ⊢
    rw [List.range'_succ, List.map_cons, List.flatten_cons, hdrop, ← List.drop_drop,
      List.drop_left, ih]
    congr 1
    omega

/-- The blocks of a file make up the file. -/
theorem flatten_blockOf (size : Nat) (file : List α) : ∀ n : Nat,
    ((List.range' 0 n).map (blockOf size file)).flatten = file.take (n * size)
  | 0 => by simp
  | n + 1 => by
    have ih := flatten_blockOf size file n
    rw [List.range'_1_concat, List.map_append, List.flatten_append, ih, Nat.zero_add, Nat.add_mul,
      Nat.one_mul, List.take_add]
    simp [blockOf]

theorem length_flatten_blocks {size : Nat} (f : Nat → List α) :
    ∀ (start n : Nat), (∀ i, start ≤ i → i < start + n → (f i).length = size) →
      ((List.range' start n).map f).flatten.length = n * size
  | _, 0, _ => by simp
  | start, n + 1, h => by
    have hs : (f start).length = size := h start (Nat.le_refl _) (by omega)
    have ih := length_flatten_blocks f (start + 1) n (fun i h1 h2 => h i (by omega) (by omega))
    rw [List.range'_succ, List.map_cons, List.flatten_cons, List.length_append, ih, hs]
    ring

end Flat

end Lib
