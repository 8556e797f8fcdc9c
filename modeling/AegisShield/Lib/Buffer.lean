/-
# Buffers that grow

A list that is written to beyond its end, or resized, is filled up with a filler `z`.  With the
filler read beyond the end as well, each operation is a function of the index (`getD_overwrite`,
`getD_resize`), and lists of one length that read the same are the same (`ext_getD`).
-/
import Mathlib.Data.List.GetD

namespace Lib

variable {α : Type} (z : α)

/-- The list, filled up to a length. -/
def padTo (n : Nat) (l : List α) : List α := l ++ List.replicate (n - l.length) z

/-- The list, filled up to the end of the input if it is shorter, with the input at the offset. -/
def overwrite (l : List α) (offset : Nat) (input : List α) : List α :=
  (padTo z (offset + input.length) l).take offset ++ input ++
    (padTo z (offset + input.length) l).drop (offset + input.length)

/-- The first `n` elements, filled up to `n`. -/
def resize (l : List α) (n : Nat) : List α := padTo z n (l.take n)

theorem length_padTo (n : Nat) (l : List α) : (padTo z n l).length = max n l.length := by
  rw [padTo, List.length_append, List.length_replicate]
  omega

theorem getD_padTo (n : Nat) (l : List α) (k : Nat) : (padTo z n l).getD k z = l.getD k z := by
  rw [padTo]
  by_cases hk : k < l.length
  · exact List.getD_append l _ z k hk
  · rw [List.getD_append_right _ _ _ _ (Nat.le_of_not_lt hk), List.getD_eq_default l z (Nat.le_of_not_lt hk)]
    by_cases hr : k - l.length < n - l.length
    · rw [List.getD_eq_getElem _ z (by rw [List.length_replicate]; exact hr), List.getElem_replicate]
    · exact List.getD_eq_default _ z (by rw [List.length_replicate]; exact Nat.le_of_not_lt hr)

theorem length_overwrite (l : List α) (offset : Nat) (input : List α) :
    (overwrite z l offset input).length = max l.length (offset + input.length) := by
  rw [overwrite, List.length_append, List.length_append, List.length_take, List.length_drop,
    length_padTo]
  omega

theorem length_resize (l : List α) (n : Nat) : (resize z l n).length = n := by
  rw [resize, length_padTo, List.length_take]
  omega

theorem getD_take (l : List α) (n k : Nat) :
    (l.take n).getD k z = if k < n then l.getD k z else z := by
  rw [List.getD_eq_getElem?_getD, List.getElem?_take]
  split
  · rw [List.getD_eq_getElem?_getD]
  · rfl

/-- **What a list reads after an overwrite.** -/
theorem getD_overwrite (l : List α) (offset : Nat) (input : List α) (k : Nat) :
    (overwrite z l offset input).getD k z =
      if offset ≤ k ∧ k < offset + input.length then input.getD (k - offset) z else l.getD k z := by
  have hlen : ((padTo z (offset + input.length) l).take offset).length = offset := by
    rw [List.length_take, length_padTo]
    omega
  rw [overwrite, List.append_assoc]
  by_cases hlo : k < offset
  · rw [List.getD_append _ _ z k (by omega), getD_take, if_pos hlo, getD_padTo, if_neg (by omega)]
  · rw [List.getD_append_right _ _ z k (by omega), hlen]
    by_cases hhi : k < offset + input.length
    · rw [List.getD_append _ _ z _ (by omega), if_pos (by omega)]
    · have hk : offset + input.length + (k - offset - input.length) = k := by omega
      rw [List.getD_append_right _ _ z _ (by omega), if_neg (by omega), List.getD_eq_getElem?_getD,
        List.getElem?_drop, hk, ← List.getD_eq_getElem?_getD, getD_padTo]

/-- **What a list reads after it was resized.** -/
theorem getD_resize (l : List α) (n k : Nat) :
    (resize z l n).getD k z = if k < n then l.getD k z else z := by
  rw [resize, getD_padTo, getD_take]

/-- Lists of one length that read the same are the same. -/
theorem ext_getD {l l' : List α} (hlen : l.length = l'.length)
    (h : ∀ k, l.getD k z = l'.getD k z) : l = l' := by
  apply List.ext_getElem hlen
  intro k hk hk'
  have h1 := h k
  rw [List.getD_eq_getElem l z hk, List.getD_eq_getElem l' z hk'] at h1
  exact h1

end Lib
