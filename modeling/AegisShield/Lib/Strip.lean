/-
# Stripping text

`str.strip()`: the white space at both ends of a text goes, by the characters for which
`str.isspace()` holds.
-/
import Mathlib.Data.List.Basic

namespace Lib

/-- `c.isspace()`. -/
def spaceChar (c : Char) : Bool :=
  (9 ≤ c.toNat && c.toNat ≤ 13) || (28 ≤ c.toNat && c.toNat ≤ 32) || c.toNat == 0x85 ||
    c.toNat == 0xA0 || c.toNat == 0x1680 || (0x2000 ≤ c.toNat && c.toNat ≤ 0x200A) ||
    c.toNat == 0x2028 || c.toNat == 0x2029 || c.toNat == 0x202F || c.toNat == 0x205F ||
    c.toNat == 0x3000

/-- `lstrip()`. -/
def lstrip (cs : List Char) : List Char := cs.dropWhile spaceChar

/-- `strip()`. -/
def strip (cs : List Char) : List Char := (lstrip (lstrip cs).reverse).reverse

@[simp] theorem lstrip_nil : lstrip [] = [] := rfl

theorem lstrip_spaces : ∀ {sp : List Char} (cs : List Char), (∀ c ∈ sp, spaceChar c) →
    lstrip (sp ++ cs) = lstrip cs
  | [], _, _ => rfl
  | c :: sp, cs, h => by
    have hc : spaceChar c := h c List.mem_cons_self
    have ih : lstrip (sp ++ cs) = lstrip cs :=
      lstrip_spaces cs fun d hd => h d (List.mem_cons_of_mem c hd)
    rw [← ih, List.cons_append, lstrip, List.dropWhile_cons_of_pos hc]
    rfl

/-- A text that starts with another character stays. -/
theorem lstrip_of_head {cs : List Char} (h : ∀ c ∈ cs.head?, ¬ spaceChar c) : lstrip cs = cs := by
  cases cs with
  | nil => rfl
  | cons c cs => exact List.dropWhile_cons_of_neg (h c rfl)

/-- **White space around a text goes**, and nothing else. -/
theorem strip_around {before text after : List Char} (hbefore : ∀ c ∈ before, spaceChar c)
    (hafter : ∀ c ∈ after, spaceChar c) (hhead : ∀ c ∈ text.head?, ¬ spaceChar c)
    (hlast : ∀ c ∈ text.getLast?, ¬ spaceChar c) : strip (before ++ text ++ after) = text := by
  have hback : ∀ c ∈ after.reverse, spaceChar c := fun c hc => hafter c (List.mem_reverse.mp hc)
  rw [← List.head?_reverse] at hlast
  unfold strip
  rw [List.append_assoc, lstrip_spaces _ hbefore]
  cases text with
  | nil =>
    have hall : lstrip after = [] := by
      have h := lstrip_spaces [] hafter
      rwa [List.append_nil] at h
    rw [List.nil_append, hall]
    rfl
  | cons c text =>
    have hfront : lstrip ((c :: text) ++ after) = (c :: text) ++ after :=
      lstrip_of_head (by simpa using hhead c rfl)
    rw [hfront, List.reverse_append, lstrip_spaces _ hback, lstrip_of_head hlast, List.reverse_reverse]

end Lib
