/-
# A byte stream that arrives in pieces

The reading end of a connection.  What the peer sends before it closes arrives in pieces that the
peer does not choose; a receive gives at most as many bytes as it asks for, of one piece, and
nothing only at the end of the stream.  Any way to cut a stream into the chunks that the receives
give is a list of pieces, so a statement for all connections is one for all ways the bytes arrive.
-/
import AegisShield.Lib.Text

namespace Lib

/-- The bytes still to come, in the pieces they arrive in. -/
structure Connection where
  pieces : List Bytes
  nonempty : ∀ p ∈ pieces, p ≠ []

namespace Connection

/-- The bytes still to come. -/
def stream (c : Connection) : Bytes := c.pieces.flatten

/-- `recv(n)`. -/
def recv : Connection → Nat → Bytes × Connection
  | ⟨[], h⟩, _ => ([], ⟨[], h⟩)
  | ⟨p :: ps, h⟩, n =>
    if hn : n < p.length then
      (p.take n, ⟨p.drop n :: ps, List.forall_mem_cons.mpr
        ⟨List.ne_nil_of_length_pos (by rw [List.length_drop]; omega),
          (List.forall_mem_cons.mp h).2⟩⟩)
    else (p, ⟨ps, (List.forall_mem_cons.mp h).2⟩)

/-- A receive takes the next bytes of the stream. -/
theorem recv_append (c : Connection) (n : Nat) : (c.recv n).1 ++ (c.recv n).2.stream = c.stream := by
  obtain ⟨ps, h⟩ := c
  cases ps with
  | nil => rfl
  | cons p ps =>
    by_cases hn : n < p.length
    · rw [recv, dif_pos hn]
      simp only [stream, List.flatten_cons, ← List.append_assoc, List.take_append_drop]
    · rw [recv, dif_neg hn]
      simp only [stream, List.flatten_cons]

/-- It takes no more than it asks for. -/
theorem length_recv_le (c : Connection) (n : Nat) : (c.recv n).1.length ≤ n := by
  obtain ⟨ps, h⟩ := c
  cases ps with
  | nil => exact Nat.zero_le n
  | cons p ps =>
    by_cases hn : n < p.length
    · rw [recv, dif_pos hn]
      exact List.length_take_le n p
    · rw [recv, dif_neg hn]
      exact Nat.le_of_not_lt hn

/-- It takes nothing only at the end of the stream. -/
theorem recv_eq_nil_iff (c : Connection) {n : Nat} (hn : 0 < n) :
    (c.recv n).1 = [] ↔ c.stream = [] := by
  obtain ⟨ps, h⟩ := c
  cases ps with
  | nil => exact iff_of_true rfl rfl
  | cons p ps =>
    obtain ⟨hp, -⟩ := List.forall_mem_cons.mp h
    refine iff_of_false ?_ ?_
    · by_cases hlong : n < p.length
      · rw [recv, dif_pos hlong]
        intro htake
        rcases List.take_eq_nil_iff.mp htake with hzero | hnil
        · omega
        · exact hp hnil
      · rw [recv, dif_neg hlong]
        exact hp
    · intro hnil
      exact hp (List.append_eq_nil_iff.mp hnil).1

end Connection

end Lib
