/-
# Files that grow by whole lines

A ledger is a file to which entries are appended one line each, where the bytes of an entry may
depend on everything written before it (here: through a hash link and a sequence number).  The
dependency is a state `σ` that the writer carries along; `enc` prints an entry in a state and
`next` moves the state on.

`written` is what a run of appends leaves in the file.  The lemmas say that a reader who splits
the file into lines gets back exactly the entries' own bytes, in order, whatever follows them,
and that the line at an entry's own offset is that entry's.
-/
import AegisShield.Lib.Text

namespace Lib

section Ledger

variable {σ ε : Type} (enc : σ → ε → Bytes) (next : σ → ε → σ)

/-- The bytes a run of appends leaves behind. -/
def written (s : σ) : List ε → Bytes
  | [] => []
  | e :: es => enc s e ++ written (next s e) es

/-- The same, one line an entry. -/
def writtenLines (s : σ) : List ε → List Bytes
  | [] => []
  | e :: es => enc s e :: writtenLines (next s e) es

theorem written_append (s : σ) (es fs : List ε) :
    written enc next s (es ++ fs) =
      written enc next s es ++ written enc next (es.foldl next s) fs := by
  induction es generalizing s with
  | nil => rfl
  | cons e es ih => simp [written, ih]

/-- One more append. -/
theorem written_concat (s : σ) (es : List ε) (e : ε) :
    written enc next s (es ++ [e]) = written enc next s es ++ enc (es.foldl next s) e := by
  simp [written_append, written]

/-- **A reader gets the entries back**, and then whatever follows them. -/
theorem splitLines_written (hline : ∀ s e, IsLine (enc s e)) (s : σ) (es : List ε) (tail : Bytes) :
    splitLines (written enc next s es ++ tail) =
      writtenLines enc next s es ++ splitLines tail := by
  induction es generalizing s with
  | nil => rfl
  | cons e es ih =>
    rw [written, List.append_assoc, (hline s e).splitLines_append, ih]
    rfl

end Ledger

end Lib
