/-!
# Pieces of a text

The parts of a text that a mark divides. The mark belongs to none of them, and empty parts are left
out, so that no piece is empty and none contains the mark.
-/

set_option autoImplicit false

namespace SqlMetrics

/-- The parts of a text between its marks that are not empty. -/
def piecesBetween (mark : Char) (text : List Char) : List (List Char) :=
  (text.splitOn mark).filter fun piece => !piece.isEmpty

end SqlMetrics
