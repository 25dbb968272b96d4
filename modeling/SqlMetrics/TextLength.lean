/-!
# The length of a text

Lines and characters of a query text. Lines end at every Unicode line boundary; a carriage return
with a line feed behind it is one boundary, and a boundary at the end of the text begins no line.
-/

set_option autoImplicit false

namespace SqlMetrics

structure TextLength where
  lines : Nat
  characters : Nat
  deriving DecidableEq, Repr, Inhabited

def isLineBreak (c : Char) : Bool :=
  c = '\n' || c = '\r' || c = '\x0b' || c = '\x0c' || c = '\x1c' || c = '\x1d' || c = '\x1e'
    || c = '\u0085' || c = '\u2028' || c = '\u2029'

/-- The lines of a text that continues a line if `isOpen`. -/
def countLines (isOpen : Bool) : List Char → Nat
  | [] => if isOpen then 1 else 0
  | ['\r'] => 1
  | '\r' :: '\n' :: rest => countLines false rest + 1
  | c :: rest => if isLineBreak c then countLines false rest + 1 else countLines true rest

def TextLength.of (text : String) : TextLength :=
  ⟨countLines false text.toList, text.length⟩

end SqlMetrics
