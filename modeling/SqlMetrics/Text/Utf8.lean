/-!
# UTF-8

Texts of bytes. A text that is not UTF-8 has a longest prefix that is.
-/

set_option autoImplicit false

namespace SqlMetrics

/-- The number of bytes of the longest sequence of characters from `start` on, added to `start`. -/
def validEnd (bytes : ByteArray) (start : Nat) : Nat :=
  if start < bytes.size then
    match bytes.utf8DecodeChar? start with
    | none => start
    | some c => validEnd bytes (start + c.utf8Size)
  else start
termination_by bytes.size - start
decreasing_by
  have positive := c.utf8Size_pos
  omega

/-- The text that bytes encode, or the length of the longest prefix that encodes one. -/
def decodeUtf8 (bytes : ByteArray) : Except Nat String :=
  match String.fromUTF8? bytes with
  | some text => .ok text
  | none => .error (validEnd bytes 0)

end SqlMetrics
