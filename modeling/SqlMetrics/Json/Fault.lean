/-!
# Faults of JSON texts

Why a JSON text is refused, in the three classes that callers tell apart.
-/

set_option autoImplicit false

namespace SqlMetrics

/-- Why a JSON text is refused. -/
inductive JsonFault where
  /-- The text is no JSON. -/
  | malformed
  /-- The text is JSON so far, but not of the expected form. -/
  | unsuitable
  /-- The text ends too early. -/
  | cutShort
  deriving DecidableEq, Repr

end SqlMetrics
