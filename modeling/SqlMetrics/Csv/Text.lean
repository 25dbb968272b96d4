import SqlMetrics.Csv.Grammar

/-!
# Writing comma-separated values

A field is quoted if it holds a comma, a quote or a character that ends a record, and a quote in it
is doubled. Every record ends with a line feed.
-/

set_option autoImplicit false

namespace SqlMetrics

namespace Csv

def needsQuotes (c : Char) : Bool :=
  c = ',' || c = '\x22' || c = '\n' || c = '\r'

def quoteChar (c : Char) : List Char :=
  if c = '\x22' then ['\x22', '\x22'] else [c]

def fieldText (field : List Char) : List Char :=
  if field.any needsQuotes then '\x22' :: field.flatMap quoteChar ++ ['\x22'] else field

def fieldsText : List (List Char) → List Char
  | [] => []
  | [field] => fieldText field
  | field :: next :: rest => fieldText field ++ ',' :: fieldsText (next :: rest)

def recordText (fields : List (List Char)) : List Char :=
  fieldsText fields ++ ['\n']

def tableText (records : List (List (List Char))) : List Char :=
  records.flatMap recordText

end Csv

end SqlMetrics
