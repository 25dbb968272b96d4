import SqlMetrics.Assessment
import SqlMetrics.Error
import SqlMetrics.Text.Numeral

/-!
# Events of a run

What a run reports while it goes on. An event has a level, a target (the part of the program it
comes from), a message, and fields, each with a name and a value. Its text is the message followed
by the fields. Characters that would steer a terminal are spelled out in the message; the values of
the fields are shown as they are.
-/

set_option autoImplicit false

namespace SqlMetrics

namespace Cli

inductive Level where
  | error
  | warning
  | info
  | debug
  | trace
  deriving DecidableEq, Repr

namespace Level

/-- The place of a level: the more it shows, the greater. -/
def rank : Level → Nat
  | error => 1
  | warning => 2
  | info => 3
  | debug => 4
  | trace => 5

def text : Level → String
  | error => "ERROR"
  | warning => "WARN"
  | info => "INFO"
  | debug => "DEBUG"
  | trace => "TRACE"

end Level

/-- Something that a run reports. -/
inductive Event where
  /-- So many queries were loaded. -/
  | loaded (count : Nat) (input : Path)
  /-- A query could not be parsed. -/
  | skipped (query : Skipped)
  /-- All queries were assessed or skipped. -/
  | analyzed (records unparsed : Nat) (dialect : String)
  /-- The result files were written. -/
  | wrote (name : String) (records unparsed : Nat) (directory : Path)
  /-- The run failed. -/
  | failed (error : Error)
  deriving DecidableEq, Repr

namespace Event

def level : Event → Level
  | loaded _ _ => .info
  | skipped _ => .debug
  | analyzed _ _ _ => .info
  | wrote _ _ _ _ => .info
  | failed _ => .error

def target : Event → String
  | skipped _ => "sql_complexity::analysis"
  | analyzed _ _ _ => "sql_complexity::analysis"
  | _ => "sql_complexity"

def message : Event → String
  | loaded _ _ => "loaded queries"
  | skipped _ => "skipping unparseable query"
  | analyzed _ _ _ => "batch analysis finished"
  | wrote name _ _ _ =>
      "wrote " ++ name ++ "_analysis.csv, " ++ name ++ "_analysis.json, " ++ name ++ "_report.md"
  | failed error => error.message

/-- The fields of an event, in the order in which they are shown. -/
def fields : Event → List (String × String)
  | loaded count input => [("count", toString count), ("input", input)]
  | skipped query => [("index", toString query.index), ("error", query.error.message)]
  | analyzed records unparsed dialect =>
      [("analyzed", toString records), ("skipped", toString unparsed), ("dialect", dialect)]
  | wrote _ records unparsed directory =>
      [("analyzed", toString records), ("skipped", toString unparsed), ("output_dir", directory)]
  | failed _ => []

/-- The names of what an event carries: its message and its fields. -/
def fieldNames (event : Event) : List String :=
  "message" :: event.fields.map Prod.fst

def shownChar (c : Char) : List Char :=
  if c = '\x1b' then ['\\', 'x', '1', 'b']
  else if c = '\x07' then ['\\', 'x', '0', '7']
  else if c = '\x08' then ['\\', 'x', '0', '8']
  else if c = '\x0c' then ['\\', 'x', '0', 'c']
  else if c = '\x7f' then ['\\', 'x', '7', 'f']
  else if 0x80 ≤ c.toNat && c.toNat ≤ 0x9f then
    ['\\', 'u', '\x7b'] ++ (hexText c.toNat).toList ++ ['\x7d']
  else [c]

/-- A message as it is shown: the escape character, the other characters that a terminal acts on,
and the control characters from U+0080 to U+009F are spelled out. -/
def shownMessage (message : String) : String :=
  String.ofList (message.toList.flatMap shownChar)

/-- The text of an event: its message, then its fields. -/
def text (event : Event) : String :=
  shownMessage event.message
    ++ String.join (event.fields.map fun field => " " ++ field.1 ++ "=" ++ field.2)

end Event

end Cli

end SqlMetrics
