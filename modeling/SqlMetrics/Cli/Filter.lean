import SqlMetrics.Cli.Event
import SqlMetrics.Decimal.Reading
import SqlMetrics.Text.Blank
import SqlMetrics.Text.Pieces

/-!
# Event filters

Which events of a run are shown. A filter is a list of directives, written with commas between
them. A directive is one of

* a level, for all events,
* a target, for all events whose targets begin with it,
* a target and a level with an equals sign between them,

and a target, which may be missing then, can be followed by square brackets. The brackets hold the
name of a span, a field in braces, or both. A run has no spans, so that a directive that asks for
one shows nothing; a directive with only a field applies to the events that have the field. Of the
directives that apply to an event the most specific decides (`rankFor`), and an event to which none
applies is not shown.
-/

set_option autoImplicit false

namespace SqlMetrics

namespace Cli

/-- Shows events up to a rank; rank zero shows none. -/
structure Directive where
  /-- The beginning of the targets it applies to. -/
  target : String := ""
  /-- The field that an event has to have, if any. -/
  field : Option String := none
  /-- It asks for a span, so that it applies to no event. -/
  spansOnly : Bool := false
  rank : Nat
  deriving DecidableEq, Repr

/-- Directives, in the order in which they are written. -/
abbrev EventFilter := List Directive

/-! ## What is shown -/

namespace Directive

/-- A directive applies to an event. -/
def appliesTo (directive : Directive) (event : Event) : Bool :=
  !directive.spansOnly
    && directive.target.toList.isPrefixOf event.target.toList
    && directive.field.all fun name => event.fieldNames.contains name

/-- The more specific of two directives: the one with the longer target, then the one that asks for
a field, then the one whose field has the greater name. Of two that are equally specific the second
counts. -/
def finer (held next : Directive) : Directive :=
  if held.target.length < next.target.length then next
  else if next.target.length < held.target.length then held
  else
    match held.field, next.field with
    | none, _ => next
    | some _, none => held
    | some name, some other => if other < name then held else next

end Directive

/-- The rank up to which events like this one are shown. -/
def rankFor (filter : EventFilter) (event : Event) : Nat :=
  let fitting := filter.filter fun directive => directive.appliesTo event
  (fitting.foldl Directive.finer { rank := 0 }).rank

def Event.isShown (filter : EventFilter) (event : Event) : Bool :=
  event.level.rank ≤ rankFor filter event

/-! ## Reading filters -/

/-- The names of the ranks, in their order. -/
def rankNames : List String :=
  ["off", "error", "warn", "info", "debug", "trace"]

/-- The rank that a text stands for: its name in any letter case, or its number, which a plus sign
may precede. -/
def rankOf? (text : List Char) : Option Nat :=
  let digits := if text.head? = some '+' then text.drop 1 else text
  if digits.isEmpty || !digits.all Char.isDigit then
    rankNames.findIdx? fun name => sameLetters name (String.ofList text)
  else if digitsValue digits < rankNames.length then some (digitsValue digits)
  else none

/-- The rank behind a target or behind brackets: an equals sign and a level. Where the level or
both are missing, everything is shown. -/
def rankBehind? : List Char → Option Nat
  | [] => some Level.trace.rank
  | ['='] => some Level.trace.rank
  | '=' :: level => rankOf? level
  | _ => none

/-- The field that the brackets of a directive ask for, whether they ask for a span, and the text
behind them; the opening bracket is left out. A field with a value asks for a span. -/
def bracketed? (text : List Char) : Option (Option String × Bool × List Char) :=
  let span := text.takeWhile fun c => c != ']' && c != '\x7b'
  match text.drop span.length with
  | ']' :: behind => some (none, true, behind)
  | '\x7b' :: inside =>
      let field := inside.takeWhile (· != '\x7d')
      match field, inside.drop field.length with
      | _ :: _, '\x7d' :: ']' :: behind =>
          some (some (String.ofList field), !span.isEmpty || field.contains '=', behind)
      | _, _ => none
  | _ => none

def beginsTarget (c : Char) : Bool :=
  c = '-' || c = ':' || c = '_' || isLetterOrNumeral c

/-- The directive that a text stands for. White space around a level makes it the name of a target,
white space before a target belongs to it, and white space around a directive with an equals sign
is refused. -/
def directiveOf? (text : List Char) : Option Directive :=
  let bare := trimBlank text
  let target := bare.takeWhile fun c => c != '=' && c != '['
  let wholeTarget := String.ofList (text.takeWhile isBlank ++ target)
  let rankOfRest? := fun rest : List Char =>
    if bare.length < text.length && !rest.isEmpty then none else rankBehind? rest
  if !target.head?.all beginsTarget then none
  else
    match bare.drop target.length with
    | '[' :: inside =>
        match bracketed? inside with
        | none => none
        | some (field, spansOnly, behind) =>
            (rankOfRest? behind).map fun rank =>
              { target := wholeTarget, field := field, spansOnly := spansOnly, rank := rank }
    | rest =>
        if target.isEmpty then none
        else if rest.isEmpty then
          match rankOf? text with
          | some rank => some { rank := rank }
          | none => some { target := String.ofList text, rank := Level.trace.rank }
        else (rankOfRest? rest).map fun rank => { target := wholeTarget, rank := rank }

def filterUpTo (level : Level) : EventFilter :=
  [{ rank := level.rank }]

/-- The filter that a text stands for. A text without directives shows nothing. If a directive is
malformed, the others do not count either, and events up to information are shown. -/
def filterOf (text : String) : EventFilter :=
  ((piecesBetween ',' text.toList).mapM directiveOf?).getD (filterUpTo .info)

/-- The filter of a run: if it is verbose, all events but traces are shown, else those that the
environment asks for; if it asks for none, events up to information. -/
def filterFor (verbose : Bool) (environment : Option String) : EventFilter :=
  if verbose then filterUpTo .debug
  else
    match environment with
    | some text => filterOf text
    | none => filterUpTo .info

end Cli

end SqlMetrics
