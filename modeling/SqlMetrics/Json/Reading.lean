import SqlMetrics.Json.Document

/-!
# Reading JSON values

A document becomes a value unless it holds a fault or nests too deep. The members of an object are
sorted by name, and of members with one name the last counts.
-/

set_option autoImplicit false

namespace SqlMetrics

namespace Document

/-- One more than the number of arrays and objects that may be open at the same time. -/
def depthLimit : Nat := 128

def setMember (name : String) (value : Json) : List (String × Json) → List (String × Json)
  | [] => [(name, value)]
  | member :: rest =>
      if name = member.1 then (name, value) :: rest
      else if name < member.1 then (name, value) :: member :: rest
      else member :: setMember name value rest

/-- The members of an object: sorted by name, the last of each name. -/
def sortMembers (members : List (String × Json)) : List (String × Json) :=
  members.foldl (fun sorted member => setMember member.1 member.2 sorted) []

def closed (ending : Option Breakage) : Except JsonFault Unit :=
  match ending with
  | none => .ok ()
  | some breakage => .error breakage.read

mutual

/-- The value of a document; `depth` arrays and objects are open around it. -/
def toJson (depth : Nat) : Document → Except JsonFault Json
  | .null => .ok .null
  | .bool value => .ok (.bool value)
  | .number numeral => (numberOf numeral).map .number
  | .text value => value.map .text
  | .array items ending =>
      if depth + 1 < depthLimit then do
        let values ← itemsToJson (depth + 1) items
        closed ending
        return .array values
      else .error .malformed
  | .object members ending =>
      if depth + 1 < depthLimit then do
        let values ← membersToJson (depth + 1) members
        closed ending
        return .object (sortMembers values)
      else .error .malformed
  | .broken breakage => .error breakage.read

def itemsToJson (depth : Nat) : List Document → Except JsonFault (List Json)
  | [] => .ok []
  | item :: rest => do
      let value ← toJson depth item
      let others ← itemsToJson depth rest
      return value :: others

def membersToJson (depth : Nat) :
    List Member → Except JsonFault (List (String × Json))
  | [] => .ok []
  | (name, document) :: rest => do
      let name ← name
      let value ← toJson depth document
      let others ← membersToJson depth rest
      return (name, value) :: others

end

/-- The members of an object in a document, sorted by name; `depth` arrays and objects are open
around it. -/
def toMembers (depth : Nat) : Document → Except JsonFault (List (String × Json))
  | .object members ending => do
      let values ← membersToJson (depth + 1) members
      closed ending
      return sortMembers values
  | document => .error document.mismatch

def itemsToMembers (depth : Nat) :
    List Document → Except JsonFault (List (List (String × Json)))
  | [] => .ok []
  | item :: rest => do
      let members ← toMembers depth item
      let others ← itemsToMembers depth rest
      return members :: others

def toObjects : Document → Except JsonFault (List (List (String × Json)))
  | .array items ending => do
      let objects ← itemsToMembers 1 items
      closed ending
      return objects
  | document => .error document.mismatch

/-- What a text means, if the whole text is one document. -/
def decode {α : Type} (meaning : Document → Except JsonFault α) (text : String) :
    Except JsonFault α := do
  let (document, more) := read text
  let value ← meaning document
  if more then .error .malformed else .ok value

end Document

end SqlMetrics
