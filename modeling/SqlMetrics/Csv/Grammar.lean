/-!
# Comma-separated values

The bytes of a table are records that end at a line feed or a carriage return, and fields that end
at a comma. A field that begins with a quote goes on to its closing quote; a doubled quote stands
for one, and what follows the closing quote belongs to the field too. Empty lines are no records.
-/

set_option autoImplicit false

namespace SqlMetrics

namespace Csv

def comma : UInt8 := 0x2c

def quote : UInt8 := 0x22

def lineFeed : UInt8 := 0x0a

def endsRecord (byte : UInt8) : Bool :=
  byte = lineFeed || byte = 0x0d

/-- Where a reader stands in a field. -/
inductive Place where
  | start
  | unquoted
  | quoted
  /-- Behind a quote within quotes: it closes them unless another follows. -/
  | behindQuote
  deriving DecidableEq, Repr

/-- What a byte does. -/
inductive Step where
  | endField
  | endRecord
  /-- The byte belongs to the field. -/
  | keep (place : Place)
  | drop (place : Place)
  deriving DecidableEq, Repr

def plainStep (byte : UInt8) : Step :=
  if byte = comma then .endField
  else if endsRecord byte then .endRecord
  else .keep .unquoted

def step (place : Place) (byte : UInt8) : Step :=
  match place with
  | .start => if byte = quote then .drop .quoted else plainStep byte
  | .unquoted => plainStep byte
  | .quoted => if byte = quote then .drop .behindQuote else .keep .quoted
  | .behindQuote => if byte = quote then .keep .quoted else plainStep byte

/-- The fields of a record, and the number of bytes up to and with its end. -/
structure Line where
  fields : List (List UInt8)
  size : Nat
  deriving Repr

/-- Puts a byte before the first field. -/
def addByte (byte : UInt8) : List (List UInt8) → List (List UInt8)
  | [] => [[byte]]
  | field :: fields => (byte :: field) :: fields

/-- The rest of a record, from a place in its next field on. -/
def readLine (place : Place) : List UInt8 → Line
  | [] => ⟨[[]], 0⟩
  | byte :: rest =>
      match step place byte with
      | .endRecord => ⟨[[]], 1⟩
      | .endField =>
          let others := readLine .start rest
          ⟨[] :: others.fields, others.size + 1⟩
      | .keep next =>
          let others := readLine next rest
          ⟨addByte byte others.fields, others.size + 1⟩
      | .drop next =>
          let others := readLine next rest
          ⟨others.fields, others.size + 1⟩

/-- Where the reader of a table stands: behind so many records, line feeds and bytes. -/
structure Mark where
  record : Nat := 0
  lineFeeds : Nat := 0
  byte : Nat := 0
  deriving DecidableEq, Repr

def Mark.line (mark : Mark) : Nat :=
  mark.lineFeeds + 1

/-- The mark behind some bytes and one more record. -/
def Mark.next (mark : Mark) (bytes : List UInt8) : Mark :=
  ⟨mark.record + 1, mark.lineFeeds + bytes.count lineFeed, mark.byte + bytes.length⟩

/-- A record, and where the reader stood before it and the empty lines before it. -/
structure Record where
  mark : Mark
  fields : List (List UInt8)
  deriving Repr

def readFrom (mark : Mark) (bytes : List UInt8) : List Record :=
  match bytes with
  | [] => []
  | first :: rest =>
      let empty := ((first :: rest).takeWhile endsRecord).length
      let filled := (first :: rest).drop empty
      if filled.isEmpty then []
      else
        let line := readLine .start filled
        let size := empty + line.size
        ⟨mark, line.fields⟩
          :: readFrom (mark.next ((first :: rest).take size)) (rest.drop (size - 1))
termination_by bytes.length
decreasing_by simp only [List.length_cons, List.length_drop]; omega

def byteOrderMark : List UInt8 := [0xef, 0xbb, 0xbf]

/-- The records of a file. The mark at its beginning belongs to no field. -/
def read (bytes : List UInt8) : List Record :=
  if byteOrderMark.isPrefixOf bytes then
    match readFrom {} (bytes.drop 3) with
    | [] => []
    | first :: rest =>
        first :: rest.map fun record =>
          { record with mark := { record.mark with byte := record.mark.byte + 3 } }
  else readFrom {} bytes

end Csv

end SqlMetrics
