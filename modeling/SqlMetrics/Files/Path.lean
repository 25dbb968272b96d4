import SqlMetrics.Text.Pieces

/-!
# Paths

A path is a text of segments separated by slashes. Empty segments do not count, and neither does a
segment `.` except at the very beginning; a segment `..` names the directory above.
-/

set_option autoImplicit false

namespace SqlMetrics

abbrev Path := String

namespace Path

def isAbsolute (path : Path) : Bool :=
  path.toList.head? = some '/'

def endsInSlash (path : Path) : Bool :=
  path.toList.getLast? = some '/'

def segments (path : Path) : List String :=
  (piecesBetween '/' path.toList).map String.ofList

def components (path : Path) : List String :=
  match path.isAbsolute, path.segments with
  | false, first :: rest => first :: rest.filter (· != ".")
  | _, all => all.filter (· != ".")

/-- The last segment, if it is a name. -/
def fileName? (path : Path) : Option String :=
  path.components.getLast?.filter fun name => name != ".." && name != "."

/-- A file name as the part before its last point and the part behind it. There is no such point
if the name begins with its only one. -/
def splitName (name : String) : List Char × Option (List Char) :=
  let behind := name.toList.reverse.takeWhile (· != '.')
  let before := (name.toList.reverse.drop (behind.length + 1)).reverse
  if before.isEmpty then (name.toList, none) else (before, some behind.reverse)

def stem? (path : Path) : Option String :=
  path.fileName?.map fun name => String.ofList (splitName name).1

def extension? (path : Path) : Option String :=
  (path.fileName?.bind fun name => (splitName name).2).map String.ofList

def join (directory : Path) (name : String) : Path :=
  if directory.isEmpty || directory.endsInSlash then directory ++ name
  else directory ++ "/" ++ name

end Path

end SqlMetrics
