import SqlMetrics.Files.Path

/-!
# Files

What the program asks of a file system (`Files`), and a file system held in memory (`FileStore`).
A location is the list of names that lead to it from the root. Relative paths begin at the current
directory. An operation that fails changes nothing, except that `createDirectories` leaves the
directories it created before.
-/

set_option autoImplicit false

namespace SqlMetrics

/-- Why an operation on files fails. -/
inductive FileFault where
  | notFound
  | alreadyExists
  | notDirectory
  | isDirectory
  | nameTooLong
  /-- The path contains the character U+0000. -/
  | zeroByte
  /-- Any other cause, in the words of the system. -/
  | other (text : String)
  deriving DecidableEq, Repr

def FileFault.message : FileFault → String
  | .notFound => "No such file or directory (os error 2)"
  | .alreadyExists => "File exists (os error 17)"
  | .notDirectory => "Not a directory (os error 20)"
  | .isDirectory => "Is a directory (os error 21)"
  | .nameTooLong => "File name too long (os error 36)"
  | .zeroByte => "file name contained an unexpected NUL byte"
  | .other text => text

/-- A place where files are read and written. -/
class Files (m : Type → Type) where
  /-- The contents of a file. -/
  readFile : Path → m (Except FileFault ByteArray)
  /-- Creates a directory and those above it that are missing. -/
  createDirectories : Path → m (Except FileFault Unit)
  /-- Creates a file, or overwrites it. -/
  writeFile : Path → ByteArray → m (Except FileFault Unit)

abbrev Location := List String

/-- What is at a location. -/
inductive Entry where
  | file (contents : ByteArray)
  | directory

/-- Files and directories held in memory. -/
structure FileStore where
  /-- All files and directories but the root. -/
  entries : List (Location × Entry) := []
  /-- Where relative paths begin. -/
  current : Location := []

namespace FileStore

def find? (store : FileStore) (location : Location) : Option Entry :=
  if location.isEmpty then some .directory else store.entries.lookup location

def put (store : FileStore) (location : Location) (entry : Entry) : FileStore :=
  { store with
    entries := (location, entry) :: store.entries.filter fun held => held.1 != location }

/-- The fault of going on from a location, unless a directory is there. -/
def enter (store : FileStore) (location : Location) : Except FileFault Unit :=
  match store.find? location with
  | none => .error .notFound
  | some (.file _) => .error .notDirectory
  | some .directory => .ok ()

def segmentLimit : Nat := 255

def pathLimit : Nat := 4096

/-- The fault of a path that no system call takes: it contains the character U+0000, or it is too
long. -/
def checkPath (path : Path) : Except FileFault Unit :=
  if path.toList.contains '\x00' then .error .zeroByte
  else if pathLimit ≤ path.utf8ByteSize then .error .nameTooLong
  else .ok ()

/-- The location that segments lead to. All but the last have to name directories, and no name is
longer than the limit. -/
def walk (store : FileStore) (location : Location) : List String → Except FileFault Location
  | [] => .ok location
  | segment :: rest =>
      match store.enter location with
      | .error fault => .error fault
      | .ok () =>
          if segment = "." then walk store location rest
          else if segment = ".." then walk store location.dropLast rest
          else if segmentLimit < segment.utf8ByteSize then .error .nameTooLong
          else walk store (location ++ [segment]) rest

def start (store : FileStore) (path : Path) : Location :=
  if path.isAbsolute then [] else store.current

/-- The segments to walk to reach a path; a slash at the end asks for a directory. -/
def steps (path : Path) : List String :=
  if path.endsInSlash then path.segments ++ ["."] else path.segments

def locate (store : FileStore) (path : Path) : Except FileFault Location :=
  match checkPath path with
  | .error fault => .error fault
  | .ok () =>
      if path.isEmpty then .error .notFound else store.walk (store.start path) (steps path)

def readFile (store : FileStore) (path : Path) : Except FileFault ByteArray :=
  match store.locate path with
  | .error fault => .error fault
  | .ok location =>
      match store.find? location with
      | none => .error .notFound
      | some .directory => .error .isDirectory
      | some (.file contents) => .ok contents

def writeFile (store : FileStore) (path : Path) (contents : ByteArray) :
    Except FileFault FileStore :=
  match store.locate path with
  | .error fault => .error fault
  | .ok location =>
      match store.enter location.dropLast, store.find? location with
      | .error fault, _ => .error fault
      | .ok (), some .directory => .error .isDirectory
      | .ok (), _ => .ok (store.put location (.file contents))

def makeDirectory (store : FileStore) (location : Location) (segments : List String) :
    Except FileFault FileStore :=
  match store.walk location segments with
  | .error fault => .error fault
  | .ok target =>
      match store.enter target.dropLast, store.find? target with
      | .error fault, _ => .error fault
      | .ok (), some _ => .error .alreadyExists
      | .ok (), none => .ok (store.put target .directory)

def leadsToDirectory (store : FileStore) (location : Location) (segments : List String) : Bool :=
  match store.walk location segments with
  | .error _ => false
  | .ok target => (store.enter target).isOk

/-- The store in which segments lead to a directory, if they can; the fault is kept beside the
store. Only when something on the way is missing, the directory above is created first. -/
def makeDirectories (store : FileStore) (location : Location) (segments above : List String) :
    FileStore × Except FileFault Unit :=
  match store.makeDirectory location segments with
  | .ok changed => (changed, .ok ())
  | .error fault =>
      if fault != .notFound then
        (store, if store.leadsToDirectory location segments then .ok () else .error fault)
      else
        match above with
        | [] => (store, .error fault)
        | top :: rest =>
            let around := (top :: rest).dropLast
            let parent :=
              if around = [] then (store, .ok ()) else makeDirectories store location around around
            match parent.2 with
            | .error fault => (parent.1, .error fault)
            | .ok () =>
                match parent.1.makeDirectory location segments with
                | .ok changed => (changed, .ok ())
                | .error fault =>
                    (parent.1,
                      if parent.1.leadsToDirectory location segments then .ok ()
                      else .error fault)
termination_by above.length
decreasing_by simp only [List.length_dropLast, List.length_cons]; omega

/-- The store in which a path leads to a directory, if it can. -/
def createDirectories (store : FileStore) (path : Path) : FileStore × Except FileFault Unit :=
  if path.isEmpty then (store, .ok ())
  else
    match checkPath path with
    | .error fault => (store, .error fault)
    | .ok () => store.makeDirectories (store.start path) path.segments path.components

end FileStore

/-- A store in memory is a place for files; it changes with each operation. -/
instance : Files (StateM FileStore) where
  readFile path := do
    return (← get).readFile path
  createDirectories path := do
    let (changed, outcome) := (← get).createDirectories path
    set changed
    return outcome
  writeFile path contents := do
    match (← get).writeFile path contents with
    | .ok changed => set changed; return .ok ()
    | .error fault => return .error fault

end SqlMetrics
