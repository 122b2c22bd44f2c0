import TradeGate.Audit.Path

/-!
# Directories of text files

A directory stands in a tree of files and folders, which paths lead through. A file that is open can
be written to when its name is gone, so contents are kept apart from places, under numbers that are
never used again. Main definitions: `Directory`, `Directory.resolve`, `Directory.openFile`,
`Directory.makeFolder`.
-/

namespace TradeGate

/-- Why a file could not be written or a folder could not be made. -/
inductive DiskError where
  | noDirectory
  | isFolder
  | isFile
  | badPath
  | writeFailed
  deriving DecidableEq, Repr

/-- A place in a tree: the names on the way from its root. -/
abbrev Place := List String

/-- What stands at a place. -/
inductive Entry where
  | file (number : Nat)
  | folder
  deriving DecidableEq, Repr

/-- What stands in the tree, and the contents of all files that ever were. -/
structure Directory where
  entries : List (Place × Entry)
  contents : List String
  deriving DecidableEq, Repr

namespace Directory

/-- The place of the directory itself. Its name is no step of any path. -/
def home : Place := [""]

/-- A directory without files. -/
def empty : Directory := ⟨[(home, .folder)], []⟩

/-- What stands at a place; the root is always a folder. -/
def entry? (directory : Directory) (place : Place) : Option Entry :=
  if place = [] then some .folder else directory.entries.lookup place

/-- Puts something at a free place. -/
def put (directory : Directory) (place : Place) (entry : Entry) : Directory :=
  { directory with entries := (place, entry) :: directory.entries }

/-- The contents of a file by its number. -/
def read (directory : Directory) (number : Nat) : String :=
  directory.contents.getD number ""

/-- Changes the contents of a file. -/
def write (directory : Directory) (number : Nat) (contents : String) : Directory :=
  { directory with contents := directory.contents.set number contents }

/-! ## Paths -/

/-- The place that steps lead to from a folder. What the last step leads to need not be there. -/
def follow (directory : Directory) : (folder : Place) → (steps : List String) →
    Except DiskError Place
  | folder, [] => .ok folder
  | folder, name :: rest =>
    if name = Path.up then directory.follow folder.dropLast rest
    else if Path.maxNameBytes < name.utf8ByteSize then .error .badPath
    else if rest = [] then .ok (folder ++ [name])
    else match directory.entry? (folder ++ [name]) with
      | some .folder => directory.follow (folder ++ [name]) rest
      | some (.file _) => .error .isFile
      | none => .error .noDirectory

/-- The place that a path leads to, from the directory or, if it is absolute, from the root. -/
def resolve (directory : Directory) (path : String) : Except DiskError Place :=
  if !Path.isUsable path then .error .badPath
  else if Path.isAbsolute path then directory.follow [] (Path.steps path)
  else if directory.entry? home = some .folder then directory.follow home (Path.steps path)
  else .error .noDirectory

/-- Opens a file for writing at its end; it is made if its place is free. -/
def openFile (directory : Directory) (path : String) : Except DiskError Nat × Directory :=
  match directory.resolve path with
  | .error cause => (.error cause, directory)
  | .ok place =>
    match directory.entry? place with
    | some (.file number) => (.ok number, directory)
    | some .folder => (.error .isFolder, directory)
    | none =>
      let number := directory.contents.length
      (.ok number, { directory.put place (.file number) with
        contents := directory.contents ++ [""] })

/-! ## Folders -/

/-- Makes the directory, if it is not there. -/
def make (directory : Directory) : Directory :=
  if directory.entry? home = none then directory.put home .folder else directory

/-- Makes those folders that steps lead to and that are not there, up to the first step that cannot
be taken. -/
def makeFolders : Directory → (folder : Place) → (steps : List String) →
    Except DiskError Unit × Directory
  | directory, _, [] => (.ok (), directory)
  | directory, folder, name :: rest =>
    if name = Path.up then directory.makeFolders folder.dropLast rest
    else if Path.maxNameBytes < name.utf8ByteSize then (.error .badPath, directory)
    else match directory.entry? (folder ++ [name]) with
      | some .folder => directory.makeFolders (folder ++ [name]) rest
      | some (.file _) => (.error .isFile, directory)
      | none => (directory.put (folder ++ [name]) .folder).makeFolders (folder ++ [name]) rest

/-- Makes the folder that a path leads to and those above it. -/
def makeFolder (directory : Directory) (path : String) : Except DiskError Unit × Directory :=
  if !Path.isUsable path then (.error .badPath, directory)
  else if Path.isAbsolute path then directory.makeFolders [] (Path.steps path)
  else directory.make.makeFolders home (Path.steps path)

/-- Takes the directory away with all that is in it. -/
def remove (directory : Directory) : Directory :=
  { directory with entries := directory.entries.filter fun (place, _) => !home.isPrefixOf place }

/-! ## What is there -/

/-- What stands in the directory itself, by name. -/
def names (directory : Directory) : List (String × Entry) :=
  directory.entries.filterMap fun (place, entry) =>
    if place.dropLast = home then place.getLast?.map (·, entry) else none

/-- The names in ascending order with the contents of those that are files. -/
def listing (directory : Directory) : List (String × Option String) :=
  (directory.names.mergeSort fun a b => a.1 ≤ b.1).map fun (name, entry) =>
    match entry with
    | .file number => (name, some (directory.read number))
    | .folder => (name, none)

/-- What has been added to the files since an earlier state of the directory, by name. -/
def growth (directory earlier : Directory) : List (String × String) :=
  directory.listing.filterMap fun (name, contents) => do
    let text ← contents
    let known := match earlier.entry? (home ++ [name]) with
      | some (.file number) => (earlier.read number).length
      | _ => 0
    let added := (text.drop known).toString
    if added.isEmpty then none else some (name, added)

end Directory

end TradeGate
