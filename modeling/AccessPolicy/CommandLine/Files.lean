import AccessPolicy.Construction.Stream
import AccessPolicy.Text.Split

namespace AccessPolicy.CommandLine

/-- How files answer: a path can be opened, and the names in a directory can be listed. -/
structure Files where
  contents : String → Except IoError ByteStream
  names : String → Except IoError (List String)

/-- The path of a name in a directory. -/
def join (directory name : String) : String :=
  if directory.endsWith "/" then directory ++ name else directory ++ "/" ++ name

/-- Whether a name ends in a dot and `json`, with something in front of them. -/
def isJsonName (name : String) : Bool :=
  match Text.splitOn '.' name.toList |>.reverse with
  | ['j', 's', 'o', 'n'] :: stem :: outer => !(stem.isEmpty && outer.isEmpty)
  | _ => false

/-- Everything that a file yields; reading it may fail. -/
def Files.read (files : Files) (path : String) : Except IoError (List UInt8) := do
  let stream ← files.contents path
  match stream.failure with
  | some e => throw e
  | none => return stream.bytes

/-- Where something lies: the names on the way to it from the root. -/
abbrev Place := List String

/-- The working directory. Its own name is empty, so that no path can spell it. -/
def workingDirectory : Place := ["tmp", ""]

/-- Directories that every system has. -/
def systemDirectories : List Place :=
  ["bin", "dev", "etc", "home", "lib", "opt", "proc", "root", "run", "sbin", "sys", "tmp", "usr",
    "var"].map ([·])

/-- The device that takes whatever is written to it and yields nothing. -/
def nullDevice : Place := ["dev", "null"]

/-- The most bytes of a path. -/
def longestPath : Nat := 4095

/-- The most bytes of a name. -/
def longestName : Nat := 255

inductive Entry where
  | file (bytes : List UInt8)
  | directory

/-- The files and directories below the working directory, with the little that can be known of
what lies elsewhere. -/
structure FileTree where
  /-- The latest first: a file hides those of the same place that come after it. -/
  files : List (Place × List UInt8)
  /-- Every directory that is known, also those on the way to others. -/
  directories : List Place

namespace FileTree

def parts (path : String) : List String :=
  (Text.splitOn '/' path.toList).map String.ofList

/-- The place from which a path is followed. -/
def origin (path : String) : Place :=
  if path.startsWith "/" then [] else workingDirectory

/-- The place that one part of a path leads to. The root is above itself. -/
def advance (p : Place) (part : String) : Place :=
  if part = "" || part = "." then p
  else if part = ".." then p.dropLast
  else p ++ [part]

/-- The place of something that is put where a path says, in directories made for it. -/
def settle (path : String) : Place :=
  (parts path).foldl advance (origin path)

/-- A place with all the places on the way to it. -/
def ancestry (p : Place) : List Place :=
  (List.range (p.length + 1)).map p.take

/-- The tree with the given files and directories, and the directories that they need. -/
def ofLists (files : List (String × List UInt8)) (directories : List String) : FileTree :=
  let placed := (files.map fun f => (settle f.1, f.2)).reverse
  let ends := directories.map settle ++ placed.map fun f => f.1.dropLast
  ⟨placed ++ [(nullDevice, [])],
    ((workingDirectory :: systemDirectories ++ ends.eraseDups).flatMap ancestry).eraseDups⟩

def entry? (t : FileTree) (p : Place) : Option Entry :=
  if t.directories.contains p then some .directory
  else (t.files.lookup p).map .file

/-- Follows a path from a place. Everything but the last part of it must be a directory. -/
def follow (t : FileTree) (p : Place) : List String → Except IoError Place
  | [] => .ok p
  | part :: rest =>
    match t.entry? p with
    | none => .error .notFound
    | some (.file _) => .error .notADirectory
    | some .directory =>
      if longestName < part.utf8ByteSize then .error .nameTooLong
      else t.follow (advance p part) rest

/-- What is wrong with a path, whatever lies there. -/
def pathFault? (path : String) : Option IoError :=
  if path.isEmpty then some .notFound
  else if longestPath < path.utf8ByteSize then some .nameTooLong
  else none

/-- The place that a path names. -/
def place (t : FileTree) (path : String) : Except IoError Place :=
  match pathFault? path with
  | some e => .error e
  | none => t.follow (origin path) (parts path)

def contents (t : FileTree) (path : String) : Except IoError ByteStream := do
  match t.entry? (← t.place path) with
  | none => throw .notFound
  | some .directory => return ⟨[], some .isADirectory⟩
  | some (.file bytes) => return .ofBytes bytes

/-- The name below a directory by which a place is reached. -/
def nameBelow? (directory p : Place) : Option String :=
  if directory.isPrefixOf p then p[directory.length]? else none

def names (t : FileTree) (path : String) : Except IoError (List String) := do
  let p ← t.place path
  match t.entry? p with
  | none => throw .notFound
  | some (.file _) => throw .notADirectory
  | some .directory =>
    return ((t.files.map Prod.fst ++ t.directories).filterMap (nameBelow? p)).eraseDups

def toFiles (t : FileTree) : Files := ⟨t.contents, t.names⟩

/-- Writes a file into a directory that is there. A path that ends in a slash cannot name a file,
even where there is nothing yet. -/
def write (t : FileTree) (path : String) (bytes : List UInt8) : Except IoError FileTree := do
  if let some e := pathFault? path then throw e
  let named := (parts path).reverse.dropWhile String.isEmpty
  let last := if path.endsWith "/" then "." else named.headD "."
  let p ← t.follow (origin path) (named.tail.reverse ++ [last])
  match t.entry? p with
  | some .directory => throw .isADirectory
  | _ => return if p = nullDevice then t else { t with files := (p, bytes) :: t.files }

end FileTree

end AccessPolicy.CommandLine
