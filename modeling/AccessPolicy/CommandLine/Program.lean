import AccessPolicy.CommandLine.Files
import AccessPolicy.CommandLine.Outcome
import AccessPolicy.Config.File
import AccessPolicy.Construction.Factory
import AccessPolicy.Store

namespace AccessPolicy.CommandLine

/-- Names the resolvers of a command: one that knows nothing, and the store of the command. -/
inductive Shelf where
  | vacant
  | stocked
deriving DecidableEq

/-- All artifacts of a command come from documents. -/
abbrev Store := PolicyStore Shelf Empty

abbrev CommandWorld := World Shelf Empty Store

abbrev Running := EStateM CommandError CommandWorld

def surroundings : Surroundings Shelf Empty Store where
  lookUp shelf id pattern :=
    let store : Store → Store := match shelf with
      | .vacant => fun _ => .empty
      | .stocked => fun s => s
    fun s =>
      match (store s).resolve id pattern with
      | .ok a => .ok a s
      | .error e => .error e s
  decide x := x.elim

abbrev CommandFactory := Factory Shelf Empty Store

def openFile (files : Files) (path : String) : Running ByteStream :=
  match files.contents path with
  | .ok stream => return stream
  | .error e => throw (.opening path e)

def constructing (path : String) (x : Constructing Shelf Empty Store α) : Running α :=
  x.adaptExcept (.constructing path)

/-- Constructs the document in a file. -/
def constructFile (files : Files) (factory : CommandFactory) (path : String) (kind : KindChoice) :
    Running (Artifact Shelf Empty) := do
  let stream ← openFile files path
  constructing path <|
    match kind with
    | .policy => factory.createPolicy stream
    | .policySet => factory.createPolicySet stream
    | .infer => factory.create stream .vacant

def inspect (files : Files) (factory : CommandFactory) (path : String) (kind : KindChoice) :
    Running String := do
  let a ← constructFile files factory path kind
  let references := a.document.references
  let heading :=
    ["kind: " ++ a.kind.name, "id: " ++ a.id, "version: " ++ a.version,
      "references: " ++ toString references.length]
  return String.join ((heading ++ references.map fun r => "  " ++ label r).map (· ++ "\n"))

def canonicalize (files : Files) (factory : CommandFactory) (path : String) :
    Running (List UInt8) := do
  let a ← constructFile files factory path .infer
  match a.marshal with
  | .ok bytes => return bytes
  | .error e => throw (.marshalling a.id e)

/-- Puts an artifact into the store of the command. -/
def stock (a : Artifact Shelf Empty) : Running Unit :=
  (World.ask (PolicyStore.insert a)).adaptExcept .storing

/-- Puts the documents in files into the store, in order. -/
def stockFiles (files : Files) (factory : CommandFactory) : List String → Running Unit
  | [] => return ()
  | path :: rest => do
    stock (← constructFile files factory path .infer)
    stockFiles files factory rest

/-- The paths of the documents in a directory, in the order of their names. -/
def documentPaths (files : Files) (directory : String) : Except IoError (List String) :=
  (files.names directory).map fun names =>
    ((names.filter isJsonName).mergeSort fun a b => a ≤ b).map (join directory)

def loadStore (files : Files) (factory : CommandFactory) (directory : String) : Running Unit :=
  match documentPaths files directory with
  | .error e => throw (.listing directory e)
  | .ok paths => stockFiles files factory paths

/-- What the store has for a reference. -/
def find (store : Store) (r : Reference) (pattern : Option VersionPattern) : Finding :=
  match store.resolve r.target.value pattern with
  | .ok a => if a.kind = r.kind then .resolved a.id a.version else .mismatch a.id a.kind
  | .error e => .missing e

def examine (store : Store) : List Reference → Except CommandError (List (Reference × Finding))
  | [] => .ok []
  | r :: rest =>
    match r.target.pattern with
    | .error e => .error (.readingVersion (label r) e)
    | .ok pattern => (examine store rest).map ((r, find store r pattern) :: ·)

/-- Looks for every reference of the policy set in `path` among the documents in `directory`. -/
def checkRefs (files : Files) (factory : CommandFactory) (path directory : String) :
    Running Report := do
  loadStore files factory directory
  let stream ← openFile files path
  let a ← constructing path (factory.createPolicySetWithResolver stream .stocked)
  match examine (← get).outside a.document.references with
  | .ok findings => return ⟨findings⟩
  | .error e => throw e

def configure (files : Files) (environment : List (String × String)) (config : Option String) :
    Except CommandError CommandFactory := do
  let file := config.map fun path => (path, files.read path)
  let c ← (FactoryConfig.load file environment).mapError .configuration
  (Factory.ofConfig surroundings c).mapError .factory

def utf8 (s : String) : List UInt8 :=
  Text.Utf8.encode s.toList

/-- Each command reads its documents through a factory that the configuration sets up. -/
def carryOut (files : Files) (factory : CommandFactory) : Command → Running Outcome
  | .inspect path kind => do
    return ⟨utf8 (← inspect files factory path kind), none, none⟩
  | .canonicalize path none => do
    return ⟨(← canonicalize files factory path) ++ utf8 "\n", none, none⟩
  | .canonicalize path (some output) => do
    return ⟨[], some (output, ← canonicalize files factory path), none⟩
  | .checkRefs path directory => do
    let report ← checkRefs files factory path directory
    let printed := utf8 (String.join (report.lines.map (· ++ "\n")))
    if report.unresolved = 0 then return ⟨printed, none, none⟩
    else return ⟨printed, none, some (.unresolved report.unresolved report.findings.length)⟩

/-- Runs a command. Nothing is printed or saved by a command that fails before its end. -/
def run (files : Files) (environment : List (String × String)) (i : Invocation) : Outcome :=
  match configure files environment i.config with
  | .error e => ⟨[], none, some e⟩
  | .ok factory =>
    match (carryOut files factory i.command).run (.new .empty) with
    | .ok outcome _ => outcome
    | .error e _ => ⟨[], none, some e⟩

/-- The outcome when the file to be written could not be. -/
def Outcome.notSaved (o : Outcome) (path : String) (e : IoError) : Outcome :=
  { o with failure := some (.writing path e) }

def Outcome.exitCode (o : Outcome) : Nat :=
  if o.failure.isSome then 1 else 0

/-- Runs a command on a tree of files, and gives the tree afterwards. -/
def runOnTree (t : FileTree) (environment : List (String × String)) (i : Invocation) :
    Outcome × FileTree :=
  let outcome := run t.toFiles environment i
  match outcome.saved with
  | none => (outcome, t)
  | some (path, bytes) =>
    match t.write path bytes with
    | .ok t => (outcome, t)
    | .error e => (outcome.notSaved path e, t)

end AccessPolicy.CommandLine
