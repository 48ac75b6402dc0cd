import AccessPolicy.CommandLine.Program

namespace AccessPolicy.CommandLine

/-- The reason behind a failed call, by the number that the system gives it with either sign. -/
def reason (e : IO.Error) : IoError :=
  match e with
  | .noFileOrDirectory .. => .notFound
  | .inappropriateType _ code _ =>
    if code = 20 || code = -20 then .notADirectory
    else if code = 21 || code = -21 then .isADirectory
    else .other (toString e)
  | .invalidArgument _ code _ =>
    if code = 36 || code = -36 then .nameTooLong else .other (toString e)
  | e => .other (toString e)

/-- Runs an action and gives its failure as a value. -/
def attempt (x : IO α) : IO (Except IoError α) := do
  match ← x.toBaseIO with
  | .ok a => return .ok a
  | .error e => return .error (reason e)

/-- A directory can be opened, but it yields nothing. -/
def openPath (path : String) : IO (Except IoError ByteStream) := do
  match ← attempt (IO.FS.readBinFile path) with
  | .ok bytes => return .ok (.ofBytes bytes.toList)
  | .error .isADirectory => return .ok ⟨[], some .isADirectory⟩
  | .error e => return .error e

def listPath (path : String) : IO (Except IoError (List String)) := do
  let here ← IO.currentDir
  match ← attempt (here / path).readDir with
  | .ok entries => return .ok (entries.toList.map fun entry => entry.fileName)
  | .error e => return .error e

/-- The files that a command may open, apart from those in directories. -/
def Invocation.paths (i : Invocation) : List String :=
  i.config.toList ++
    match i.command with
    | .inspect file _ => [file]
    | .canonicalize file _ => [file]
    | .checkRefs file _ => [file]

def Invocation.directory? (i : Invocation) : Option String :=
  match i.command with
  | .checkRefs _ store => some store
  | _ => none

/-- What the command may look at, as it is now. -/
def snapshot (i : Invocation) : IO Files := do
  let listed : List (String × Except IoError (List String)) ← match i.directory? with
    | none => pure []
    | some directory => pure [(directory, ← listPath directory)]
  let documents := listed.flatMap fun (directory, names) =>
    match names with
    | .ok names => (names.filter isJsonName).map (join directory)
    | .error _ => []
  let opened ← (i.paths ++ documents).mapM fun path => return (path, ← openPath path)
  return {
    contents := fun path => (opened.lookup path).getD (.error .notFound)
    names := fun path => (listed.lookup path).getD (.error .notFound) }

def environment : IO (List (String × String)) :=
  Setting.all.filterMapM fun s => do
    return (← IO.getEnv s.variableName).map fun value => (s.variableName, value)

/-- Writes the file of an outcome, if there is one. -/
def Outcome.save (o : Outcome) : IO Outcome :=
  match o.saved with
  | none => return o
  | some (path, bytes) => do
    match ← attempt (IO.FS.writeBinFile path ⟨bytes.toArray⟩) with
    | .ok () => return o
    | .error e => return o.notSaved path e

def report (e : CommandError) : IO Unit :=
  IO.eprintln ("Error: " ++ "\n  caused by: ".intercalate e.causes)

end AccessPolicy.CommandLine

open AccessPolicy.CommandLine in
/-- Exits with 0 after success, 1 after an error and 2 if the command line is refused. -/
def main (arguments : List String) : IO UInt32 := do
  match parse arguments with
  | .error .help =>
    IO.print usage
    return 0
  | .error .refused =>
    IO.eprint usage
    return 2
  | .ok i =>
    let outcome ← (run (← snapshot i) (← environment) i).save
    (← IO.getStdout).write ⟨outcome.printed.toArray⟩
    outcome.failure.forM report
    return outcome.exitCode.toUInt32
