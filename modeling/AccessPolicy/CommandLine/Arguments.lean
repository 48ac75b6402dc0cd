namespace AccessPolicy.CommandLine

/-- The kind of document that `inspect` is to accept. -/
inductive KindChoice where
  | policy
  | policySet
  | infer
deriving DecidableEq

def KindChoice.table : List (String × KindChoice) :=
  [("policy", .policy), ("policy-set", .policySet), ("infer", .infer)]

/-- The three commands, each with its options. -/
inductive Command where
  /-- Shows what a document is and what it refers to. -/
  | inspect (file : String) (kind : KindChoice)
  /-- Writes a document in its canonical form. -/
  | canonicalize (file : String) (output : Option String)
  /-- Resolves the references of a policy set among the documents in a directory. -/
  | checkRefs (file store : String)
deriving DecidableEq

/-- A command with the one option that all of them take. -/
structure Invocation where
  config : Option String
  command : Command
deriving DecidableEq

/-- Why a command line is not carried out. -/
inductive Stop where
  | help
  | refused
deriving DecidableEq

structure OptionSpec where
  short : Char
  long : String
  accepts : String → Bool

def pathOption (short : Char) (long : String) : OptionSpec :=
  ⟨short, long, fun value => !value.isEmpty⟩

def configOption : OptionSpec := pathOption 'c' "config"

def fileOption : OptionSpec := pathOption 'f' "file"

def outputOption : OptionSpec := pathOption 'o' "output"

def storeOption : OptionSpec := pathOption 's' "store"

def kindOption : OptionSpec :=
  ⟨'k', "kind", fun value => (KindChoice.table.lookup value).isSome⟩

/-- What an argument is where an option may stand. -/
inductive Argument where
  | word
  | helpFlag
  /-- Two hyphens, which end the options. -/
  | stop
  | unknown
  /-- An option whose value is the next argument. -/
  | awaiting (o : OptionSpec)
  | assigned (o : OptionSpec) (value : String)

def classifyLong (options : List OptionSpec) (cs : List Char) : Argument :=
  let name := String.ofList (cs.takeWhile (· ≠ '='))
  match options.find? (fun o => o.long = name), cs.dropWhile (· ≠ '=') with
  | some o, [] => .awaiting o
  | some o, _ :: value => .assigned o (String.ofList value)
  | none, [] => if name = "help" then .helpFlag else .unknown
  | none, _ => .unknown

def classifyShort (options : List OptionSpec) (c : Char) (rest : List Char) : Argument :=
  if c = 'h' then .helpFlag
  else
    match options.find? (fun o => o.short = c), rest with
    | none, _ => .unknown
    | some o, [] => .awaiting o
    | some o, '=' :: value => .assigned o (String.ofList value)
    | some o, value => .assigned o (String.ofList value)

def classify (options : List OptionSpec) (argument : String) : Argument :=
  match argument.toList with
  | ['-', '-'] => .stop
  | '-' :: '-' :: cs => classifyLong options cs
  | '-' :: c :: rest => classifyShort options c rest
  | _ => .word

/-- The values of options by their long names. -/
abbrev Values := List (String × String)

/-- Gives an option its value. No option may be given twice. -/
def assign (values : Values) (o : OptionSpec) (value : String) : Except Stop Values :=
  if (values.lookup o.long).isNone && o.accepts value then .ok ((o.long, value) :: values)
  else .error .refused

/-- Reads options up to the first word, and gives that word and what follows it. -/
def readOptions (options : List OptionSpec) (values : Values) :
    List String → Except Stop (Values × List String)
  | [] => .ok (values, [])
  | argument :: rest =>
    match classify options argument, rest with
    | .word, rest => .ok (values, argument :: rest)
    | .helpFlag, _ => .error .help
    | .stop, [] => .ok (values, [])
    | .stop, _ :: _ => .error .refused
    | .unknown, _ => .error .refused
    | .assigned o value, rest => do readOptions options (← assign values o value) rest
    | .awaiting _, [] => .error .refused
    | .awaiting o, value :: rest =>
      match classify options value with
      | .word => do readOptions options (← assign values o value) rest
      | _ => .error .refused

/-- Reads the options of a command, which are all that may follow its name. -/
def commandOptions (options : List OptionSpec) (arguments : List String) : Except Stop Values := do
  match ← readOptions (configOption :: options) [] arguments with
  | (values, []) => return values
  | _ => throw .refused

def required (values : Values) (o : OptionSpec) : Except Stop String :=
  match values.lookup o.long with
  | some value => .ok value
  | none => .error .refused

def kindOf (values : Values) : KindChoice :=
  ((values.lookup kindOption.long).bind fun name => KindChoice.table.lookup name).getD .infer

/-- Reads a command after its name; an option for all commands may stand there too. -/
def readCommand (name : String) (arguments : List String) :
    Except Stop (Option String × Command) := do
  match name with
  | "inspect" =>
    let values ← commandOptions [fileOption, kindOption] arguments
    return (values.lookup configOption.long,
      .inspect (← required values fileOption) (kindOf values))
  | "canonicalize" =>
    let values ← commandOptions [fileOption, outputOption] arguments
    return (values.lookup configOption.long,
      .canonicalize (← required values fileOption) (values.lookup outputOption.long))
  | "check-refs" =>
    let values ← commandOptions [fileOption, storeOption] arguments
    return (values.lookup configOption.long,
      .checkRefs (← required values fileOption) (← required values storeOption))
  | _ => throw .refused

def commandNames : List String := ["inspect", "canonicalize", "check-refs", "help"]

/-- Asking for help is right for the program and for one of its commands. -/
def readHelp : List String → Stop
  | [] => .help
  | [name] => if commandNames.contains name then .help else .refused
  | _ => .refused

/-- Reads a command line. An option that is given after the command counts before the same option
in front of it. -/
def parse (arguments : List String) : Except Stop Invocation := do
  match ← readOptions [configOption] [] arguments with
  | (_, "help" :: rest) => throw (readHelp rest)
  | (values, name :: rest) =>
    let (config, command) ← readCommand name rest
    return ⟨config.orElse fun _ => values.lookup configOption.long, command⟩
  | (_, []) => throw .refused

def usage : String :=
  "XACML policy document tools\n\n" ++
  "Usage: xacml [--config FILE] COMMAND\n\n" ++
  "Commands:\n" ++
  "  inspect --file FILE [--kind policy|policy-set|infer]\n" ++
  "  canonicalize --file FILE [--output FILE]\n" ++
  "  check-refs --file FILE --store DIRECTORY\n" ++
  "  help [COMMAND]\n"

end AccessPolicy.CommandLine
