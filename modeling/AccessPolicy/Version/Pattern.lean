import AccessPolicy.Version.Basic

namespace AccessPolicy

/-- What stands for one component of a version: a number, or `*` for any number, or at the end `+`
for any further components or none. -/
inductive PatternPart where
  | exact (n : UInt64)
  | anyOne
  | anyRest
deriving DecidableEq

/-- A pattern keeps the text it was written as beside what the text says. -/
structure VersionPattern where
  source : String
  parts : List PatternPart
deriving DecidableEq

/-- Reads one component of the pattern `source`. -/
def parsePart (source : String) (isLast : Bool) (part : List Char) :
    Except VersionError PatternPart :=
  match part with
  | ['*'] => .ok .anyOne
  | ['+'] => if isLast then .ok .anyRest else .error (.misplacedWildcard source)
  | part => (parseComponent part).map .exact

def parseParts (source : String) : List (List Char) → Except VersionError (List PatternPart)
  | [] => .ok []
  | part :: rest => do
    let p ← parsePart source rest.isEmpty part
    return p :: (← parseParts source rest)

/-- Whether the components are among those that the parts describe. -/
def acceptsComponents : List PatternPart → List UInt64 → Bool
  | [], cs => cs.isEmpty
  | .anyRest :: _, _ => true
  | .anyOne :: ps, _ :: cs => acceptsComponents ps cs
  | .exact n :: ps, c :: cs => n = c && acceptsComponents ps cs
  | _ :: _, [] => false

namespace VersionPattern

def parse (s : String) : Except VersionError VersionPattern :=
  if s.isEmpty then .error (.invalidFormat s)
  else (parseParts s (splitDots s.toList)).map fun parts => ⟨s, parts⟩

/-- The pattern for one version. -/
def exact (v : Version) : VersionPattern :=
  ⟨v.display, v.components.map .exact⟩

def accepts (p : VersionPattern) (v : Version) : Bool :=
  acceptsComponents p.parts v.components

def display (p : VersionPattern) : String :=
  p.source

end VersionPattern

end AccessPolicy
