import AccessPolicy.Text.Numeral
import AccessPolicy.Text.Quoted
import AccessPolicy.Text.Split

namespace AccessPolicy

/-- A version that was parsed has at least one component; one that was decoded may have none. -/
structure Version where
  components : List UInt64
deriving DecidableEq

inductive VersionError where
  | invalidFormat (text : String)
  | invalidComponent (text : String)
  /-- A plus sign that is not the last component of a pattern. -/
  | misplacedWildcard (pattern : String)
deriving DecidableEq

def VersionError.message : VersionError → String
  | invalidFormat text => "Invalid version format: " ++ Text.quoted text
  | invalidComponent text => "Invalid version component: " ++ text
  | misplacedWildcard pattern => "Wildcard '+' must be the last component: " ++ pattern

/-- The parts of a text between its dots. -/
def splitDots (cs : List Char) : List (List Char) :=
  Text.splitOn '.' cs

def parseComponent (part : List Char) : Except VersionError UInt64 :=
  match Text.word? part with
  | some n => .ok n
  | none => .error (.invalidComponent (String.ofList part))

namespace Version

def new (components : List UInt64) : Except VersionError Version :=
  if components.isEmpty then .error (.invalidFormat "") else .ok ⟨components⟩

def parse (s : String) : Except VersionError Version :=
  if s.isEmpty then .error (.invalidFormat s)
  else ((splitDots s.toList).mapM parseComponent).map Version.mk

/-- The version of a document that does not state one. -/
def default : Version := ⟨[1, 0]⟩

def display (v : Version) : String :=
  ".".intercalate (v.components.map Text.numeral)

/-- The first component that differs decides; a proper beginning of a version comes before it. -/
instance : LT Version where
  lt v w := v.components < w.components

instance : LE Version where
  le v w := v.components ≤ w.components

instance (v w : Version) : Decidable (v < w) :=
  inferInstanceAs (Decidable (v.components < w.components))

instance (v w : Version) : Decidable (v ≤ w) :=
  inferInstanceAs (Decidable (v.components ≤ w.components))

def sort (vs : List Version) : List Version :=
  vs.mergeSort fun v w => v ≤ w

/-- How many different versions there are. Sorting brings equal ones together. -/
def countDistinct (vs : List Version) : Nat :=
  ((sort vs).splitBy fun v w => v = w).length

end Version

end AccessPolicy
