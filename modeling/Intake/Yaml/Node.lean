set_option autoImplicit false

/-!
The nodes of a YAML document. Scalars keep their text: what it stands for is decided by whoever asks
for a value.
-/

namespace Intake.Yaml

inductive Style where
  | plain
  | quoted
  | literal
  | folded
  deriving DecidableEq, Repr, Inhabited

/-- A node with its tag, if it has one. An alias stands for the node with that number. -/
inductive Node where
  | scalar (tag : Option String) (style : Style) (text : String)
  | sequence (tag : Option String) (items : List Node)
  | mapping (tag : Option String) (entries : List (Node × Node))
  | alias (number : Nat)
  deriving Inhabited

def nullTag : String := "tag:yaml.org,2002:null"

def boolTag : String := "tag:yaml.org,2002:bool"

def intTag : String := "tag:yaml.org,2002:int"

def floatTag : String := "tag:yaml.org,2002:float"

def isLocal (tag : Option String) : Bool :=
  match tag with
  | some t => t.startsWith "!"
  | none => false

end Intake.Yaml
