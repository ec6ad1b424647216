import Intake.Dictionary

set_option autoImplicit false

/-!
A folder of files as the working directory. Nothing outside of it is known but its parents, which
are folders.
-/

namespace Intake.Command

structure Folder where
  files : Dictionary (List UInt8)
  deriving Inhabited

namespace Folder

def isHere (part : String) : Bool := part = "" || part = "." || part = ".."

/-- The content of the file at a path, or why it cannot be read. -/
def read (folder : Folder) (path : String) : Except String (List UInt8) :=
  let parts := path.splitOn "/"
  let way := parts.filter (!isHere ·)
  let missing := .error "No such file or directory (os error 2)"
  if path = "" then missing
  else if path.contains '\x00' then .error "file name contained an unexpected NUL byte"
  else match way with
    | [] => .error "Is a directory (os error 21)"
    | name :: inside =>
      if path.startsWith "/" || parts.contains ".." then missing
      else match folder.files.get? name with
        | none => missing
        | some content =>
          if inside.isEmpty && parts.getLast? = some name then .ok content
          else .error "Not a directory (os error 20)"

end Folder

end Intake.Command
