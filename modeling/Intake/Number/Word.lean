set_option autoImplicit false

/-!
Whole numbers of a fixed width.
-/

namespace Intake.Number.Word

/-- How many numbers have a width of so many bits. -/
def count (bits : Nat) : Nat := Nat.pow 2 bits

end Intake.Number.Word
