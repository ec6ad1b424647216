import Intake.Dictionary

set_option autoImplicit false

/-!
Items of the key-value store: texts under attribute names.
-/

namespace Intake

abbrev Item := Dictionary String

def keyAttribute : String := "log_id"

def Item.key? (item : Item) : Option String := item.get? keyAttribute

end Intake
