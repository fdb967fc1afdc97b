import LooseData.Text.Lowercase
import LooseData.Text.Quoted

set_option autoImplicit false

/-! # Labels

A label is a text or a byte string that names an entry regardless of letter case. `Label.fold`
is the form under which labels are compared.
-/

namespace LooseData

/-- A name with letter case. -/
inductive Label where
  | text (s : String)
  | bytes (bytes : List UInt8)
deriving DecidableEq

namespace Label

/-- The form under which labels are compared: the lower case one. -/
def fold : Label → Label
  | .text s => .text (Text.lower s)
  | .bytes bs => .bytes (bs.map Text.lowerByte)

/-- The label in a running text. -/
def shown : Label → String
  | .text s => s
  | .bytes bs => Text.quoteBytes bs

end Label

end LooseData
