import PlusMinus.Measure.Basic
import PlusMinus.Text.Printable

/-! What a user enters in the field of a form, before it is known to be a number. -/

namespace PlusMinus

/-- The content of a field. -/
inductive Entry where
  | missing
  | text (text : String)
  | number (x : Double)
  | integer (n : Int)
  | truth (b : Bool)
  | figure (f : Figure)
  | other
deriving DecidableEq

namespace Entry

/-- An entry as messages quote it. -/
def quoted : Entry → String
  | .missing => "None"
  | .text written => Text.quote written
  | .number x => String.ofList (Layout.quoted.text x)
  | .integer n => toString n
  | .truth true => "True"
  | .truth false => "False"
  | .figure f => "Figure(digits=" ++ Text.quote f.digits ++ ", magnitude="
      ++ String.ofList (Layout.quoted.text f.magnitude) ++ ")"
  | .other => "..."

/-- A text of blanks only. -/
def isBlank : Entry → Bool
  | .text written => (Text.strip written.toList).isEmpty
  | _ => false

end Entry

end PlusMinus
