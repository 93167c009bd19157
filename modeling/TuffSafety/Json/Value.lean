/-!
# JSON values

Objects keep their members in order. Whole numbers and floating-point numbers are kept apart.
-/
namespace TuffSafety

mutual

inductive Json where
  | null
  | bool (value : Bool)
  | int (value : Int)
  | float (value : Float)
  | string (value : String)
  | array (items : List Json)
  | object (members : List JsonMember)

structure JsonMember where
  key : String
  value : Json

end

namespace Json

def strings (values : List String) : Json :=
  .array (values.map .string)

/-- The member of an optional value; none when it is absent. -/
def optional (key : String) : Option Json → List JsonMember
  | some value => [⟨key, value⟩]
  | none => []

end Json

end TuffSafety
