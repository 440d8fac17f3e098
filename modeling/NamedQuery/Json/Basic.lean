/-!
# JSON values

The members of an object keep their order, and a name may be repeated.  Of a
number only one thing matters to this library: its value when it is written as
digits alone.
-/

namespace NamedQuery

inductive JsonValue where
  | null
  | bool (value : Bool)
  | number (digits : Option Nat)
  | string (value : String)
  | array (items : List JsonValue)
  | object (members : List (String × JsonValue))
  deriving Repr, Inhabited

namespace JsonValue

mutual

/-- How many arrays and objects are open at once in the value. -/
def depth : JsonValue → Nat
  | .array items => 1 + depthOfAll items
  | .object members => 1 + depthOfMembers members
  | _ => 0

def depthOfAll : List JsonValue → Nat
  | [] => 0
  | item :: rest => max item.depth (depthOfAll rest)

def depthOfMembers : List (String × JsonValue) → Nat
  | [] => 0
  | (_, value) :: rest => max value.depth (depthOfMembers rest)

end

end JsonValue

end NamedQuery
