/-!
# Update operators

How a parameter is combined with the stored value of a field.  A field is
overwritten unless its words end in `Push` or `Inc`.
-/

namespace NamedQuery

inductive UpdateOperator where
  | set
  | push
  | increment
  deriving Repr, DecidableEq

/-- Which fields an operator applies to. -/
inductive OperandRule where
  | any
  | sequence
  | numeric
  deriving Repr, DecidableEq

namespace UpdateOperator

def spelling : UpdateOperator → String
  | .set => "Set"
  | .push => "Push"
  | .increment => "Inc"

def operandRule : UpdateOperator → OperandRule
  | .set => .any
  | .push => .sequence
  | .increment => .numeric

def description : UpdateOperator → String
  | .set => "Overwrite the field with the parameter."
  | .push => "Append the parameter to a sequence field."
  | .increment => "Add the parameter to a numeric field."

/-- The operator that a word selects at the end of an updated field.  `Set` has
no word. -/
def ofWord? (word : String) : Option UpdateOperator :=
  [push, increment].find? fun operator => operator.spelling = word

end UpdateOperator

end NamedQuery
