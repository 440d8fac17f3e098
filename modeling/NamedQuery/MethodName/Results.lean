import NamedQuery.MethodError

/-!
# Result shapes

The results of a method are a value and an error, and the type of the value says
whether the method deals with one document or with many.
-/

namespace NamedQuery

namespace OperationKind

/-- The mode that the type of the value stands for. -/
def valueMode? (kind : OperationKind) (struct : Struct) (value : GoType) : Option Mode :=
  match kind with
  | .insert =>
      if value = .emptyInterface then some .one
      else if value = .slice .emptyInterface then some .many
      else none
  | .find =>
      if value = struct.pointerType then some .one
      else if value = .slice struct.pointerType then some .many
      else none
  | .update | .delete =>
      if value = .named "bool" then some .one
      else if value = .named "int" then some .many
      else none
  | .count => if value = .named "int" then some .many else none

/-- The mode that the results of a method stand for. -/
def resultMode? (kind : OperationKind) (struct : Struct) : List GoType → Option Mode
  | [value, last] => if last = GoType.error then kind.valueMode? struct value else none
  | _ => none

def resultMode (kind : OperationKind) (struct : Struct) (results : List GoType) :
    Except MethodError Mode :=
  match kind.resultMode? struct results with
  | some mode => .ok mode
  | none => .error (.unsupportedReturn kind results)

end OperationKind

end NamedQuery
