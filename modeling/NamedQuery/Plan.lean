import NamedQuery.MethodName.Operation

/-!
# Plans of methods

A method has a plan when its name spells an operation and its signature agrees
with it: the context comes first, there are as many parameters as the operation
takes, each of the type it is used at, and comparators and update operators fit
their fields.
-/

namespace NamedQuery

/-- Checks items in order, up to the first fault. -/
def checkAll {α ε : Type} (check : α → Except ε Unit) : List α → Except ε Unit
  | [] => .ok ()
  | item :: rest =>
      match check item with
      | .ok () => checkAll check rest
      | .error fault => .error fault

namespace Plan

/-- The first parameter has to be the context. -/
def checkContext (params : List GoType) : Except MethodError Unit :=
  if params.head? = some GoType.context then .ok () else .error .contextRequired

/-- The parameter at a position has to be of a type. -/
def checkParam (params : List GoType) (position : Nat) (expected : GoType) :
    Except MethodError Unit :=
  match params[position]? with
  | none => .error (.invalidParam (.wrongCount (position + 1) params.length))
  | some found =>
      if found = expected then .ok ()
      else .error (.invalidParam (.wrongType position expected found))

/-- The parameters from a position on have to be of the types in order. -/
def checkParams (params : List GoType) : Nat → List GoType → Except MethodError Unit
  | _, [] => .ok ()
  | position, expected :: rest =>
      match checkParam params position expected with
      | .ok () => checkParams params (position + 1) rest
      | .error fault => .error fault

/-- Whether a comparator applies to fields of a type. -/
def comparatorFits (schema : Schema) (comparator : Comparator) (type : GoType) : Bool :=
  match comparator.fieldRule with
  | .any => true
  | .boolean => schema.isBoolean type

def checkPredicate (schema : Schema) (params : List GoType) (predicate : Predicate) :
    Except MethodError Unit :=
  if comparatorFits schema predicate.comparator predicate.field.leafType then
    checkParams params predicate.slot predicate.argumentTypes
  else
    .error (.incompatibleComparator predicate.comparator predicate.field.name
      predicate.field.leafType)

def checkQuery (schema : Schema) (params : List GoType) (query : Query) :
    Except MethodError Unit :=
  checkAll (checkPredicate schema params) query.predicates

/-- Whether an update operator applies to fields of a type. -/
def operatorFits (schema : Schema) (operator : UpdateOperator) (type : GoType) : Bool :=
  match operator.operandRule with
  | .any => true
  | .sequence => (schema.elementType? type).isSome
  | .numeric => schema.isNumeric type

def checkAssignment (schema : Schema) (params : List GoType) (assignment : Assignment) :
    Except MethodError Unit :=
  match operatorFits schema assignment.operator assignment.field.leafType,
      assignment.argumentType? schema with
  | true, some expected => checkParam params assignment.slot expected
  | _, _ =>
      .error (.incompatibleUpdateOperator assignment.operator assignment.field.name
        assignment.field.leafType)

def checkChange (entity : Entity) (params : List GoType) : Change → Except MethodError Unit
  | .model slot => checkParam params slot entity.struct.pointerType
  | .fields assignments => checkAll (checkAssignment entity.schema params) assignments

/-- The type of the parameter of an insertion. -/
def insertedType (struct : Struct) : Mode → GoType
  | .one => struct.pointerType
  | .many => .slice struct.pointerType

/-- Checks the parameters against what the operation uses them for. -/
def checkOperation (entity : Entity) (params : List GoType) :
    Operation → Except MethodError Unit
  | .insert mode => checkParam params Entity.firstSlot (insertedType entity.struct mode)
  | .find _ query .. | .delete _ query | .count query => checkQuery entity.schema params query
  | .update change _ query =>
      match checkChange entity params change with
      | .ok () => checkQuery entity.schema params query
      | .error fault => .error fault

/-- Checks a plan, also one that no name spells. -/
def check (entity : Entity) (plan : Plan) : Except MethodError Unit := do
  let params := plan.signature.params
  checkContext params
  if 1 + plan.operation.arity = params.length then
    checkOperation entity params plan.operation
  else
    .error (.invalidParam (.wrongCount (1 + plan.operation.arity) params.length))

end Plan

/-- The plan of a method.  The context is asked for before the name is read. -/
def Entity.plan (entity : Entity) (method : Signature) : Except MethodError Plan := do
  Plan.checkContext method.params
  let operation ← entity.readOperation method.params method.results (words method.name)
  let plan : Plan := ⟨method, operation⟩
  plan.check entity
  return plan

end NamedQuery
