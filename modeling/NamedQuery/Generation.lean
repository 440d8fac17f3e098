import NamedQuery.Code.File
import NamedQuery.Mongo.Implementation
import NamedQuery.Plan
import NamedQuery.Schema.Merge

/-!
# Generation of a repository

Every method of an interface is planned, then every plan is turned into a method
of the implementation.  The first fault ends it, and then there is no file.  The
imports of the file are those of the standard library, of the database driver,
and of the source files for the types in the signatures.
-/

namespace NamedQuery

open Code Mongo

/-- What to generate. -/
structure Request where
  struct : String
  interface : String
  /-- The package of the file, if not that of the schema. -/
  package : Option String
  header : String
  deriving Repr, DecidableEq

def Request.standardHeader : String := "// Code generated by repogen. DO NOT EDIT."

/-- Why a method is not generated. -/
inductive MethodFault where
  | plan (fault : MethodError)
  | body (fault : DocumentError)
  deriving Repr, DecidableEq

def MethodFault.diagnostic : MethodFault → Diagnostic
  | .plan fault => fault.diagnostic
  | .body fault => fault.diagnostic

/-- Why a file is not generated. -/
inductive GenerationError where
  | schema (fault : SchemaError)
  | method (name : String) (fault : MethodFault)
  deriving Repr, DecidableEq

def GenerationError.diagnostic : GenerationError → Diagnostic
  | .schema fault => fault.diagnostic
  | .method name fault =>
      ⟨"method '" ++ name ++ "': " ++ fault.diagnostic.message, "repogen::codegen::method", none,
        some fault.diagnostic⟩

namespace Schema

/-- The struct of a name, with the schema it is in. -/
def entity (schema : Schema) (name : String) : Except SchemaError Entity :=
  match schema.struct? name with
  | some struct => .ok ⟨schema, struct⟩
  | none => .error (.structNotFound name)

def interface (schema : Schema) (name : String) : Except SchemaError Interface :=
  match schema.interface? name with
  | some interface => .ok interface
  | none => .error (.interfaceNotFound name)

/-- The imports that the types of a method refer to, by their qualifiers. -/
def importsFor (schema : Schema) (method : Signature) : List Import :=
  (GoType.packagesOfAll (method.params ++ method.results)).filterMap fun package =>
    schema.imports.find? fun entry => entry.qualifier = package

end Schema

def planMethod (entity : Entity) (method : Signature) : Except GenerationError Plan :=
  (entity.plan method).mapError fun fault => .method method.name (.plan fault)

def methodOf (implementation : Implementation) (plan : Plan) : Except GenerationError Decl :=
  (implementation.methodDecl plan).mapError fun fault =>
    .method plan.signature.name (.body fault)

/-- The import groups of a file.  A path of an earlier group is not imported
again. -/
def importGroups (schema : Schema) (plans : List Plan) : List (List Import) :=
  let standard := [Import.plain "context"]
  let driver :=
    appendMissing id [] (baseImports ++ plans.flatMap fun plan => importsOf plan.operation)
  let source :=
    appendMissing id [] (plans.flatMap fun plan => schema.importsFor plan.signature)
  let earlier := (standard ++ driver).map Import.path
  [standard, driver, source.filter fun entry => !earlier.contains entry.path]

/-- The file of a repository. -/
def Schema.generate (schema : Schema) (request : Request) : Except GenerationError GoFile := do
  let entity ← (schema.entity request.struct).mapError .schema
  let interface ← (schema.interface request.interface).mapError .schema
  let implementation : Implementation := ⟨entity.struct.name, interface.name⟩
  let plans ← interface.methods.mapM (planMethod entity)
  let methods ← plans.mapM (methodOf implementation)
  .ok
    { header := request.header
      package := request.package.getD schema.package
      imports := importGroups schema plans
      decls := implementation.declarations ++ methods }

end NamedQuery
