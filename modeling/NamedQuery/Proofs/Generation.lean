import Mathlib.Tactic.Choose
import NamedQuery.Generation
import NamedQuery.Proofs.Body
import NamedQuery.Proofs.Dependence

/-!
# Generation, method by method

A file is generated exactly when its struct and its interface are declared and
every method of the interface is planned and translated.  The file then declares
the constructor, the struct of the implementation, and the methods in the order of
the interface, each as it is planned and translated on its own.
-/

namespace NamedQuery

open Code Mongo

theorem mapError_eq_ok_iff {ε φ α : Type} {result : Except ε α} {change : ε → φ} {value : α} :
    result.mapError change = .ok value ↔ result = .ok value := by
  cases result with
  | error fault => simp [Except.mapError]
  | ok found => simp [Except.mapError]

/-- Items are related to values through others exactly when there is a list of
these between them. -/
theorem forall₂_exists_iff {α β γ : Type} {first : α → β → Prop} {second : β → γ → Prop}
    {items : List α} {values : List γ} :
    List.Forall₂ (fun item value => ∃ middle, first item middle ∧ second middle value)
        items values ↔
      ∃ middles, List.Forall₂ first items middles ∧ List.Forall₂ second middles values := by
  constructor
  · intro each
    induction each with
    | nil => exact ⟨[], .nil, .nil⟩
    | cons related _ ih =>
        obtain ⟨middle, step, next⟩ := related
        obtain ⟨middles, steps, nexts⟩ := ih
        exact ⟨middle :: middles, .cons step steps, .cons next nexts⟩
  · rintro ⟨middles, steps, nexts⟩
    induction steps generalizing values with
    | nil =>
        cases nexts
        exact .nil
    | cons step _ ih =>
        cases nexts with
        | cons next later => exact .cons ⟨_, step, next⟩ (ih later)

/-! ## One method -/

namespace Entity

/-- The method has a plan, and the plan has a body. -/
def Translates (entity : Entity) (method : Signature) : Prop :=
  ∃ plan statements, entity.plan method = .ok plan ∧
    body entity.struct.name plan.operation = .ok statements

/-- The declaration of a method in the implementation of an interface.  It has the
name and the results of the method, its parameters are `arg0`, `arg1` and so on,
and its body is the one of the method alone. -/
inductive Declares (entity : Entity) (interface : String) (method : Signature) : Decl → Prop where
  | method {plan : Plan} {statements : List Stmt} (planned : entity.plan method = .ok plan)
      (translated : body entity.struct.name plan.operation = .ok statements) :
      Declares entity interface method
        (.method ⟨"r", .pointer (.named (interface ++ "Mongo"))⟩ method.name
          (method.params.mapIdx fun position type => ⟨"arg" ++ toString position, type⟩)
          method.results statements)

theorem paramsFrom_eq_mapIdx (slot : Nat) (params : List GoType) :
    Implementation.paramsFrom slot params =
      params.mapIdx fun position type => ⟨"arg" ++ toString (slot + position), type⟩ := by
  induction params generalizing slot with
  | nil => rfl
  | cons type rest ih =>
      rw [Implementation.paramsFrom, ih, List.mapIdx_cons, argName]
      simp only [Nat.add_zero, Nat.add_right_comm, Nat.add_assoc]

theorem declares_iff {entity : Entity} {interface : String} {method : Signature} {decl : Decl} :
    entity.Declares interface method decl ↔
      ∃ plan, entity.plan method = .ok plan ∧
        Implementation.methodDecl ⟨entity.struct.name, interface⟩ plan = .ok decl := by
  constructor
  · rintro ⟨planned, translated⟩
    refine ⟨_, planned, map_eq_ok_iff.mpr ⟨_, translated, ?_⟩⟩
    obtain ⟨rfl, -, -⟩ := read_of_plan planned
    rw [paramsFrom_eq_mapIdx]
    simp only [Nat.zero_add]
    rfl
  · rintro ⟨plan, planned, made⟩
    obtain ⟨statements, translated, rfl⟩ := map_eq_ok_iff.mp made
    have signature := (read_of_plan planned).1
    subst signature
    rw [paramsFrom_eq_mapIdx]
    simp only [Nat.zero_add]
    exact .method planned translated

theorem translates_iff {entity : Entity} (interface : String) {method : Signature} :
    entity.Translates method ↔ ∃ decl, entity.Declares interface method decl := by
  constructor
  · rintro ⟨plan, statements, planned, translated⟩
    exact ⟨_, .method planned translated⟩
  · rintro ⟨_, ⟨planned, translated⟩⟩
    exact ⟨_, _, planned, translated⟩

/-- One function declares all methods that can be declared. -/
theorem exists_declared (entity : Entity) (interface : String) :
    ∃ declared : Signature → Decl, ∀ method, entity.Translates method →
      entity.Declares interface method (declared method) := by
  have each (method : Signature) : ∃ decl, entity.Translates method →
      entity.Declares interface method decl := by
    by_cases translates : entity.Translates method
    · obtain ⟨decl, declares⟩ := (translates_iff interface).mp translates
      exact ⟨decl, fun _ => declares⟩
    · exact ⟨default, fun impossible => absurd impossible translates⟩
  choose declared declares using each
  exact ⟨declared, declares⟩

/-- Methods are declared alike under schemas that declare the same types. -/
theorem SameTypes.declares_iff {entity other : Entity} (same : entity.SameTypes other)
    {interface : String} {method : Signature} {decl : Decl} :
    other.Declares interface method decl ↔ entity.Declares interface method decl := by
  rw [Entity.declares_iff, Entity.declares_iff, same.plan_eq, same.struct]

end Entity

/-! ## Files -/

/-- The constructor of the implementation of an interface. -/
def constructorDecl (interface : String) : Decl :=
  .function ("New" ++ interface) [⟨"collection", .pointer (.qualified "mongo" "Collection")⟩]
    [.named interface]
    [.giveBack [.struct ("&" ++ (interface ++ "Mongo")) [("collection", .ident "collection")]]]

/-- The struct of the implementation of an interface. -/
def structDecl (interface : String) : Decl :=
  .struct (interface ++ "Mongo") [⟨"collection", .pointer (.qualified "mongo" "Collection")⟩]

namespace Schema

/-- How a file is generated: every method of the interface is planned, then every
plan is turned into a declaration. -/
inductive Generated (schema : Schema) (request : Request) : GoFile → Prop where
  | file {struct : Struct} {interface : Interface} {plans : List Plan} {decls : List Decl}
      (stored : schema.struct? request.struct = some struct)
      (implemented : schema.interface? request.interface = some interface)
      (planned : List.Forall₂ (fun method plan => Entity.plan ⟨schema, struct⟩ method = .ok plan)
        interface.methods plans)
      (translated : List.Forall₂ (fun plan decl =>
        Implementation.methodDecl ⟨struct.name, interface.name⟩ plan = .ok decl) plans decls) :
      Generated schema request
        { header := request.header
          package := request.package.getD schema.package
          imports := importGroups schema plans
          decls := constructorDecl interface.name :: structDecl interface.name :: decls }

theorem entity_eq_ok_iff {schema : Schema} {name : String} {entity : Entity} :
    schema.entity name = .ok entity ↔
      ∃ struct, schema.struct? name = some struct ∧ (⟨schema, struct⟩ : Entity) = entity := by
  unfold Schema.entity
  cases schema.struct? name <;> simp

theorem interface_eq_ok_iff {schema : Schema} {name : String} {interface : Interface} :
    schema.interface name = .ok interface ↔ schema.interface? name = some interface := by
  unfold Schema.interface
  cases schema.interface? name <;> simp

theorem generate_eq_ok_iff {schema : Schema} {request : Request} {file : GoFile} :
    schema.generate request = .ok file ↔ schema.Generated request file := by
  constructor
  · intro generated
    obtain ⟨entity, known, afterEntity⟩ := bind_eq_ok_iff.mp generated
    obtain ⟨interface, declared, afterInterface⟩ := bind_eq_ok_iff.mp afterEntity
    obtain ⟨plans, planned, afterPlans⟩ := bind_eq_ok_iff.mp afterInterface
    obtain ⟨decls, translated, done⟩ := bind_eq_ok_iff.mp afterPlans
    cases done
    obtain ⟨struct, stored, rfl⟩ := entity_eq_ok_iff.mp (mapError_eq_ok_iff.mp known)
    have implemented := interface_eq_ok_iff.mp (mapError_eq_ok_iff.mp declared)
    refine .file stored implemented ?_ ?_
    · exact (mapM_eq_ok_iff.mp planned).imp fun _ _ made => mapError_eq_ok_iff.mp made
    · exact (mapM_eq_ok_iff.mp translated).imp fun _ _ made => mapError_eq_ok_iff.mp made
  · rintro ⟨stored, implemented, planned, translated⟩
    refine bind_eq_ok_iff.mpr ⟨_, mapError_eq_ok_iff.mpr
      (entity_eq_ok_iff.mpr ⟨_, stored, rfl⟩), ?_⟩
    refine bind_eq_ok_iff.mpr ⟨_, mapError_eq_ok_iff.mpr
      (interface_eq_ok_iff.mpr implemented), ?_⟩
    refine bind_eq_ok_iff.mpr ⟨_, mapM_eq_ok_iff.mpr
      (planned.imp fun _ _ made => mapError_eq_ok_iff.mpr made), ?_⟩
    refine bind_eq_ok_iff.mpr ⟨_, mapM_eq_ok_iff.mpr
      (translated.imp fun _ _ made => mapError_eq_ok_iff.mpr made), ?_⟩
    rfl

theorem name_of_interface? {schema : Schema} {name : String} {interface : Interface}
    (found : schema.interface? name = some interface) : interface.name = name := by
  have named := List.find?_some found
  exact of_decide_eq_true named

/-- The plans and declarations that a generated file is made of. -/
theorem Generated.exists_plans {schema : Schema} {request : Request} {file : GoFile}
    (generated : schema.Generated request file) {struct : Struct} {interface : Interface}
    (stored : schema.struct? request.struct = some struct)
    (implemented : schema.interface? request.interface = some interface) :
    ∃ plans decls,
      List.Forall₂ (fun method plan => Entity.plan ⟨schema, struct⟩ method = .ok plan)
        interface.methods plans ∧
      List.Forall₂ (fun plan decl =>
        Implementation.methodDecl ⟨struct.name, interface.name⟩ plan = .ok decl) plans decls ∧
      file.imports = importGroups schema plans ∧
      file.decls = constructorDecl interface.name :: structDecl interface.name :: decls := by
  obtain ⟨found, known, planned, translated⟩ := generated
  rw [stored] at found
  rw [implemented] at known
  cases found
  cases known
  exact ⟨_, _, planned, translated, rfl, rfl⟩

/-- The methods of a generated file are the declarations of the methods of the
interface, in order. -/
theorem Generated.decls_eq {schema : Schema} {request : Request} {file : GoFile}
    (generated : schema.Generated request file) {struct : Struct} {interface : Interface}
    (stored : schema.struct? request.struct = some struct)
    (implemented : schema.interface? request.interface = some interface) :
    ∃ decls, file.decls =
        constructorDecl interface.name :: structDecl interface.name :: decls ∧
      List.Forall₂ (Entity.Declares ⟨schema, struct⟩ interface.name) interface.methods decls := by
  obtain ⟨plans, decls, planned, translated, -, shape⟩ :=
    generated.exists_plans stored implemented
  refine ⟨decls, shape, ?_⟩
  exact (forall₂_exists_iff.mpr ⟨plans, planned, translated⟩).imp
    fun _ _ made => Entity.declares_iff.mpr made

/-- Methods that all have declarations make up a file. -/
theorem exists_generated {schema : Schema} {request : Request} {struct : Struct}
    {interface : Interface} {declared : Signature → Decl}
    (stored : schema.struct? request.struct = some struct)
    (implemented : schema.interface? request.interface = some interface)
    (each : ∀ method ∈ interface.methods,
      Entity.Declares ⟨schema, struct⟩ interface.name method (declared method)) :
    ∃ file, schema.Generated request file ∧
      file.decls = constructorDecl interface.name :: structDecl interface.name ::
        interface.methods.map declared := by
  have related : List.Forall₂ (Entity.Declares ⟨schema, struct⟩ interface.name)
      interface.methods (interface.methods.map declared) := by
    rw [List.forall₂_map_right_iff, List.forall₂_same]
    exact each
  obtain ⟨plans, planned, translated⟩ :=
    forall₂_exists_iff.mp (related.imp fun _ _ made => Entity.declares_iff.mp made)
  exact ⟨_, .file stored implemented planned translated, rfl⟩

theorem exists_generate_iff {schema : Schema} {request : Request} :
    (∃ file, schema.generate request = .ok file) ↔
      ∃ struct interface, schema.struct? request.struct = some struct ∧
        schema.interface? request.interface = some interface ∧
        ∀ method ∈ interface.methods, Entity.Translates ⟨schema, struct⟩ method := by
  constructor
  · rintro ⟨file, succeeded⟩
    have generated := generate_eq_ok_iff.mp succeeded
    have ⟨stored, implemented, _, _⟩ := generated
    obtain ⟨decls, -, declares⟩ := generated.decls_eq stored implemented
    refine ⟨_, _, stored, implemented, ?_⟩
    intro method member
    obtain ⟨decl, -, declared⟩ := exists_mem_of_forall₂ declares member
    exact (Entity.translates_iff _).mpr ⟨decl, declared⟩
  · rintro ⟨struct, interface, stored, implemented, each⟩
    obtain ⟨declared, declares⟩ := Entity.exists_declared ⟨schema, struct⟩ interface.name
    obtain ⟨file, generated, -⟩ := exists_generated stored implemented
      fun method member => declares method (each method member)
    exact ⟨file, generate_eq_ok_iff.mpr generated⟩

/-- Under one struct and one name of the interface, the methods are declared by one
function, whatever interfaces the schema has. -/
theorem exists_declared_of_interfaces {schema : Schema} {request : Request} {struct : Struct}
    (stored : schema.struct? request.struct = some struct) :
    ∃ declared : Signature → Decl, ∀ interfaces interface,
      Schema.interface? { schema with interfaces } request.interface = some interface →
      (∀ method ∈ interface.methods, Entity.Translates ⟨schema, struct⟩ method) →
      ∃ file, Schema.generate { schema with interfaces } request = .ok file ∧
        file.decls = constructorDecl request.interface :: structDecl request.interface ::
          interface.methods.map declared := by
  obtain ⟨declared, declares⟩ := Entity.exists_declared ⟨schema, struct⟩ request.interface
  refine ⟨declared, ?_⟩
  intro interfaces interface implemented each
  have kept : Schema.struct? { schema with interfaces } request.struct = some struct := stored
  have same : Entity.SameTypes ⟨schema, struct⟩ ⟨{ schema with interfaces }, struct⟩ :=
    ⟨rfl, rfl, rfl⟩
  have named := name_of_interface? implemented
  have all : ∀ method ∈ interface.methods, Entity.Declares
      ⟨{ schema with interfaces }, struct⟩ interface.name method (declared method) := by
    intro method member
    rw [named, same.declares_iff]
    exact declares method (each method member)
  obtain ⟨file, generated, decls⟩ := exists_generated kept implemented all
  rw [named] at decls
  exact ⟨file, generate_eq_ok_iff.mpr generated, decls⟩

/-- A file is generated exactly when the struct and the interface are declared and
every method of the interface is planned and translated.  The file declares the
constructor, the struct, and each method as it is declared on its own, in the order
of the interface.  Whatever the interfaces of the schema are, the methods are mapped
to their declarations by one function, so a method that is moved, added or removed
moves, adds or removes its own declaration and no other. -/
theorem generate_method_by_method (schema : Schema) (request : Request) :
    ((∃ file, schema.generate request = .ok file) ↔
      ∃ struct interface, schema.struct? request.struct = some struct ∧
        schema.interface? request.interface = some interface ∧
        ∀ method ∈ interface.methods, Entity.Translates ⟨schema, struct⟩ method) ∧
    (∀ file struct interface, schema.generate request = .ok file →
      schema.struct? request.struct = some struct →
      schema.interface? request.interface = some interface →
      ∃ decls, file.decls =
          constructorDecl interface.name :: structDecl interface.name :: decls ∧
        List.Forall₂ (Entity.Declares ⟨schema, struct⟩ interface.name)
          interface.methods decls) ∧
    (∀ struct, schema.struct? request.struct = some struct →
      ∃ declared : Signature → Decl, ∀ interfaces interface,
        Schema.interface? { schema with interfaces } request.interface = some interface →
        (∀ method ∈ interface.methods, Entity.Translates ⟨schema, struct⟩ method) →
        ∃ file, Schema.generate { schema with interfaces } request = .ok file ∧
          file.decls = constructorDecl request.interface :: structDecl request.interface ::
            interface.methods.map declared) := by
  refine ⟨exists_generate_iff, ?_, ?_⟩
  · intro file struct interface succeeded stored implemented
    exact (generate_eq_ok_iff.mp succeeded).decls_eq stored implemented
  · intro struct stored
    exact exists_declared_of_interfaces stored

end Schema

namespace Users

/-- The schema of users with a repository of two methods. -/
def schema : Schema :=
  { entity.schema with interfaces := [⟨"UserRepository", [search, update]⟩] }

def request : Request := ⟨"User", "UserRepository", none, Request.standardHeader⟩

theorem repository_declarations :
    ∃ file, schema.generate request = .ok file ∧
      file.decls.map Decl.name =
        ["NewUserRepository", "UserRepositoryMongo", search.name, update.name] ∧
      ∃ statements, file.decls.getLast? = some
        (.method ⟨"r", .pointer (.named "UserRepositoryMongo")⟩ update.name
          [⟨"arg0", .context⟩, ⟨"arg1", .named "int"⟩, ⟨"arg2", .named "string"⟩,
            ⟨"arg3", .named "int"⟩, ⟨"arg4", .named "int"⟩]
          [.named "bool", .error] statements) := by
  obtain ⟨succeeds, declares, -⟩ := Schema.generate_method_by_method schema request
  have same : entity.SameTypes ⟨schema, entity.struct⟩ := ⟨rfl, rfl, rfl⟩
  have searched : Entity.Translates ⟨schema, entity.struct⟩ search :=
    ⟨_, _, (same.plan_eq search).trans plan_search, rfl⟩
  have updated : Entity.Translates ⟨schema, entity.struct⟩ update :=
    ⟨_, _, (same.plan_eq update).trans plan_update, rfl⟩
  obtain ⟨file, generated⟩ := succeeds.mpr ⟨entity.struct, _, rfl, rfl, by
    simp only [List.forall_mem_cons]
    exact ⟨searched, updated, nofun⟩⟩
  obtain ⟨decls, shape, each⟩ := declares file entity.struct _ generated rfl rfl
  refine ⟨file, generated, ?_⟩
  rw [shape]
  cases each with
  | cons first later =>
      cases later with
      | cons second none =>
          cases none
          cases first
          cases second
          exact ⟨rfl, _, rfl⟩

end Users

end NamedQuery
