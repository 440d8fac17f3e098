import NamedQuery.Proofs.Generation
import NamedQuery.Proofs.Merge

/-!
# Imports of a generated file

A generated file imports some packages for its own code, under their own names, and
the packages that the signatures mention, as the schema imports them.  An import of
the second kind is left out when its path is one of the first.  From this follows
when every package of a signature is imported under the name it has there, and when
no name is imported twice.
-/

namespace NamedQuery

open Code Mongo

/-! ## What a file imports -/

/-- A find that sorts or limits its documents. -/
def Operation.Refined : Operation → Prop
  | .find _ _ sorts limit => sorts ≠ [] ∨ limit ≠ none
  | .insert .. | .update .. | .delete .. | .count .. => False

/-- The paths of the packages that a file with the given methods imports for its own
code: the context and the driver always, the documents for a method with a query,
and the options for a find that sorts or limits. -/
inductive Entity.OwnPath (entity : Entity) (methods : List Signature) : String → Prop where
  | context : OwnPath entity methods "context"
  | mongo : OwnPath entity methods "go.mongodb.org/mongo-driver/mongo"
  | bson {method : Signature} {plan : Plan} {query : Query} (member : method ∈ methods)
      (planned : entity.plan method = .ok plan) (queried : plan.operation.query? = some query) :
      OwnPath entity methods "go.mongodb.org/mongo-driver/bson"
  | options {method : Signature} {plan : Plan} (member : method ∈ methods)
      (planned : entity.plan method = .ok plan) (refined : plan.operation.Refined) :
      OwnPath entity methods "go.mongodb.org/mongo-driver/mongo/options"

/-- A package that a type of a signature mentions, and the first import of the schema
under its name. -/
structure Schema.Needs (schema : Schema) (methods : List Signature) (package : String)
    (entry : Import) : Prop where
  mentioned : ∃ method ∈ methods, ∃ type ∈ method.params ++ method.results,
    package ∈ type.packages
  first : schema.imports.find? (fun entry => entry.qualifier = package) = some entry

theorem Schema.Needs.qualifier_eq {schema : Schema} {methods : List Signature}
    {package : String} {entry : Import} (needs : schema.Needs methods package entry) :
    entry.qualifier = package := by
  have named := List.find?_some needs.first
  exact of_decide_eq_true named

/-- The imports of the first two groups. -/
def ownImports (plans : List Plan) : List Import :=
  Import.plain "context" ::
    appendMissing id [] (baseImports ++ plans.flatMap fun plan => importsOf plan.operation)

/-- The imports for the signatures, before those with a path of the first groups are
left out. -/
def neededImports (schema : Schema) (plans : List Plan) : List Import :=
  appendMissing id [] (plans.flatMap fun plan => schema.importsFor plan.signature)

theorem flatten_importGroups (schema : Schema) (plans : List Plan) :
    (importGroups schema plans).flatten =
      ownImports plans ++ (neededImports schema plans).filter fun entry =>
        !((ownImports plans).map Import.path).contains entry.path := by
  simp [importGroups, ownImports, neededImports]

theorem GoType.mem_packagesOfAll {types : List GoType} {package : String} :
    package ∈ packagesOfAll types ↔ ∃ type ∈ types, package ∈ type.packages := by
  induction types with
  | nil => simp [packagesOfAll]
  | cons type rest ih => rw [packagesOfAll, List.mem_append, ih, List.exists_mem_cons_iff]

theorem mem_importsOf_iff {operation : Operation} {entry : Import} :
    entry ∈ importsOf operation ↔
      (entry = bsonImport ∧ ∃ query, operation.query? = some query) ∨
      (entry = optionsImport ∧ operation.Refined) := by
  cases operation with
  | find mode query sorts limit =>
      rw [importsOf]
      split
      · next plain =>
          rw [Bool.and_eq_true, List.isEmpty_iff, Option.isNone_iff_eq_none] at plain
          simp [Operation.query?, Operation.Refined, plain]
      · next refined =>
          rw [Bool.and_eq_true, List.isEmpty_iff, Option.isNone_iff_eq_none, not_and_or] at refined
          simp [Operation.query?, Operation.Refined, refined]
  | _ => simp [importsOf, Operation.query?, Operation.Refined]

section Planned

variable {entity : Entity} {methods : List Signature} {plans : List Plan}
  (planned : List.Forall₂ (fun method plan => entity.plan method = .ok plan) methods plans)

include planned

/-- The imports of the first groups are those of the file's own packages, under
their own names. -/
theorem mem_ownImports_iff {entry : Import} :
    entry ∈ ownImports plans ↔ ∃ path, entity.OwnPath methods path ∧ entry = .plain path := by
  simp only [ownImports, List.mem_cons, mem_appendMissing_id, List.not_mem_nil, false_or,
    List.mem_append, baseImports, or_false, List.mem_flatMap, mem_importsOf_iff]
  constructor
  · rintro (rfl | rfl | ⟨plan, member, ⟨rfl, query, queried⟩ | ⟨rfl, refined⟩⟩)
    · exact ⟨_, .context, rfl⟩
    · exact ⟨_, .mongo, rfl⟩
    · obtain ⟨method, listed, made⟩ := exists_mem_of_forall₂ planned.flip member
      exact ⟨_, .bson listed made queried, rfl⟩
    · obtain ⟨method, listed, made⟩ := exists_mem_of_forall₂ planned.flip member
      exact ⟨_, .options listed made refined, rfl⟩
  · rintro ⟨path, own, rfl⟩
    cases own with
    | context => exact .inl rfl
    | mongo => exact .inr (.inl rfl)
    | @bson method plan query listed made queried =>
        obtain ⟨found, member, again⟩ := exists_mem_of_forall₂ planned listed
        cases made.symm.trans again
        exact .inr (.inr ⟨plan, member, .inl ⟨rfl, query, queried⟩⟩)
    | @options method plan listed made refined =>
        obtain ⟨found, member, again⟩ := exists_mem_of_forall₂ planned listed
        cases made.symm.trans again
        exact .inr (.inr ⟨plan, member, .inr ⟨rfl, refined⟩⟩)

theorem mem_ownPaths_iff {path : String} :
    path ∈ (ownImports plans).map Import.path ↔ entity.OwnPath methods path := by
  simp only [List.mem_map, mem_ownImports_iff planned]
  constructor
  · rintro ⟨entry, ⟨path, own, rfl⟩, rfl⟩
    exact own
  · intro own
    exact ⟨.plain path, ⟨path, own, rfl⟩, rfl⟩

/-- The imports for the signatures are the first ones under the names of the
packages that the signatures mention. -/
theorem mem_neededImports_iff {entry : Import} :
    entry ∈ neededImports entity.schema plans ↔
      ∃ package, entity.schema.Needs methods package entry := by
  simp only [neededImports, mem_appendMissing_id, List.not_mem_nil, false_or, List.mem_flatMap,
    Schema.importsFor, List.mem_filterMap, GoType.mem_packagesOfAll]
  constructor
  · rintro ⟨plan, member, package, ⟨type, typed, inside⟩, first⟩
    obtain ⟨method, listed, made⟩ := exists_mem_of_forall₂ planned.flip member
    rw [(Entity.read_of_plan made).1] at typed
    exact ⟨package, ⟨method, listed, type, typed, inside⟩, first⟩
  · rintro ⟨package, ⟨method, listed, type, typed, inside⟩, first⟩
    obtain ⟨plan, member, made⟩ := exists_mem_of_forall₂ planned listed
    rw [← (Entity.read_of_plan made).1] at typed
    exact ⟨plan, member, package, ⟨type, typed, inside⟩, first⟩

/-- The needed imports that are kept. -/
theorem mem_keptImports_iff {entry : Import} :
    (entry ∈ (neededImports entity.schema plans).filter fun entry =>
        !((ownImports plans).map Import.path).contains entry.path) ↔
      (∃ package, entity.schema.Needs methods package entry) ∧
        ¬ entity.OwnPath methods entry.path := by
  rw [List.mem_filter, mem_neededImports_iff planned, ← mem_ownPaths_iff planned]
  simp

end Planned

/-! ## Covered packages -/

/-- In a generated file, every package of a signature that the schema imports is
imported under the same name and from the same path, exactly when the schema imports
the file's own packages under their own names only. -/
theorem Schema.imports_cover_iff {schema : Schema} {request : Request} {file : GoFile}
    {struct : Struct} {interface : Interface} (succeeded : schema.generate request = .ok file)
    (stored : schema.struct? request.struct = some struct)
    (implemented : schema.interface? request.interface = some interface) :
    (∀ package entry, schema.Needs interface.methods package entry →
      ∃ listed ∈ file.imports.flatten, listed.qualifier = package ∧ listed.path = entry.path) ↔
    ∀ package entry, schema.Needs interface.methods package entry →
      Entity.OwnPath ⟨schema, struct⟩ interface.methods entry.path →
      package = (Import.plain entry.path).qualifier := by
  obtain ⟨plans, -, planned, -, imports, -⟩ :=
    (generate_eq_ok_iff.mp succeeded).exists_plans stored implemented
  rw [imports, flatten_importGroups]
  constructor
  · intro covered package entry needs own
    obtain ⟨listed, member, named, located⟩ := covered package entry needs
    rcases List.mem_append.mp member with first | kept
    · obtain ⟨path, -, rfl⟩ := (mem_ownImports_iff planned).mp first
      rw [← located, ← named]
      rfl
    · obtain ⟨-, foreign⟩ := (mem_keptImports_iff planned).mp kept
      rw [located] at foreign
      exact absurd own foreign
  · intro plain package entry needs
    by_cases own : Entity.OwnPath ⟨schema, struct⟩ interface.methods entry.path
    · have first := (mem_ownImports_iff planned).mpr ⟨entry.path, own, rfl⟩
      exact ⟨_, List.mem_append_left _ first, (plain package entry needs own).symm, rfl⟩
    · have kept := (mem_keptImports_iff planned).mpr ⟨⟨package, needs⟩, own⟩
      exact ⟨entry, List.mem_append_right _ kept, needs.qualifier_eq, rfl⟩

namespace Users

/-- A method on a field whose type is from the package of an import. -/
def findByMeta (entry : Import) : Signature :=
  ⟨"FindByMeta", [.context, .qualified entry.qualifier "M"],
    [.slice (.pointer (.named "User")), .error]⟩

/-- Users with a field whose type is from the package of an import. -/
def importing (entry : Import) : Schema where
  package := "user"
  imports := [entry]
  structs := [⟨"User", [⟨"Meta", .qualified entry.qualifier "M", some "bson:\"meta\""⟩]⟩]
  namedTypes := []
  interfaces := [⟨"UserRepository", [findByMeta entry]⟩]

theorem needs_importing (entry : Import) :
    (importing entry).Needs [findByMeta entry] entry.qualifier entry where
  mentioned := ⟨findByMeta entry, List.mem_cons_self, .qualified entry.qualifier "M",
    by simp [findByMeta], by simp [GoType.packages]⟩
  first := by simp [importing]

theorem eq_of_needs_importing {entry found : Import} {methods : List Signature}
    {package : String} (needs : (importing entry).Needs methods package found) :
    found = entry := by
  have listed := List.mem_of_find?_eq_some needs.first
  exact List.mem_singleton.mp listed

theorem documents_covered :
    ∃ file, (importing bsonImport).generate request = .ok file ∧
      ∃ listed ∈ file.imports.flatten,
        listed.qualifier = "bson" ∧ listed.path = "go.mongodb.org/mongo-driver/bson" := by
  have imports : ((importing bsonImport).generate request).map GoFile.imports =
      .ok [[.plain "context"], [.plain "go.mongodb.org/mongo-driver/mongo", bsonImport], []] := by
    decide +kernel
  obtain ⟨file, generated, -⟩ := map_eq_ok_iff.mp imports
  have covered := (Schema.imports_cover_iff generated rfl rfl).mpr fun package entry needs _ => by
    rw [← needs.qualifier_eq, eq_of_needs_importing needs]
    rfl
  exact ⟨file, generated, covered _ _ (needs_importing bsonImport)⟩

/-- The package of the documents under another name. -/
def renamedImport : Import := ⟨some "b", "go.mongodb.org/mongo-driver/bson"⟩

/-- The file imports the documents under their own name, and the name that the
signature has for them stays without an import. -/
theorem renamed_documents_not_covered :
    ∃ file, (importing renamedImport).generate request = .ok file ∧
      (importing renamedImport).Needs [findByMeta renamedImport] "b" renamedImport ∧
      ¬ ∃ listed ∈ file.imports.flatten,
        listed.qualifier = "b" ∧ listed.path = "go.mongodb.org/mongo-driver/bson" := by
  have imports : ((importing renamedImport).generate request).map GoFile.imports =
      .ok [[.plain "context"], [.plain "go.mongodb.org/mongo-driver/mongo", bsonImport], []] := by
    decide +kernel
  obtain ⟨file, generated, listed⟩ := map_eq_ok_iff.mp imports
  refine ⟨file, generated, needs_importing renamedImport, ?_⟩
  rw [listed]
  decide

end Users

/-! ## Distinct names -/

/-- The file's own packages have different names. -/
theorem Entity.OwnPath.eq_of_qualifier {entity : Entity} {methods : List Signature}
    {path other : String} (own : entity.OwnPath methods path)
    (another : entity.OwnPath methods other)
    (same : (Import.plain path).qualifier = (Import.plain other).qualifier) : path = other := by
  cases own <;> cases another <;> first
    | rfl
    | exact absurd same (by decide)

theorem nodup_ownImports (plans : List Plan) : (ownImports plans).Nodup := by
  rw [ownImports, List.nodup_cons]
  refine ⟨?_, nodup_appendMissing_id _⟩
  simp only [mem_appendMissing_id, List.not_mem_nil, false_or, List.mem_append, baseImports,
    List.mem_singleton, List.mem_flatMap, mem_importsOf_iff]
  rintro (driver | ⟨plan, -, ⟨documents, -⟩ | ⟨options, -⟩⟩)
  · exact absurd driver (by decide)
  · exact absurd documents (by decide)
  · exact absurd options (by decide)

section Planned

variable {entity : Entity} {methods : List Signature} {plans : List Plan}
  (planned : List.Forall₂ (fun method plan => entity.plan method = .ok plan) methods plans)

include planned

theorem nodup_qualifiers_own : ((ownImports plans).map Import.qualifier).Nodup := by
  refine List.Nodup.map_on ?_ (nodup_ownImports plans)
  intro entry member other another same
  obtain ⟨path, own, rfl⟩ := (mem_ownImports_iff planned).mp member
  obtain ⟨path', own', rfl⟩ := (mem_ownImports_iff planned).mp another
  rw [own.eq_of_qualifier own' same]

/-- Each name is looked up once, so the needed imports have different names. -/
theorem nodup_qualifiers_needed :
    ((neededImports entity.schema plans).map Import.qualifier).Nodup := by
  refine List.Nodup.map_on ?_ (nodup_appendMissing_id _)
  intro entry member other another same
  obtain ⟨package, needs⟩ := (mem_neededImports_iff planned).mp member
  obtain ⟨package', needs'⟩ := (mem_neededImports_iff planned).mp another
  rw [needs.qualifier_eq, needs'.qualifier_eq] at same
  subst same
  exact Option.some.inj (needs.first.symm.trans needs'.first)

end Planned

/-- The imports of a generated file have different names exactly when what the
schema imports under the name of one of the file's own packages is one of them. -/
theorem Schema.import_names_nodup_iff {schema : Schema} {request : Request} {file : GoFile}
    {struct : Struct} {interface : Interface} (succeeded : schema.generate request = .ok file)
    (stored : schema.struct? request.struct = some struct)
    (implemented : schema.interface? request.interface = some interface) :
    (file.imports.flatten.map Import.qualifier).Nodup ↔
    ∀ package entry, schema.Needs interface.methods package entry →
      (∃ path, Entity.OwnPath ⟨schema, struct⟩ interface.methods path ∧
        (Import.plain path).qualifier = package) →
      Entity.OwnPath ⟨schema, struct⟩ interface.methods entry.path := by
  obtain ⟨plans, -, planned, -, imports, -⟩ :=
    (generate_eq_ok_iff.mp succeeded).exists_plans stored implemented
  rw [imports, flatten_importGroups, List.map_append, List.nodup_append]
  constructor
  · rintro ⟨-, -, apart⟩ package entry needs ⟨path, own, named⟩
    by_contra foreign
    have first := (mem_ownImports_iff planned).mpr ⟨path, own, rfl⟩
    have kept := (mem_keptImports_iff planned).mpr ⟨⟨package, needs⟩, foreign⟩
    apply apart _ (List.mem_map_of_mem first) _ (List.mem_map_of_mem kept)
    rw [named, needs.qualifier_eq]
  · intro owned
    refine ⟨nodup_qualifiers_own planned, ?_, ?_⟩
    · exact (nodup_qualifiers_needed planned).sublist (List.filter_sublist.map _)
    · intro name first other kept same
      obtain ⟨_, member, rfl⟩ := List.mem_map.mp first
      obtain ⟨entry, another, rfl⟩ := List.mem_map.mp kept
      obtain ⟨path, own, rfl⟩ := (mem_ownImports_iff planned).mp member
      obtain ⟨⟨package, needs⟩, foreign⟩ := (mem_keptImports_iff planned).mp another
      rw [needs.qualifier_eq] at same
      exact foreign (owned package entry needs ⟨path, own, same⟩)

namespace Users

/-- Users with a method for all of them, and one import, for the contexts. -/
def withContext (path : String) : Schema :=
  { entity.schema with
    imports := [.plain path]
    interfaces := [⟨"UserRepository",
      [⟨"FindAll", [.context], [.slice (.pointer (.named "User")), .error]⟩]⟩] }

theorem standard_context_once :
    ∃ file, (withContext "context").generate request = .ok file ∧
      (file.imports.flatten.map Import.qualifier).Nodup := by
  have imports : ((withContext "context").generate request).map GoFile.imports =
      .ok [[.plain "context"], [.plain "go.mongodb.org/mongo-driver/mongo", bsonImport], []] := by
    decide +kernel
  obtain ⟨file, generated, -⟩ := map_eq_ok_iff.mp imports
  refine ⟨file, generated, ?_⟩
  refine (Schema.import_names_nodup_iff generated rfl rfl).mpr fun package entry needs _ => ?_
  have listed := List.mem_of_find?_eq_some needs.first
  cases List.mem_singleton.mp listed
  exact .context

/-- Another package of the same name stays beside the standard one. -/
theorem context_imported_twice :
    ∃ file, (withContext "golang.org/x/net/context").generate request = .ok file ∧
      ¬ (file.imports.flatten.map Import.qualifier).Nodup := by
  have imports : ((withContext "golang.org/x/net/context").generate request).map
      GoFile.imports =
      .ok [[.plain "context"], [.plain "go.mongodb.org/mongo-driver/mongo", bsonImport],
        [.plain "golang.org/x/net/context"]] := by
    decide +kernel
  obtain ⟨file, generated, listed⟩ := map_eq_ok_iff.mp imports
  refine ⟨file, generated, ?_⟩
  rw [listed]
  decide

end Users

end NamedQuery
