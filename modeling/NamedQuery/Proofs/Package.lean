import Mathlib.Data.List.Nodup
import NamedQuery.Proofs.Merge
import NamedQuery.Proofs.Operation

/-!
# The package that files make up

Files make up a package exactly when they agree on its name and declare no struct and
no interface twice.  Its schema has their declarations one after the other, with named
types and imports where they appear first.  In another order the files make up a
package as well, and structs and interfaces are looked up with the same results.
-/

namespace NamedQuery

/-! ## Files that fit together -/

/-- Files of one package that declare no struct and no interface twice, neither in one
file nor in two. -/
structure Compatible (files : List SourceFile) : Prop where
  package : ∀ file ∈ files, ∀ other ∈ files, file.package = other.package
  structs : ((files.flatMap SourceFile.structs).map Struct.name).Nodup
  interfaces : ((files.flatMap SourceFile.interfaces).map Interface.name).Nodup

theorem Compatible.perm {files others : List SourceFile} (compatible : Compatible files)
    (order : others.Perm files) : Compatible others where
  package := by
    intro file member other another
    exact compatible.package file (order.mem_iff.mp member) other (order.mem_iff.mp another)
  structs := (((order.flatMap_right _).map _).nodup_iff).mpr compatible.structs
  interfaces := (((order.flatMap_right _).map _).nodup_iff).mpr compatible.interfaces

/-- The declarations of the files one after the other, with the first named type of each
name and each import once. -/
def Schema.together (files : List SourceFile) : Schema where
  package := (files.head?.map SourceFile.package).getD ""
  imports := firsts id (files.flatMap SourceFile.imports)
  structs := files.flatMap SourceFile.structs
  interfaces := files.flatMap SourceFile.interfaces
  namedTypes := firsts NamedType.name (files.flatMap SourceFile.namedTypes)

/-! ## Merging all files -/

/-- An item whose name is taken does not fit with those before it, whatever comes
after it. -/
theorem not_nodup_of_taken {α : Type} {name : α → String} {known items added rest : List α}
    {item : α} (cut : items = added ++ item :: rest)
    (taken : name item ∈ (known ++ added).map name) (later : List α) :
    ¬ ((known ++ (items ++ later)).map name).Nodup := by
  intro distinct
  rw [cut, List.append_assoc, ← List.append_assoc, List.map_append, List.cons_append,
    List.map_cons] at distinct
  exact (List.nodup_append.mp distinct).2.2 _ taken _ List.mem_cons_self rfl

namespace Merge

/-- The packages of what is merged and of files to add. -/
def packages (merge : Merge) (files : List SourceFile) : List String :=
  merge.package.toList ++ files.map SourceFile.package

/-- Files that can all be added to a merge. -/
structure Accepts (merge : Merge) (files : List SourceFile) : Prop where
  package : ∀ package ∈ merge.packages files, ∀ other ∈ merge.packages files, package = other
  structs : ((merge.structs ++ files.flatMap SourceFile.structs).map Struct.name).Nodup
  interfaces :
    ((merge.interfaces ++ files.flatMap SourceFile.interfaces).map Interface.name).Nodup

/-- A merge with all declarations of files. -/
def withAll (merge : Merge) (files : List SourceFile) : Merge where
  package := (merge.packages files).head?
  imports := appendMissing id merge.imports (files.flatMap SourceFile.imports)
  structs := merge.structs ++ files.flatMap SourceFile.structs
  interfaces := merge.interfaces ++ files.flatMap SourceFile.interfaces
  namedTypes :=
    appendMissing NamedType.name merge.namedTypes (files.flatMap SourceFile.namedTypes)

theorem accepts_nil {merge : Merge} (distinct : merge.Distinct) : merge.Accepts [] where
  package := by
    cases fixed : merge.package <;> simp [packages, fixed]
  structs := by simpa using distinct.structs
  interfaces := by simpa using distinct.interfaces

theorem withAll_nil (merge : Merge) : merge.withAll [] = merge := by
  rcases merge with ⟨package, imports, structs, interfaces, namedTypes⟩
  cases package <;> simp [withAll, packages, appendMissing]

/-- After a file was added, the files that fit are those that fit together with it. -/
theorem accepts_cons_iff {merge next : Merge} {file : SourceFile}
    (added : merge.Added file (next, none)) (rest : List SourceFile) :
    next.Accepts rest ↔ merge.Accepts (file :: rest) := by
  cases added with
  | all agrees structs interfaces =>
      -- A package that is fixed already is that of the file, which stands first now.
      have known (package : String) : package ∈ merge.packages (file :: rest) ↔
          package ∈ file.package :: rest.map SourceFile.package := by
        rw [packages, List.mem_append, Option.mem_toList, List.map_cons]
        refine ⟨?_, .inr⟩
        rintro (fixed | listed)
        · rw [agrees package fixed]
          exact List.mem_cons_self
        · exact listed
      have structs := List.append_assoc merge.structs file.structs
        (rest.flatMap SourceFile.structs)
      have interfaces := List.append_assoc merge.interfaces file.interfaces
        (rest.flatMap SourceFile.interfaces)
      constructor
      · intro accepts
        refine ⟨?_, structs ▸ accepts.structs, interfaces ▸ accepts.interfaces⟩
        intro package member other another
        exact accepts.package _ ((known package).mp member) _ ((known other).mp another)
      · intro accepts
        refine ⟨?_, structs ▸ accepts.structs, interfaces ▸ accepts.interfaces⟩
        intro package member other another
        exact accepts.package _ ((known package).mpr member) _ ((known other).mpr another)

theorem withAll_cons {merge next : Merge} {file : SourceFile}
    (added : merge.Added file (next, none)) (rest : List SourceFile) :
    next.withAll rest = merge.withAll (file :: rest) := by
  cases added with
  | all agrees structs interfaces =>
      have first : (merge.packages (file :: rest)).head? = some file.package := by
        cases fixed : merge.package with
        | none => simp [packages, fixed]
        | some package => simp [packages, fixed, agrees package fixed]
      simp only [withAll, first, List.flatMap_cons, appendMissing_append, List.append_assoc]
      rfl

/-- A file that is refused fits with nothing. -/
theorem not_accepts_cons {merge next : Merge} {file : SourceFile} {fault : SchemaError}
    (added : merge.Added file (next, some fault)) (rest : List SourceFile) :
    ¬ merge.Accepts (file :: rest) := by
  intro accepts
  cases added with
  | otherPackage fixed differs =>
      apply differs
      apply accepts.package
      · simp [packages, fixed]
      · simp [packages]
  | upToStruct agrees cut structs taken =>
      exact not_nodup_of_taken cut taken _ accepts.structs
  | upToInterface agrees structs cut interfaces taken =>
      exact not_nodup_of_taken cut taken _ accepts.interfaces

/-- All files are added when they fit with what is merged and with each other. -/
theorem addAll_eq_ok_iff {merge final : Merge} (distinct : merge.Distinct)
    (files : List SourceFile) :
    merge.addAll files = .ok final ↔ merge.Accepts files ∧ final = merge.withAll files := by
  induction files generalizing merge with
  | nil =>
      rw [addAll, Except.ok.injEq, withAll_nil]
      exact ⟨fun same => ⟨accepts_nil distinct, same.symm⟩, fun accepted => accepted.2.symm⟩
  | cons file rest ih =>
      have added := added_add distinct file
      rw [addAll]
      generalize merge.add file = result at added
      rcases result with ⟨next, none | fault⟩
      · rw [← accepts_cons_iff added, ← withAll_cons added]
        exact ih (added.distinct distinct)
      · exact ⟨nofun, fun accepted => absurd accepted.1 (not_accepts_cons added rest)⟩

theorem accepts_start_iff {files : List SourceFile} : start.Accepts files ↔ Compatible files := by
  constructor
  · intro accepts
    refine ⟨?_, accepts.structs, accepts.interfaces⟩
    intro file member other another
    exact accepts.package _ (List.mem_map_of_mem member) _ (List.mem_map_of_mem another)
  · intro compatible
    refine ⟨?_, compatible.structs, compatible.interfaces⟩
    intro package member other another
    obtain ⟨file, listed, rfl⟩ := List.mem_map.mp member
    obtain ⟨file', listed', rfl⟩ := List.mem_map.mp another
    exact compatible.package file listed file' listed'

theorem schema_withAll_start (files : List SourceFile) :
    (start.withAll files).schema = Schema.together files := by
  rw [withAll, schema, Schema.together]
  simp only [start, appendMissing_nil_eq_firsts, List.nil_append, packages, Option.toList_none,
    List.head?_map]

end Merge

/-! ## Lookups in any order -/

/-- With different names, an item is found under its own name and no other. -/
theorem find?_eq_some_iff_of_nodup {α : Type} {name : α → String} {items : List α}
    (distinct : (items.map name).Nodup) {wanted : String} {found : α} :
    items.find? (fun item => name item = wanted) = some found ↔
      found ∈ items ∧ name found = wanted := by
  constructor
  · intro first
    have named := List.find?_some first
    exact ⟨List.mem_of_find?_eq_some first, of_decide_eq_true named⟩
  · rintro ⟨member, rfl⟩
    cases first : items.find? (fun item => name item = name found) with
    | none =>
        have missing := List.find?_eq_none.mp first found member
        simp at missing
    | some other =>
        have named := List.find?_some first
        rw [List.inj_on_of_nodup_map distinct (List.mem_of_find?_eq_some first) member
          (of_decide_eq_true named)]

theorem find?_eq_of_perm {α : Type} {name : α → String} {items others : List α}
    (distinct : (items.map name).Nodup) (order : others.Perm items) (wanted : String) :
    others.find? (fun item => name item = wanted) =
      items.find? fun item => name item = wanted := by
  have apart : (others.map name).Nodup := (order.map name).nodup_iff.mpr distinct
  apply Option.ext
  intro found
  rw [find?_eq_some_iff_of_nodup apart, find?_eq_some_iff_of_nodup distinct, order.mem_iff]

namespace Schema

theorem ofFiles_eq_ok_iff {files : List SourceFile} {schema : Schema} :
    ofFiles files = .ok schema ↔ Compatible files ∧ schema = together files := by
  rw [ofFiles, map_eq_ok_iff]
  simp only [Merge.addAll_eq_ok_iff Merge.distinct_start, Merge.accepts_start_iff]
  constructor
  · rintro ⟨merge, ⟨compatible, rfl⟩, rfl⟩
    exact ⟨compatible, Merge.schema_withAll_start files⟩
  · rintro ⟨compatible, rfl⟩
    exact ⟨_, ⟨compatible, rfl⟩, Merge.schema_withAll_start files⟩

/-- Files have a schema exactly when they fit together, and then it is that of all their
declarations.  Whether they have one does not depend on their order, and neither does
what is found under the name of a struct or an interface. -/
theorem ofFiles_in_any_order (files : List SourceFile) :
    (∀ schema, ofFiles files = .ok schema ↔ Compatible files ∧ schema = together files) ∧
    ∀ others, others.Perm files →
      ((∃ schema, ofFiles others = .ok schema) ↔ ∃ schema, ofFiles files = .ok schema) ∧
      ∀ schema schema', ofFiles files = .ok schema → ofFiles others = .ok schema' →
        ∀ name, schema'.struct? name = schema.struct? name ∧
          schema'.interface? name = schema.interface? name := by
  refine ⟨fun schema => ofFiles_eq_ok_iff, ?_⟩
  intro others order
  refine ⟨?_, ?_⟩
  · simp only [ofFiles_eq_ok_iff, exists_and_left, exists_eq, and_true]
    exact ⟨fun compatible => compatible.perm order.symm,
      fun compatible => compatible.perm order⟩
  · intro schema schema' made made' name
    obtain ⟨compatible, rfl⟩ := ofFiles_eq_ok_iff.mp made
    obtain ⟨-, rfl⟩ := ofFiles_eq_ok_iff.mp made'
    exact ⟨find?_eq_of_perm compatible.structs (order.flatMap_right _) name,
      find?_eq_of_perm compatible.interfaces (order.flatMap_right _) name⟩

end Schema

namespace Users

/-- A second file of the users, with an import that the first one has too. -/
def addresses : SourceFile where
  package := "user"
  imports := [.plain "net/mail", .plain "time"]
  structs := [⟨"Contact", [phone]⟩]
  interfaces := [⟨"UserRepository", []⟩]
  namedTypes := []

theorem people_and_addresses :
    Schema.ofFiles [people, addresses] = .ok
      ⟨"user", [.plain "time", .plain "net/mail"], [⟨"User", [id, age]⟩, ⟨"Contact", [phone]⟩],
        [⟨"UserRepository", []⟩], []⟩ ∧
    ∃ schema, Schema.ofFiles [addresses, people] = .ok schema ∧
      schema.struct? "User" = some ⟨"User", [id, age]⟩ := by
  have compatible : Compatible [people, addresses] := by
    refine ⟨?_, by decide, by decide⟩
    simp [people, addresses]
  obtain ⟨decided, anyOrder⟩ := Schema.ofFiles_in_any_order [people, addresses]
  have made := (decided _).mpr ⟨compatible, rfl⟩
  obtain ⟨succeeds, lookups⟩ := anyOrder [addresses, people] (.swap people addresses [])
  obtain ⟨schema, made'⟩ := succeeds.mpr ⟨_, made⟩
  exact ⟨made, schema, made', (lookups _ schema made made' "User").1⟩

end Users

end NamedQuery
