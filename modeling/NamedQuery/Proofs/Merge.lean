import Mathlib.Data.List.Nodup
import NamedQuery.Proofs.FieldPath
import NamedQuery.Schema.Merge

/-!
# What merging keeps

Items are appended to known ones unless their key is there already.  The keys of
the result are those of both lists, and none of them comes twice.

Files are added one at a time, and some of them may be refused.  Adding a file does
one of four things, and from these follows what holds after any number of files:
no name and no import is there twice, and all that was merged stays in its place.
-/

namespace NamedQuery

section Keys

variable {α κ : Type} {key : α → κ} {known : List α} {item : α}

theorem any_same_iff [DecidableEq κ] :
    (known.any fun other => key other = key item) = true ↔ key item ∈ known.map key := by
  simp

theorem nodup_map_snoc (distinct : (known.map key).Nodup) (new : key item ∉ known.map key) :
    ((known ++ [item]).map key).Nodup := by
  rw [List.map_append, List.map_singleton, ← List.concat_eq_append]
  exact distinct.concat new

end Keys

/-! ## Keys that are missing -/

section AppendMissing

variable {α κ : Type} [DecidableEq κ] (key : α → κ)

theorem mem_map_appendMissing (known items : List α) (wanted : κ) :
    wanted ∈ (appendMissing key known items).map key ↔
      wanted ∈ known.map key ∨ wanted ∈ items.map key := by
  induction items generalizing known with
  | nil => simp [appendMissing]
  | cons item rest ih =>
      rw [appendMissing]
      split
      · next present =>
          have old : key item ∈ known.map key := any_same_iff.mp present
          rw [ih, List.map_cons, List.mem_cons]
          constructor
          · rintro (before | later)
            · exact .inl before
            · exact .inr (.inr later)
          · rintro (before | rfl | later)
            · exact .inl before
            · exact .inl old
            · exact .inr later
      · rw [ih, List.map_append, List.mem_append, List.map_singleton, List.mem_singleton,
          List.map_cons, List.mem_cons, or_assoc]

theorem nodup_map_appendMissing {known : List α} (items : List α)
    (distinct : (known.map key).Nodup) :
    ((appendMissing key known items).map key).Nodup := by
  induction items generalizing known with
  | nil => exact distinct
  | cons item rest ih =>
      rw [appendMissing]
      split
      · exact ih distinct
      · next absent =>
          apply ih
          exact nodup_map_snoc distinct (mt any_same_iff.mpr absent)

theorem mem_appendMissing_id [DecidableEq α] {known items : List α} {item : α} :
    item ∈ appendMissing id known items ↔ item ∈ known ∨ item ∈ items := by
  simpa using mem_map_appendMissing id known items item

theorem nodup_appendMissing_id [DecidableEq α] (items : List α) :
    (appendMissing id [] items).Nodup := by
  have none : (([] : List α).map id).Nodup := List.nodup_nil
  simpa using nodup_map_appendMissing id items none

/-- The first item of each key, in order of appearance. -/
def firsts : List α → List α
  | [] => []
  | item :: rest => item :: (firsts rest).filter fun later => key later ≠ key item

/-- Of the items, the first of each key that is not there yet is appended. -/
theorem appendMissing_eq (known items : List α) :
    appendMissing key known items =
      known ++ (firsts key items).filter fun item => key item ∉ known.map key := by
  induction items generalizing known with
  | nil => simp [appendMissing, firsts]
  | cons item rest ih =>
      rw [appendMissing, firsts]
      split
      · next present =>
          have old : key item ∈ known.map key := any_same_iff.mp present
          rw [ih, List.filter_cons_of_neg (by simpa using old), List.filter_filter]
          congr 1
          apply List.filter_congr
          intro later _
          -- An item with a known key is left out already, also without the first filter.
          have other : key later ∉ known.map key → key later ≠ key item := by
            intro unknown same
            exact unknown (same ▸ old)
          simpa using other
      · next absent =>
          rw [ih, List.filter_cons_of_pos (by simpa using absent), List.filter_filter,
            List.append_assoc, List.singleton_append]
          congr 2
          apply List.filter_congr
          intro later _
          simp [not_or]

theorem prefix_appendMissing (known items : List α) :
    known <+: appendMissing key known items := by
  rw [appendMissing_eq]
  exact List.prefix_append _ _

theorem appendMissing_append (known items later : List α) :
    appendMissing key known (items ++ later) =
      appendMissing key (appendMissing key known items) later := by
  induction items generalizing known with
  | nil => rfl
  | cons item rest ih =>
      rw [List.cons_append, appendMissing, appendMissing]
      split
      · exact ih known
      · exact ih (known ++ [item])

theorem appendMissing_nil_eq_firsts (items : List α) :
    appendMissing key [] items = firsts key items := by
  rw [appendMissing_eq, List.nil_append, List.map_nil]
  simp

end AppendMissing

/-! ## Names that are not taken -/

section AppendDistinct

variable {α : Type} (name : α → String)

/-- What comes of appending items to known ones with different names: all of them, or
those before the first whose name is taken, with that name. -/
inductive Appended (known items : List α) : List α × Option String → Prop where
  | all (distinct : ((known ++ items).map name).Nodup) :
      Appended known items (known ++ items, none)
  | upTo {added rest : List α} {item : α} (cut : items = added ++ item :: rest)
      (distinct : ((known ++ added).map name).Nodup)
      (taken : name item ∈ (known ++ added).map name) :
      Appended known items (known ++ added, some (name item))

theorem appended_appendDistinct {known : List α} (items : List α)
    (distinct : (known.map name).Nodup) :
    Appended name known items (appendDistinct name known items) := by
  induction items generalizing known with
  | nil =>
      have all : Appended name known [] (known ++ [], none) := .all (by rwa [List.append_nil])
      rwa [List.append_nil] at all
  | cons item rest ih =>
      rw [appendDistinct]
      split
      · next present =>
          have taken : name item ∈ known.map name := any_same_iff.mp present
          have stopped : Appended name known (item :: rest) (known ++ [], some (name item)) :=
            .upTo rfl (by rwa [List.append_nil]) (by rwa [List.append_nil])
          rwa [List.append_nil] at stopped
      · next absent =>
          have later := ih (nodup_map_snoc distinct (mt any_same_iff.mpr absent))
          generalize appendDistinct name (known ++ [item]) rest = result at later
          cases later with
          | all distinct =>
              rw [List.append_assoc, List.singleton_append] at distinct ⊢
              exact .all distinct
          | upTo cut distinct taken =>
              rw [List.append_assoc, List.singleton_append] at distinct taken ⊢
              exact .upTo (by rw [cut, List.cons_append]) distinct taken

end AppendDistinct

/-- A name that is found in the earlier schema is found in the later one, with the same
declaration. -/
structure Schema.KeepsLookups (later earlier : Schema) : Prop where
  structs : ∀ name found, earlier.struct? name = some found → later.struct? name = some found
  interfaces : ∀ name found,
    earlier.interface? name = some found → later.interface? name = some found
  namedTypes : ∀ name found,
    earlier.namedType? name = some found → later.namedType? name = some found

/-! ## Adding a file -/

namespace Merge

/-- No name is declared twice, and no import is there twice. -/
structure Distinct (merge : Merge) : Prop where
  structs : (merge.structs.map Struct.name).Nodup
  interfaces : (merge.interfaces.map Interface.name).Nodup
  namedTypes : (merge.namedTypes.map NamedType.name).Nodup
  imports : merge.imports.Nodup

theorem distinct_start : start.Distinct :=
  ⟨List.nodup_nil, List.nodup_nil, List.nodup_nil, List.nodup_nil⟩

/-- What comes of adding a file: all of it is merged, or it is refused for its package,
or for the first struct or interface whose name is taken. -/
inductive Added (merge : Merge) (file : SourceFile) : Merge × Option SchemaError → Prop where
  | all (agrees : ∀ package ∈ merge.package, package = file.package)
      (structs : ((merge.structs ++ file.structs).map Struct.name).Nodup)
      (interfaces : ((merge.interfaces ++ file.interfaces).map Interface.name).Nodup) :
      Added merge file
        (⟨some file.package, appendMissing id merge.imports file.imports,
            merge.structs ++ file.structs, merge.interfaces ++ file.interfaces,
            appendMissing NamedType.name merge.namedTypes file.namedTypes⟩,
          none)
  | otherPackage {first : String} (fixed : merge.package = some first)
      (differs : first ≠ file.package) :
      Added merge file (merge, some (.ambiguousPackage first file.package))
  | upToStruct {added rest : List Struct} {item : Struct}
      (agrees : ∀ package ∈ merge.package, package = file.package)
      (cut : file.structs = added ++ item :: rest)
      (structs : ((merge.structs ++ added).map Struct.name).Nodup)
      (taken : item.name ∈ (merge.structs ++ added).map Struct.name) :
      Added merge file
        ({ merge with package := some file.package, structs := merge.structs ++ added },
          some (.duplicateStruct item.name))
  | upToInterface {added rest : List Interface} {item : Interface}
      (agrees : ∀ package ∈ merge.package, package = file.package)
      (structs : ((merge.structs ++ file.structs).map Struct.name).Nodup)
      (cut : file.interfaces = added ++ item :: rest)
      (interfaces : ((merge.interfaces ++ added).map Interface.name).Nodup)
      (taken : item.name ∈ (merge.interfaces ++ added).map Interface.name) :
      Added merge file
        ({ merge with
            package := some file.package
            structs := merge.structs ++ file.structs
            interfaces := merge.interfaces ++ added },
          some (.duplicateInterface item.name))

theorem added_addDeclarations {merge : Merge} {file : SourceFile} (distinct : merge.Distinct)
    (agrees : ∀ package ∈ merge.package, package = file.package) :
    merge.Added file ({ merge with package := some file.package }.addDeclarations file) := by
  have structs := appended_appendDistinct Struct.name file.structs distinct.structs
  have interfaces :=
    appended_appendDistinct Interface.name file.interfaces distinct.interfaces
  unfold addDeclarations
  dsimp only
  generalize appendDistinct Struct.name merge.structs file.structs = first at structs ⊢
  generalize appendDistinct Interface.name merge.interfaces file.interfaces = second
    at interfaces ⊢
  cases structs with
  | upTo cut apart taken => exact .upToStruct agrees cut apart taken
  | all structs =>
      cases interfaces with
      | upTo cut apart taken => exact .upToInterface agrees structs cut apart taken
      | all interfaces => exact .all agrees structs interfaces

theorem added_add {merge : Merge} (distinct : merge.Distinct) (file : SourceFile) :
    merge.Added file (merge.add file) := by
  rw [add]
  cases fixed : merge.package with
  | none => exact added_addDeclarations distinct (by simp [fixed])
  | some first =>
      dsimp only
      split
      · next same =>
          have agrees : ∀ package ∈ merge.package, package = file.package := by
            simp [fixed, same]
          have merged := added_addDeclarations distinct agrees
          rwa [← same, ← fixed] at merged
      · next differs => exact .otherPackage fixed differs

theorem Added.distinct {merge : Merge} {file : SourceFile} {result : Merge × Option SchemaError}
    (added : merge.Added file result) (distinct : merge.Distinct) : result.1.Distinct := by
  cases added with
  | all agrees structs interfaces =>
      have imports : ((appendMissing id merge.imports file.imports).map id).Nodup :=
        nodup_map_appendMissing id file.imports (by simpa using distinct.imports)
      exact ⟨structs, interfaces,
        nodup_map_appendMissing NamedType.name file.namedTypes distinct.namedTypes,
        by simpa using imports⟩
  | otherPackage fixed differs => exact distinct
  | upToStruct agrees cut structs taken => exact { distinct with structs }
  | upToInterface agrees structs cut interfaces taken =>
      exact { distinct with structs, interfaces }

/-! ## What is kept -/

/-- What is merged later comes after what was merged before, and the package stays. -/
structure Extends (later earlier : Merge) : Prop where
  package : ∀ package ∈ earlier.package, later.package = some package
  structs : earlier.structs <+: later.structs
  interfaces : earlier.interfaces <+: later.interfaces
  namedTypes : earlier.namedTypes <+: later.namedTypes
  imports : earlier.imports <+: later.imports

namespace Extends

theorem refl (merge : Merge) : merge.Extends merge :=
  ⟨fun _ fixed => fixed, List.prefix_rfl, List.prefix_rfl, List.prefix_rfl, List.prefix_rfl⟩

theorem trans {last middle first : Merge} (later : last.Extends middle)
    (earlier : middle.Extends first) : last.Extends first where
  package := fun package fixed => later.package package (earlier.package package fixed)
  structs := earlier.structs.trans later.structs
  interfaces := earlier.interfaces.trans later.interfaces
  namedTypes := earlier.namedTypes.trans later.namedTypes
  imports := earlier.imports.trans later.imports

theorem lookups {later earlier : Merge} (kept : later.Extends earlier) :
    later.schema.KeepsLookups earlier.schema where
  structs := fun _ _ found => kept.structs.find?_eq_some found
  interfaces := fun _ _ found => kept.interfaces.find?_eq_some found
  namedTypes := fun _ _ found => kept.namedTypes.find?_eq_some found

end Extends

theorem Added.extends {merge : Merge} {file : SourceFile} {result : Merge × Option SchemaError}
    (added : merge.Added file result) : result.1.Extends merge := by
  cases added with
  | all agrees structs interfaces =>
      refine ⟨?_, List.prefix_append _ _, List.prefix_append _ _, prefix_appendMissing _ _ _,
        prefix_appendMissing _ _ _⟩
      exact fun package fixed => congrArg some (agrees package fixed).symm
  | otherPackage fixed differs => exact .refl merge
  | upToStruct agrees cut structs taken =>
      refine ⟨?_, List.prefix_append _ _, List.prefix_rfl, List.prefix_rfl, List.prefix_rfl⟩
      exact fun package fixed => congrArg some (agrees package fixed).symm
  | upToInterface agrees structs cut interfaces taken =>
      refine ⟨?_, List.prefix_append _ _, List.prefix_append _ _, List.prefix_rfl, List.prefix_rfl⟩
      exact fun package fixed => congrArg some (agrees package fixed).symm

/-! ## Adding files one after the other -/

/-- Adds the files in order, and goes on after one that is refused. -/
def addEach (merge : Merge) (files : List SourceFile) : Merge :=
  files.foldl (fun merge file => (merge.add file).1) merge

theorem addEach_append (merge : Merge) (files later : List SourceFile) :
    merge.addEach (files ++ later) = (merge.addEach files).addEach later :=
  List.foldl_append

theorem Distinct.addEach {merge : Merge} (distinct : merge.Distinct) (files : List SourceFile) :
    (merge.addEach files).Distinct := by
  induction files generalizing merge with
  | nil => exact distinct
  | cons file rest ih => exact ih ((added_add distinct file).distinct distinct)

theorem Distinct.addEach_extends {merge : Merge} (distinct : merge.Distinct)
    (files : List SourceFile) : (merge.addEach files).Extends merge := by
  induction files generalizing merge with
  | nil => exact .refl merge
  | cons file rest ih =>
      have added := added_add distinct file
      exact (ih (added.distinct distinct)).trans added.extends

/-- What a merge that refuses a file is left as: as it was when the file is of another
package, and otherwise with the declarations of the file before the one whose name is
taken. -/
def Refuses (merge : Merge) (file : SourceFile) (next : Merge) : SchemaError → Prop
  | .ambiguousPackage first second =>
      merge.package = some first ∧ file.package = second ∧ first ≠ second ∧ next = merge
  | .duplicateStruct name =>
      ∃ added item rest, file.structs = added ++ item :: rest ∧ item.name = name ∧
        name ∈ (merge.structs ++ added).map Struct.name ∧
        next = { merge with package := some file.package, structs := merge.structs ++ added }
  | .duplicateInterface name =>
      ∃ added item rest, file.interfaces = added ++ item :: rest ∧ item.name = name ∧
        name ∈ (merge.interfaces ++ added).map Interface.name ∧
        next = { merge with
          package := some file.package
          structs := merge.structs ++ file.structs
          interfaces := merge.interfaces ++ added }
  | .structNotFound _ | .interfaceNotFound _ => False

theorem Added.refuses {merge next : Merge} {file : SourceFile} {fault : SchemaError}
    (added : merge.Added file (next, some fault)) : merge.Refuses file next fault := by
  cases added with
  | otherPackage fixed differs => exact ⟨fixed, rfl, differs, rfl⟩
  | upToStruct agrees cut structs taken => exact ⟨_, _, _, cut, rfl, taken, rfl⟩
  | upToInterface agrees structs cut interfaces taken =>
      exact ⟨_, _, _, cut, rfl, taken, rfl⟩

theorem Added.package_eq {result : Merge × Option SchemaError} {file : SourceFile}
    (added : start.Added file result) : result.1.package = some file.package := by
  cases added with
  | otherPackage fixed differs => cases fixed
  | all | upToStruct | upToInterface => rfl

/-- Whatever files are added, and whichever of them are refused: no name and no import
is there twice, all that was merged stays in its place, so that lookups keep their
results, the first file fixes the package, and a refused file leaves what was merged
of it before its fault. -/
theorem addEach_invariants (files : List SourceFile) :
    (start.addEach files).Distinct ∧
    (∀ later, (start.addEach (files ++ later)).Extends (start.addEach files) ∧
      (start.addEach (files ++ later)).schema.KeepsLookups (start.addEach files).schema) ∧
    (∀ first rest, files = first :: rest →
      (start.addEach files).package = some first.package) ∧
    ∀ file next fault, (start.addEach files).add file = (next, some fault) →
      (start.addEach files).Refuses file next fault := by
  have distinct := distinct_start.addEach files
  refine ⟨distinct, ?_, ?_, ?_⟩
  · intro later
    have extended := distinct.addEach_extends later
    rw [addEach_append]
    exact ⟨extended, extended.lookups⟩
  · rintro first rest rfl
    have added := added_add distinct_start first
    have kept := (added.distinct distinct_start).addEach_extends rest
    exact kept.package _ added.package_eq
  · intro file next fault refused
    have added := added_add distinct file
    rw [refused] at added
    exact added.refuses

end Merge

namespace Users

def people : SourceFile := ⟨"user", [.plain "time"], [⟨"User", [id, age]⟩], [], []⟩

/-- A file that declares the users once more, after their contacts. -/
def contacts : SourceFile where
  package := "user"
  imports := [.plain "net/mail"]
  structs := [⟨"Contact", [phone]⟩, ⟨"User", []⟩, ⟨"Address", []⟩]
  interfaces := [⟨"UserRepository", []⟩]
  namedTypes := [⟨"Age", .named "int"⟩]

theorem contacts_refused :
    ∃ next, (Merge.start.addEach [people]).add contacts =
        (next, some (.duplicateStruct "User")) ∧
      (Merge.start.addEach [people]).Refuses contacts next (.duplicateStruct "User") ∧
      next.structs.map Struct.name = ["User", "Contact"] ∧
      (Merge.start.addEach [people, contacts]).package = some "user" := by
  have refused : (Merge.start.addEach [people]).add contacts =
      (⟨some "user", [.plain "time"], [⟨"User", [id, age]⟩, ⟨"Contact", [phone]⟩], [], []⟩,
        some (.duplicateStruct "User")) := rfl
  have left := (Merge.addEach_invariants [people]).2.2.2 contacts _ _ refused
  have fixed := (Merge.addEach_invariants [people, contacts]).2.2.1 people [contacts] rfl
  exact ⟨_, refused, left, rfl, fixed⟩

end Users

end NamedQuery
