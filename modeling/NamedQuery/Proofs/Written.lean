import NamedQuery.Proofs.Check
import NamedQuery.Proofs.JsonText
import NamedQuery.Proofs.Merge
import NamedQuery.Schema.Reading

/-!
# Declarations written as JSON

A declaration is written as an object with all its members, in any order, or as an
array of them in the order of the declaration, and each declaration inside it may be
written in the other way.  A type has its kind as one more member, or as the first item
of the array.  What is written is read back, and so is the package that a text of files
describes: a list of files is never taken for a file, nor a file for a list of files.
-/

namespace NamedQuery

open JsonValue

/-! ## Forms -/

/-- A record with the values of its names, as an object or as an array. -/
inductive RecordForm (names : List String) (values : List JsonValue) : JsonValue → Prop where
  | object {members : List (String × JsonValue)} (order : members.Perm (names.zip values)) :
      RecordForm names values (.object members)
  | array : RecordForm names values (.array values)

/-- A type of a kind: a record of the kind and the values of its other members. -/
def TypeForm (kind : TypeKind) (values : List JsonValue) : JsonValue → Prop :=
  RecordForm ("kind" :: kind.members) (.string kind.name :: values)

/-- A text that may be missing. -/
def optionalJson : Option String → JsonValue
  | none => .null
  | some text => .string text

/-- The values that the list of items is written as. -/
def ListForm {α : Type} (written : α → JsonValue → Prop) (items : List α) (json : JsonValue) :
    Prop :=
  ∃ values, List.Forall₂ written items values ∧ json = .array values

namespace GoType

mutual

/-- A type is written as a value. -/
def WrittenAs : GoType → JsonValue → Prop
  | .named name, json => TypeForm .simple [.string name] json
  | .qualified package name, json => TypeForm .qualified [.string package, .string name] json
  | .pointer target, json => ∃ inner, target.WrittenAs inner ∧ TypeForm .pointer [inner] json
  | .slice element, json => ∃ inner, element.WrittenAs inner ∧ TypeForm .sequence [inner] json
  | .map key value, json =>
      ∃ keyJson valueJson, key.WrittenAs keyJson ∧ value.WrittenAs valueJson ∧
        TypeForm .mapping [keyJson, valueJson] json
  | .emptyInterface, json => TypeForm .emptyInterface [] json
  | .func params results, json =>
      ∃ paramsJson resultsJson, AllWrittenAs params paramsJson ∧
        AllWrittenAs results resultsJson ∧
        TypeForm .func [.array paramsJson, .array resultsJson] json

/-- Types are written as values, one by one. -/
def AllWrittenAs : List GoType → List JsonValue → Prop
  | [], values => values = []
  | type :: rest, values =>
      ∃ json others, type.WrittenAs json ∧ AllWrittenAs rest others ∧ values = json :: others

end

end GoType

def Import.WrittenAs (entry : Import) (json : JsonValue) : Prop :=
  RecordForm ["alias", "path"] [optionalJson entry.localName, .string entry.path] json

def Field.WrittenAs (field : Field) (json : JsonValue) : Prop :=
  ∃ type, field.type.WrittenAs type ∧
    RecordForm ["name", "type", "tag"] [.string field.name, type, optionalJson field.tag] json

def Struct.WrittenAs (struct : Struct) (json : JsonValue) : Prop :=
  ∃ fields, ListForm Field.WrittenAs struct.fields fields ∧
    RecordForm ["name", "fields"] [.string struct.name, fields] json

def Signature.WrittenAs (method : Signature) (json : JsonValue) : Prop :=
  ∃ params results, ListForm GoType.WrittenAs method.params params ∧
    ListForm GoType.WrittenAs method.results results ∧
    RecordForm ["name", "params", "returns"] [.string method.name, params, results] json

def Interface.WrittenAs (interface : Interface) (json : JsonValue) : Prop :=
  ∃ methods, ListForm Signature.WrittenAs interface.methods methods ∧
    RecordForm ["name", "methods"] [.string interface.name, methods] json

def NamedType.WrittenAs (declared : NamedType) (json : JsonValue) : Prop :=
  ∃ underlying, declared.underlying.WrittenAs underlying ∧
    RecordForm ["name", "underlying"] [.string declared.name, underlying] json

def SourceFile.WrittenAs (file : SourceFile) (json : JsonValue) : Prop :=
  ∃ imports structs interfaces namedTypes, ListForm Import.WrittenAs file.imports imports ∧
    ListForm Struct.WrittenAs file.structs structs ∧
    ListForm Interface.WrittenAs file.interfaces interfaces ∧
    ListForm NamedType.WrittenAs file.namedTypes namedTypes ∧
    RecordForm ["package", "imports", "structs", "interfaces", "named_types"]
      [.string file.package, imports, structs, interfaces, namedTypes] json

/-! ## Reading forms -/

theorem filter_name_eq {entries : List (String × JsonValue)}
    (distinct : (entries.map Prod.fst).Nodup) {name : String} {value : JsonValue}
    (listed : (name, value) ∈ entries) :
    (entries.filter fun entry => entry.1 = name) = [(name, value)] := by
  induction entries with
  | nil => cases listed
  | cons entry rest ih =>
      rw [List.map_cons, List.nodup_cons] at distinct
      obtain ⟨fresh, apart⟩ := distinct
      rcases List.mem_cons.mp listed with rfl | later
      · have none : (rest.filter fun entry => entry.1 = name) = [] := by
          rw [List.filter_eq_nil_iff]
          intro other member same
          rw [decide_eq_true_eq] at same
          exact fresh (List.mem_map.mpr ⟨other, member, same⟩)
        rw [List.filter_cons_of_pos (by simp), none]
      · have other : entry.1 ≠ name := by
          rintro rfl
          exact fresh (List.mem_map.mpr ⟨_, later, rfl⟩)
        rw [List.filter_cons_of_neg (by simpa using other), ih apart later]

/-- A member is found in an object whose names are all different, in any order. -/
theorem unique?_of_perm {members entries : List (String × JsonValue)}
    (order : members.Perm entries) (distinct : (entries.map Prod.fst).Nodup) {name : String}
    {value : JsonValue} (listed : (name, value) ∈ entries) :
    unique? members name = some (some value) := by
  have single := order.filter fun entry => entry.1 = name
  rw [filter_name_eq distinct listed, List.perm_singleton] at single
  rw [unique?, single]

theorem positional?_eq {names : List String} {values : List JsonValue}
    (count : names.length = values.length) :
    positional? names values = some (values.map some) := by
  induction names generalizing values with
  | nil =>
      cases values with
      | nil => rfl
      | cons value rest => cases count
  | cons name rest ih =>
      cases values with
      | nil => cases count
      | cons value others =>
          rw [positional?, ih (Nat.succ.inj count)]
          rfl

namespace RecordForm

variable {names : List String} {values : List JsonValue} {json : JsonValue}
  (form : RecordForm names values json)

include form

/-- The members of a record are found under their names. -/
theorem record?_eq (distinct : names.Nodup) (count : names.length = values.length) :
    record? names json = some (values.map some) := by
  cases form with
  | array => exact positional?_eq count
  | object order =>
      rw [← List.map_fst_zip (Nat.le_of_eq count)] at distinct
      rw [record?, mapM_eq_some_iff, List.forall₂_map_right_iff, List.forall₂_iff_zip]
      exact ⟨count, fun listed => unique?_of_perm order distinct listed⟩

/-- The values of a record are less nested than the record. -/
theorem depth_lt (count : names.length = values.length) {value : JsonValue}
    (listed : value ∈ values) : value.depth < json.depth := by
  cases form with
  | array =>
      rw [depth, Nat.add_comm]
      exact Nat.lt_succ_of_le (JsonText.depth_le_depthOfAll listed)
  | @object members order =>
      rw [← List.map_snd_zip (Nat.le_of_eq count.symm)] at listed
      obtain ⟨entry, member, rfl⟩ := List.mem_map.mp listed
      rw [depth, Nat.add_comm]
      exact Nat.lt_succ_of_le (JsonText.depth_le_depthOfMembers (order.mem_iff.mpr member))

end RecordForm

/-! ## Types -/

theorem TypeKind.ofJson?_name (kind : TypeKind) (form : TypeKind.Form) :
    TypeKind.ofJson? form (.string kind.name) = some kind := by
  cases kind <;> cases form <;> rfl

/-- The members of a type are found beside its kind. -/
theorem TypeForm.split {kind : TypeKind} {values : List JsonValue} {json : JsonValue}
    (written : TypeForm kind values json) (count : kind.members.length = values.length)
    (form : TypeKind.Form) :
    ∃ inner, TypeKind.split? form json = some (kind, inner) ∧
      record? kind.members inner = some (values.map some) := by
  have distinct : ("kind" :: kind.members).Nodup := by cases kind <;> decide
  have all := written.record?_eq distinct (congrArg Nat.succ count)
  cases written with
  | array =>
      refine ⟨.array values, ?_, positional?_eq count⟩
      rw [TypeKind.split?, TypeKind.ofJson?_name]
      rfl
  | @object members order =>
      rw [record?, mapM_eq_some_iff, List.map_cons, List.forall₂_cons] at all
      refine ⟨.object members, ?_, ?_⟩
      · rw [TypeKind.split?, all.1]
        simp only [TypeKind.ofJson?_name, Option.map_some]
      · rw [record?, mapM_eq_some_iff]
        exact all.2

namespace GoType

/-- One step of reading a type: with its kind and members found, the types inside it have
one level less. -/
theorem exists_step {kind : TypeKind} {values : List JsonValue} {json : JsonValue}
    (written : TypeForm kind values json) (count : kind.members.length = values.length)
    {depth : Nat} (shallow : json.depth ≤ depth) (form : TypeKind.Form) :
    ∃ below inner, depth = below + 1 ∧ (∀ value ∈ values, value.depth ≤ below) ∧
      TypeKind.split? form json = some (kind, inner) ∧
      record? kind.members inner = some (values.map some) := by
  obtain ⟨inner, split, members⟩ := written.split count form
  have first := written.depth_lt (congrArg Nat.succ count) List.mem_cons_self
  cases depth with
  | zero => omega
  | succ below =>
      refine ⟨below, inner, rfl, ?_, split, members⟩
      intro value listed
      have inside := written.depth_lt (congrArg Nat.succ count) (List.mem_cons_of_mem _ listed)
      omega

theorem depthOfAll_le {values : List JsonValue} {depth : Nat}
    (shallow : (JsonValue.array values).depth ≤ depth) : depthOfAll values ≤ depth := by
  rw [JsonValue.depth] at shallow
  omega

mutual

/-- A type that is written is read back. -/
theorem readWithin_of_writtenAs : ∀ (type : GoType) {json : JsonValue} {depth : Nat}
    (form : TypeKind.Form), type.WrittenAs json → json.depth ≤ depth →
    readWithin form depth json = some type
  | .named name, json, depth, form, written, shallow => by
      rw [WrittenAs] at written
      obtain ⟨below, inner, rfl, -, split, members⟩ := exists_step written rfl shallow form
      simp only [readWithin, split, members]
      rfl
  | .qualified package name, json, depth, form, written, shallow => by
      rw [WrittenAs] at written
      obtain ⟨below, inner, rfl, -, split, members⟩ := exists_step written rfl shallow form
      simp only [readWithin, split, members]
      rfl
  | .pointer target, json, depth, form, written, shallow => by
      rw [WrittenAs] at written
      obtain ⟨targetJson, here, written⟩ := written
      obtain ⟨below, inner, rfl, inside, split, members⟩ := exists_step written rfl shallow form
      have read := readWithin_of_writtenAs target .nameOrNumber here (inside _ (by simp))
      simp only [readWithin, split, members, List.map_cons, List.map_nil, read, Option.map_some]
  | .slice element, json, depth, form, written, shallow => by
      rw [WrittenAs] at written
      obtain ⟨elementJson, here, written⟩ := written
      obtain ⟨below, inner, rfl, inside, split, members⟩ := exists_step written rfl shallow form
      have read := readWithin_of_writtenAs element .nameOrNumber here (inside _ (by simp))
      simp only [readWithin, split, members, List.map_cons, List.map_nil, read, Option.map_some]
  | .map key value, json, depth, form, written, shallow => by
      rw [WrittenAs] at written
      obtain ⟨keyJson, valueJson, keyHere, valueHere, written⟩ := written
      obtain ⟨below, inner, rfl, inside, split, members⟩ := exists_step written rfl shallow form
      have readKey := readWithin_of_writtenAs key .nameOrNumber keyHere (inside _ (by simp))
      have readValue := readWithin_of_writtenAs value .nameOrNumber valueHere (inside _ (by simp))
      simp only [readWithin, split, members, List.map_cons, List.map_nil, readKey, readValue]
  | .emptyInterface, json, depth, form, written, shallow => by
      rw [WrittenAs] at written
      obtain ⟨below, inner, rfl, -, split, members⟩ := exists_step written rfl shallow form
      simp only [readWithin, split, members, List.map_nil]
  | .func params results, json, depth, form, written, shallow => by
      rw [WrittenAs] at written
      obtain ⟨paramsJson, resultsJson, paramsHere, resultsHere, written⟩ := written
      obtain ⟨below, inner, rfl, inside, split, members⟩ := exists_step written rfl shallow form
      have readParams := mapM_readWithin_of_allWrittenAs params paramsHere
        (depthOfAll_le (inside _ (by simp)))
      have readResults := mapM_readWithin_of_allWrittenAs results resultsHere
        (depthOfAll_le (inside _ (by simp)))
      simp only [readWithin, split, members, List.map_cons, List.map_nil, list?, readParams,
        readResults]

theorem mapM_readWithin_of_allWrittenAs : ∀ (types : List GoType) {values : List JsonValue}
    {depth : Nat}, AllWrittenAs types values → depthOfAll values ≤ depth →
    values.mapM (readWithin .nameOrNumber depth) = some types
  | [], values, depth, written, shallow => by
      rw [AllWrittenAs] at written
      rw [written]
      rfl
  | type :: rest, values, depth, written, shallow => by
      rw [AllWrittenAs] at written
      obtain ⟨json, others, here, later, rfl⟩ := written
      rw [depthOfAll, Nat.max_le] at shallow
      have read := readWithin_of_writtenAs type .nameOrNumber here shallow.1
      have readRest := mapM_readWithin_of_allWrittenAs rest later shallow.2
      rw [List.mapM_cons, read, readRest]
      rfl

end

theorem ofJson?_of_writtenAs (form : TypeKind.Form) {type : GoType} {json : JsonValue}
    (written : type.WrittenAs json) : GoType.ofJson? form json = some type :=
  readWithin_of_writtenAs type form written (Nat.le_refl json.depth)

end GoType

/-! ## Declarations -/

theorem optionalText?_optionalJson (text : Option String) :
    optionalText? (some (optionalJson text)) = some text := by
  cases text <;> rfl

/-- A list is read when each of its items is. -/
theorem ListForm.list?_eq {α : Type} {written : α → JsonValue → Prop}
    {read : JsonValue → Option α} {items : List α} {json : JsonValue}
    (listed : ListForm written items json)
    (each : ∀ item value, written item value → read value = some item) :
    list? read (some json) = some items := by
  obtain ⟨values, all, rfl⟩ := listed
  rw [list?, mapM_eq_some_iff]
  exact all.flip.imp fun value item here => each item value here

theorem Import.ofJson?_of_writtenAs {entry : Import} {json : JsonValue}
    (written : entry.WrittenAs json) : Import.ofJson? json = some entry := by
  have members := RecordForm.record?_eq written (by decide) rfl
  simp only [Import.ofJson?, members, List.map_cons, List.map_nil, optionalText?_optionalJson]
  rfl

section Declared

variable (form : TypeKind.Form)

theorem Field.ofJson?_of_writtenAs {field : Field} {json : JsonValue}
    (written : field.WrittenAs json) : Field.ofJson? form json = some field := by
  obtain ⟨type, here, written⟩ := written
  have members := written.record?_eq (by decide) rfl
  simp only [Field.ofJson?, members, List.map_cons, List.map_nil, optionalText?_optionalJson,
    GoType.ofJson?_of_writtenAs form here]
  rfl

theorem Struct.ofJson?_of_writtenAs {struct : Struct} {json : JsonValue}
    (written : struct.WrittenAs json) : Struct.ofJson? form json = some struct := by
  obtain ⟨fields, listed, written⟩ := written
  have members := written.record?_eq (by decide) rfl
  have read := listed.list?_eq fun _ _ here => Field.ofJson?_of_writtenAs form here
  simp only [Struct.ofJson?, members, List.map_cons, List.map_nil, read]
  rfl

theorem Signature.ofJson?_of_writtenAs {method : Signature} {json : JsonValue}
    (written : method.WrittenAs json) : Signature.ofJson? form json = some method := by
  obtain ⟨params, results, listedParams, listedResults, written⟩ := written
  have members := written.record?_eq (by decide) rfl
  have readParams := listedParams.list?_eq fun _ _ here => GoType.ofJson?_of_writtenAs form here
  have readResults := listedResults.list?_eq fun _ _ here => GoType.ofJson?_of_writtenAs form here
  simp only [Signature.ofJson?, members, List.map_cons, List.map_nil, readParams, readResults]
  rfl

theorem Interface.ofJson?_of_writtenAs {interface : Interface} {json : JsonValue}
    (written : interface.WrittenAs json) : Interface.ofJson? form json = some interface := by
  obtain ⟨methods, listed, written⟩ := written
  have members := written.record?_eq (by decide) rfl
  have read := listed.list?_eq fun _ _ here => Signature.ofJson?_of_writtenAs form here
  simp only [Interface.ofJson?, members, List.map_cons, List.map_nil, read]
  rfl

theorem NamedType.ofJson?_of_writtenAs {declared : NamedType} {json : JsonValue}
    (written : declared.WrittenAs json) : NamedType.ofJson? form json = some declared := by
  obtain ⟨underlying, here, written⟩ := written
  have members := written.record?_eq (by decide) rfl
  simp only [NamedType.ofJson?, members, List.map_cons, List.map_nil,
    GoType.ofJson?_of_writtenAs form here]
  rfl

theorem SourceFile.ofJson?_of_writtenAs {file : SourceFile} {json : JsonValue}
    (written : file.WrittenAs json) : SourceFile.ofJson? form json = some file := by
  obtain ⟨imports, structs, interfaces, namedTypes, listedImports, listedStructs,
    listedInterfaces, listedTypes, written⟩ := written
  have members := written.record?_eq (by decide) rfl
  have readImports := listedImports.list?_eq fun _ _ here => Import.ofJson?_of_writtenAs here
  have readStructs := listedStructs.list?_eq fun _ _ here => Struct.ofJson?_of_writtenAs form here
  have readInterfaces :=
    listedInterfaces.list?_eq fun _ _ here => Interface.ofJson?_of_writtenAs form here
  have readTypes := listedTypes.list?_eq fun _ _ here => NamedType.ofJson?_of_writtenAs form here
  simp only [SourceFile.ofJson?, members, List.map_cons, List.map_nil, readImports, readStructs,
    readInterfaces, readTypes]
  rfl

end Declared

/-! ## Files and lists of files -/

namespace SourceFile

/-- A file is written as an object or as an array, and never as a text. -/
theorem text?_of_writtenAs {file : SourceFile} {json : JsonValue} (written : file.WrittenAs json) :
    text? json = none := by
  obtain ⟨_, _, _, _, -, -, -, -, form⟩ := written
  cases form <;> rfl

/-- A list of files is not taken for a file: a file as an array starts with the text of
its package. -/
theorem ofJson?_array_eq_none {files : List SourceFile} {items : List JsonValue}
    (written : List.Forall₂ WrittenAs files items) (form : TypeKind.Form) :
    SourceFile.ofJson? form (.array items) = none := by
  cases written with
  | nil => rfl
  | @cons file first _ rest here _ =>
      rw [SourceFile.ofJson?, record?, positional?]
      split
      · next package imports structs interfaces namedTypes found =>
          obtain ⟨others, -, same⟩ := Option.map_eq_some_iff.mp found
          cases same
          rw [text?_of_writtenAs here]
          rfl
      · rfl

theorem listOfJson?_of_forall₂ {files : List SourceFile} {items : List JsonValue}
    (written : List.Forall₂ WrittenAs files items) :
    listOfJson? (.array items) = some files := by
  rw [listOfJson?, ofJson?_array_eq_none written]
  exact mapM_eq_some_iff.mpr
    (written.flip.imp fun _ _ here => SourceFile.ofJson?_of_writtenAs _ here)

theorem listOfJson?_of_writtenAs {file : SourceFile} {json : JsonValue}
    (written : file.WrittenAs json) : listOfJson? json = some [file] := by
  simp only [listOfJson?, SourceFile.ofJson?_of_writtenAs _ written]

end SourceFile

namespace Schema

/-- A text is loaded as the files that it spells. -/
theorem ofText_of_spells {text : String} {json : JsonValue} {files : List SourceFile}
    (spells : JsonText.Spells text json) (shallow : json.depth ≤ 127)
    (listed : SourceFile.listOfJson? json = some files) :
    ofText text = (ofFiles files).mapError .conflict := by
  obtain ⟨after, found, done⟩ := JsonText.first?_of_spells spells shallow
  simp only [ofText, found, listed, done, if_true]

/-- Loading undoes writing.  Whatever form each declaration is written in, and whichever
text of the value is chosen, a text of a list of files is loaded as their package, and a
text of a single file as the package of that file.  The list is not taken for a file,
nor the file for a list. -/
theorem ofText_of_writtenAs :
    (∀ (files : List SourceFile) (items : List JsonValue) (text : String),
      List.Forall₂ SourceFile.WrittenAs files items →
      JsonText.Spells text (.array items) → (JsonValue.array items).depth ≤ 127 →
      (∀ form, SourceFile.ofJson? form (.array items) = none) ∧
        ofText text = (ofFiles files).mapError .conflict) ∧
    (∀ (file : SourceFile) (json : JsonValue) (text : String), file.WrittenAs json →
      JsonText.Spells text json → json.depth ≤ 127 →
      SourceFile.listOfJson? json = some [file] ∧
        ofText text = (ofFiles [file]).mapError .conflict) := by
  refine ⟨?_, ?_⟩
  · intro files items text written spells shallow
    exact ⟨SourceFile.ofJson?_array_eq_none written,
      ofText_of_spells spells shallow (SourceFile.listOfJson?_of_forall₂ written)⟩
  · intro file json text written spells shallow
    have listed := SourceFile.listOfJson?_of_writtenAs written
    exact ⟨listed, ofText_of_spells spells shallow listed⟩

end Schema

namespace Users

/-- The file of users as an array, with one of its fields as an object. -/
def peopleJson : JsonValue :=
  .array [.string "user", .array [.array [.null, .string "time"]],
    .array [.array [.string "User", .array [
      .array [.string "ID", .array [.string "simple", .string "string"], .string "bson:\"_id\""],
      .object [("type", .object [("name", .string "int"), ("kind", .string "simple")]),
        ("name", .string "Age"), ("tag", .string "bson:\"age\"")]]]],
    .array [], .array []]

def settings : SourceFile :=
  ⟨"user", [], [], [], [⟨"Settings", .map (.named "string") .emptyInterface⟩]⟩

/-- The file of settings as an object, with its type as an array. -/
def settingsJson : JsonValue :=
  .object [("package", .string "user"), ("imports", .array []), ("structs", .array []),
    ("interfaces", .array []), ("named_types", .array [.object [("underlying", .array [
      .string "mapping", .array [.string "simple", .string "string"],
      .object [("kind", .string "empty_interface")]]), ("name", .string "Settings")]])]

theorem people_writtenAs : people.WrittenAs peopleJson := by
  have idWritten : id.WrittenAs _ := ⟨_, .array, .array⟩
  have ageWritten : age.WrittenAs _ :=
    ⟨_, .object (.swap _ _ _), .object (.swap _ _ _)⟩
  have userWritten : Struct.WrittenAs ⟨"User", [id, age]⟩ _ :=
    ⟨_, ⟨_, .cons idWritten (.cons ageWritten .nil), rfl⟩, .array⟩
  have timeWritten : (Import.plain "time").WrittenAs _ := .array
  exact ⟨_, _, _, _, ⟨_, .cons timeWritten .nil, rfl⟩, ⟨_, .cons userWritten .nil, rfl⟩,
    ⟨_, .nil, rfl⟩, ⟨_, .nil, rfl⟩, .array⟩

theorem settings_writtenAs : settings.WrittenAs settingsJson := by
  have mapWritten : (GoType.map (.named "string") .emptyInterface).WrittenAs _ :=
    ⟨_, _, .array, .object (.refl _), .array⟩
  have typeWritten : NamedType.WrittenAs ⟨"Settings", _⟩ _ :=
    ⟨_, mapWritten, .object (.swap _ _ _)⟩
  exact ⟨_, _, _, _, ⟨_, .nil, rfl⟩, ⟨_, .nil, rfl⟩, ⟨_, .nil, rfl⟩,
    ⟨_, .cons typeWritten .nil, rfl⟩, .object (.refl _)⟩

theorem people_and_settings_loaded :
    (∃ text, JsonText.compact? (.array [peopleJson, settingsJson]) = some text ∧
      Schema.ofText (String.ofList text) =
        .ok ⟨"user", people.imports, people.structs, [], settings.namedTypes⟩) ∧
    ∃ text, JsonText.compact? peopleJson = some text ∧
      Schema.ofText (String.ofList text) =
        .ok ⟨"user", people.imports, people.structs, [], []⟩ := by
  refine ⟨⟨_, rfl, ?_⟩, _, rfl, ?_⟩
  · have files := List.Forall₂.cons people_writtenAs (.cons settings_writtenAs .nil)
    have loaded := Schema.ofText_of_writtenAs.1 _ _ _ files (JsonText.spells_of_compact? rfl)
      (by decide)
    exact loaded.2
  · have loaded := Schema.ofText_of_writtenAs.2 people peopleJson _ people_writtenAs
      (JsonText.spells_of_compact? rfl) (by decide)
    exact loaded.2

end Users

end NamedQuery
