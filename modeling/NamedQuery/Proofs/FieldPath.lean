import NamedQuery.MethodName.Clause
import NamedQuery.Proofs.Word

/-!
# Words that name a field

The words that lead to a field are the names of the fields on the way, put
together.
-/

namespace NamedQuery

/-- The text of a path in a method name: the names of its fields without
anything between them. -/
def FieldPath.spelling (path : FieldPath) : String := spell (path.fields.map Field.name)

theorem Struct.name_of_field? {struct : Struct} {name : String} {field : Field}
    (found : struct.field? name = some field) : field.name = name := by
  simpa using List.find?_some found

namespace Schema

/-- The start of the first name and the words after it spell the names of the
fields on the path. -/
theorem spelling_of_pathAfter {schema : Schema} {struct : Struct} {start : String}
    {rest : List String} {path : FieldPath}
    (found : schema.pathAfter struct start rest = some path) :
    path.spelling = start ++ spell rest := by
  induction rest generalizing struct start path with
  | nil =>
      rw [pathAfter, Option.map_eq_some_iff] at found
      obtain ⟨field, named, rfl⟩ := found
      simp [FieldPath.spelling, FieldPath.fields, spell, Struct.name_of_field? named]
  | cons word rest ih =>
      rw [pathAfter] at found
      split at found
      · next longer later =>
          cases found
          rw [ih later, spell, String.append_assoc]
      · split at found
        · cases found
        · next field named =>
            split at found
            · cases found
            · next inner held =>
                obtain ⟨below, reached, rfl⟩ := Option.map_eq_some_iff.mp found
                have tail := ih reached
                simp only [FieldPath.spelling, FieldPath.fields, List.map_cons, spell] at tail ⊢
                rw [tail, Struct.name_of_field? named]

theorem spelling_of_path? {schema : Schema} {struct : Struct} {run : List String}
    {path : FieldPath} (found : schema.path? struct run = some path) :
    path.spelling = spell run := by
  cases run with
  | nil => cases found
  | cons word rest => exact spelling_of_pathAfter found

end Schema

namespace Entity

theorem resolve_eq_ok_iff {entity : Entity} {run : List String} {path : FieldPath} :
    entity.resolve run = .ok path ↔ entity.schema.path? entity.struct run = some path := by
  unfold resolve
  cases entity.schema.path? entity.struct run <;> simp

/-- A field is named by at least one word. -/
theorem ne_nil_of_resolve {entity : Entity} {run : List String} {path : FieldPath}
    (found : entity.resolve run = .ok path) : run ≠ [] := by
  rintro rfl
  cases found

/-- The words that name a field spell the names on its path. -/
theorem spelling_of_resolve {entity : Entity} {run : List String} {path : FieldPath}
    (found : entity.resolve run = .ok path) : path.spelling = spell run :=
  Schema.spelling_of_path? (resolve_eq_ok_iff.mp found)

end Entity

/-! ## Users, for the examples -/

namespace Users

def id : Field := ⟨"ID", .named "string", some "bson:\"_id\""⟩

def age : Field := ⟨"Age", .named "int", some "bson:\"age\""⟩

def active : Field := ⟨"Active", .named "bool", some "bson:\"active\""⟩

def tags : Field := ⟨"Tags", .slice (.named "string"), some "bson:\"tags\""⟩

def contact : Field := ⟨"Contact", .pointer (.named "Contact"), some "bson:\"contact\""⟩

def phone : Field := ⟨"Phone", .named "string", some "bson:\"phone\""⟩

/-- Users, with their contact in a struct of its own. -/
def entity : Entity :=
  let user : Struct := ⟨"User", [id, age, active, tags, contact]⟩
  ⟨⟨"user", [], [user, ⟨"Contact", [phone]⟩], [], []⟩, user⟩

example : entity.resolve ["Contact", "Phone"] = .ok ⟨contact, [phone]⟩ := rfl

end Users

end NamedQuery
