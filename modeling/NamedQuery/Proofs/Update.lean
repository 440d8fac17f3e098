import NamedQuery.Proofs.Body

/-!
# Paths that an update writes

An update document has a map for each operator, from the paths that the operator
applies to.  Each operator has one map.  Over all maps together the paths are those of
the assigned fields, so that a path stands twice exactly when it is assigned twice.

The maps are a stable partition of the assignments: they come in the order in which the
operators appear, and each has the paths of its own assignments in their order.
-/

namespace NamedQuery

open Code

namespace Mongo

/-! ## Reading an update document -/

/-- A key with its value, when the key is a string literal. -/
def readPair? (entry : Expr × Expr) : Option (String × Expr) :=
  (readText? entry.1).map fun key => (key, entry.2)

/-- The keys and values of a map, with repetitions. -/
def readMap? : Expr → Option (List (String × Expr))
  | .mapping type entries => if type = "bson.M" then entries.mapM readPair? else none
  | _ => none

/-- The operators of an update document, each with the paths that it applies to and
their values. -/
def readUpdate? (document : Expr) : Option (List (String × List (String × Expr))) := do
  let operators ← readMap? document
  operators.mapM fun operator =>
    (readMap? operator.2).map fun assigned => (operator.1, assigned)

theorem mapM_eq_filterMap {α β : Type} {read : α → Option β} {items : List α}
    (readable : ∀ item ∈ items, ∃ value, read item = some value) :
    items.mapM read = some (items.filterMap read) := by
  induction items with
  | nil => rfl
  | cons item rest ih =>
      obtain ⟨⟨value, first⟩, others⟩ := List.forall_mem_cons.mp readable
      rw [List.mapM_cons, first, ih others, List.filterMap_cons_some first]
      rfl

theorem mapM_eq_map {α β : Type} {read : α → Option β} {view : α → β} {items : List α}
    (readable : ∀ item ∈ items, read item = some (view item)) :
    items.mapM read = some (items.map view) := by
  rw [mapM_eq_some_iff, List.forall₂_map_right_iff, List.forall₂_same]
  exact readable

/-! ## Operators -/

theorem operatorKey_injective {operator other : UpdateOperator}
    (same : operatorKey operator = operatorKey other) : operator = other := by
  cases operator <;> cases other <;> first
    | rfl
    | exact absurd same (by decide)

/-- Each operator has one group. -/
theorem nodup_operatorKeys (entries : List (UpdateOperator × (Expr × Expr))) :
    ((grouped entries).map fun group => operatorKey group.operator).Nodup := by
  have distinct : ((grouped entries).map Group.operator).Nodup := by
    rw [operators_grouped]
    exact nodup_appendMissing_id _
  have keys := distinct.map fun _ _ same => operatorKey_injective same
  rwa [List.map_map] at keys

/-! ## Paths -/

theorem bsonNames_eq_filterMap {fields : List Field} {names : List String}
    (named : bsonNames fields = .ok names) : names = fields.filterMap Field.bsonName? := by
  induction fields generalizing names with
  | nil =>
      cases named
      rfl
  | cons field rest ih =>
      rw [bsonNames] at named
      split at named
      · cases named
      · next name found =>
          split at named
          · next others later =>
              cases named
              rw [List.filterMap_cons_some found, ih later]
          · cases named

theorem storedPath_of_bsonPath {field : FieldPath} {path : String}
    (located : bsonPath field = .ok path) : path = field.storedPath := by
  obtain ⟨names, named, rfl⟩ := map_eq_ok_iff.mp located
  rw [FieldPath.storedPath, bsonNames_eq_filterMap named]

/-- The entry of an assignment whose path is known. -/
def assignedEntry (assignment : Assignment) : Expr × Expr :=
  (.string assignment.field.storedPath, arg assignment.slot)

theorem readPair?_assignedEntry (assignment : Assignment) :
    readPair? (assignedEntry assignment) =
      some (assignment.field.storedPath, arg assignment.slot) := by
  simp [readPair?, assignedEntry]

theorem entries_of_mapM {assignments : List Assignment}
    {entries : List (UpdateOperator × (Expr × Expr))}
    (built : assignments.mapM assignmentEntry = .ok entries) :
    entries = assignments.map fun assignment =>
      (assignment.operator, assignedEntry assignment) := by
  refine eq_map_of_mapM built ?_
  intro assignment entry made
  obtain ⟨path, located, rfl⟩ := map_eq_ok_iff.mp made
  rw [storedPath_of_bsonPath located]
  rfl

/-- The document of groups is read as the groups, when the keys of their entries are
literals. -/
theorem readUpdate?_groups {groups : List Group}
    (readable : ∀ entry ∈ groups.flatMap Group.entries, ∃ value, readPair? entry = some value) :
    readUpdate? (.mapping mapType (groups.map Group.entry)) =
      some (groups.map fun group =>
        (operatorKey group.operator, group.entries.filterMap readPair?)) := by
  have keyed : ∀ group ∈ groups, readPair? group.entry =
      some (operatorKey group.operator, .mapping mapType group.entries) := by
    intro group _
    simp [readPair?, Group.entry]
  have inner : ∀ group ∈ groups, readMap? (.mapping mapType group.entries) =
      some (group.entries.filterMap readPair?) := by
    intro group member
    apply mapM_eq_filterMap
    intro entry inside
    exact readable entry (List.mem_flatMap.mpr ⟨group, member, inside⟩)
  have outer : readMap? (.mapping mapType (groups.map Group.entry)) =
      some (groups.map fun group =>
        (operatorKey group.operator, .mapping mapType group.entries)) := by
    rw [← mapM_eq_map keyed, ← Function.comp_def, ← List.mapM_map]
    rfl
  rw [readUpdate?, outer]
  change List.mapM _ (groups.map _) = _
  rw [List.mapM_map]
  apply mapM_eq_map
  intro group member
  simp [inner group member]

/-- In an update document each operator has one map, and a path stands once in all maps
together exactly when no two assignments have it. -/
theorem update_paths_nodup_iff {assignments : List Assignment} {document : Expr}
    (built : updateDocument (.fields assignments) = .ok document) :
    ∃ operators, readUpdate? document = some operators ∧
      (operators.map Prod.fst).Nodup ∧
      (((operators.flatMap Prod.snd).map Prod.fst).Nodup ↔
        (assignments.map fun assignment => assignment.field.storedPath).Nodup) := by
  obtain ⟨entries, each, rfl⟩ := map_eq_ok_iff.mp built
  -- Grouping by operator puts the entries in another order and loses none of them.
  have kept : ((grouped entries).flatMap Group.entries).Perm (assignments.map assignedEntry) := by
    have order := entries_grouped entries
    rw [entries_of_mapM each, List.map_map] at order
    rwa [entries_of_mapM each]
  have readable : ∀ entry ∈ (grouped entries).flatMap Group.entries,
      ∃ value, readPair? entry = some value := by
    intro entry member
    obtain ⟨assignment, -, rfl⟩ := List.mem_map.mp (kept.mem_iff.mp member)
    exact ⟨_, readPair?_assignedEntry assignment⟩
  refine ⟨_, readUpdate?_groups readable, ?_, ?_⟩
  · rw [List.map_map]
    exact nodup_operatorKeys entries
  · have paths : ((assignments.map assignedEntry).filterMap readPair?).map Prod.fst =
        assignments.map fun assignment => assignment.field.storedPath := by
      simp [List.filterMap_map, Function.comp_def, readPair?_assignedEntry]
    rw [List.flatMap_map, ← List.filterMap_flatMap, ← paths]
    exact ((kept.filterMap readPair?).map Prod.fst).nodup_iff

/-! ## The document -/

theorem mapM_assignmentEntry {assignments : List Assignment}
    (named : ∀ assignment ∈ assignments, ∀ field ∈ assignment.field.fields,
      field.bsonName?.isSome) :
    assignments.mapM assignmentEntry = .ok (assignments.map fun assignment =>
      (assignment.operator, assignedEntry assignment)) := by
  rw [mapM_eq_ok_iff, List.forall₂_map_right_iff, List.forall₂_same]
  intro assignment member
  rw [assignmentEntry, bsonPath_of_named (named assignment member)]
  rfl

/-- The entry of an operator in the document of assignments. -/
theorem entry_groupOf (assignments : List Assignment) (operator : UpdateOperator) :
    (groupOf (assignments.map fun assignment =>
        (assignment.operator, assignedEntry assignment)) operator).entry =
      (.string (operatorKey operator), .mapping "bson.M"
        ((assignments.filter fun assignment => assignment.operator = operator).map
          assignedEntry)) := by
  simp [Group.entry, groupOf, mapType, List.filter_map, Function.comp_def]

/-- The document of fields that all have stored names has an entry for each operator, in
the order of appearance.  The entry has the paths and parameters of the fields with the
operator, in the order of the assignments, and every assignment is in one of them. -/
theorem updateDocument_stable_partition {assignments : List Assignment}
    (named : ∀ assignment ∈ assignments, ∀ field ∈ assignment.field.fields,
      field.bsonName?.isSome) :
    ∃ operators, Appearances (assignments.map Assignment.operator) operators ∧
      (operators.map operatorKey).Nodup ∧
      updateDocument (.fields assignments) =
        .ok (.mapping "bson.M" (operators.map fun operator =>
          (.string (operatorKey operator), .mapping "bson.M"
            ((assignments.filter fun assignment => assignment.operator = operator).map
              fun assignment =>
                (.string assignment.field.storedPath, .ident (argName assignment.slot)))))) ∧
      (operators.flatMap fun operator =>
        assignments.filter fun assignment => assignment.operator = operator).Perm assignments := by
  have order := appearances_appendMissing (assignments.map Assignment.operator)
  refine ⟨_, order, ?_, ?_, ?_⟩
  · exact order.nodup.map fun _ _ same => operatorKey_injective same
  · rw [updateDocument, mapM_assignmentEntry named, Except.map, grouped_eq, List.map_map,
      List.map_map]
    exact congrArg (fun groups => Except.ok (Expr.mapping "bson.M" groups))
      (List.map_congr_left fun operator _ => entry_groupOf assignments operator)
  · refine perm_flatMap_filter Assignment.operator order.nodup ?_
    intro assignment member
    exact (order.mem_iff _).mpr (List.mem_map_of_mem member)

end Mongo

namespace Users

theorem update_paths_distinct :
    ∃ document operators,
      Mongo.updateDocument (.fields [⟨⟨age, []⟩, .increment, 1⟩, ⟨⟨tags, []⟩, .push, 2⟩]) =
        .ok document ∧
      Mongo.readUpdate? document = some operators ∧
      (operators.map Prod.fst).Nodup ∧ ((operators.flatMap Prod.snd).map Prod.fst).Nodup := by
  have built : ∃ document, Mongo.updateDocument
      (.fields [⟨⟨age, []⟩, .increment, 1⟩, ⟨⟨tags, []⟩, .push, 2⟩]) = .ok document := ⟨_, rfl⟩
  obtain ⟨document, made⟩ := built
  obtain ⟨operators, read, once, paths⟩ := Mongo.update_paths_nodup_iff made
  exact ⟨document, operators, made, read, once, paths.mpr (by decide)⟩

/-- A method that names a field twice. -/
def setAgeTwice : Signature :=
  ⟨"UpdateAgeAndAgeByActive", [.context, .named "int", .named "int", .named "bool"],
    [.named "bool", .error]⟩

def setAgeTwiceChange : Change := .fields [⟨⟨age, []⟩, .set, 1⟩, ⟨⟨age, []⟩, .set, 2⟩]

/-- The method has a plan, and its document has the path of the field twice in the map
of one operator. -/
theorem age_assigned_twice :
    entity.plan setAgeTwice = .ok
        ⟨setAgeTwice, .update setAgeTwiceChange .one ⟨none, [⟨⟨active, []⟩, .equal, 3⟩]⟩⟩ ∧
      ∃ document operators, Mongo.updateDocument setAgeTwiceChange = .ok document ∧
        Mongo.readUpdate? document = some operators ∧
        ¬ ((operators.flatMap Prod.snd).map Prod.fst).Nodup := by
  have planned : entity.plan setAgeTwice = .ok
      ⟨setAgeTwice, .update setAgeTwiceChange .one ⟨none, [⟨⟨active, []⟩, .equal, 3⟩]⟩⟩ := by
    have cut : words setAgeTwice.name = ["Update", "Age", "And", "Age", "By", "Active"] := by
      decide +kernel
    rw [Entity.plan, cut]
    rfl
  have read : Mongo.readUpdate? (.mapping "bson.M" [(.string "$set", .mapping "bson.M"
      [(.string "age", Mongo.arg 1), (.string "age", Mongo.arg 2)])]) =
        some [("$set", [("age", Mongo.arg 1), ("age", Mongo.arg 2)])] := by
    simp [Mongo.readUpdate?, Mongo.readMap?, Mongo.readPair?]
  exact ⟨planned, _, _, rfl, read, by decide⟩

/-- Two fields are set, with a field between them that is appended to. -/
def setPushSet : List Assignment :=
  [⟨⟨age, []⟩, .set, 1⟩, ⟨⟨tags, []⟩, .push, 2⟩, ⟨⟨contact, [phone]⟩, .set, 3⟩]

theorem setPushSet_partition :
    (∀ assignment ∈ setPushSet, ∀ field ∈ assignment.field.fields, field.bsonName?.isSome) ∧
      Mongo.updateDocument (.fields setPushSet) = .ok (.mapping "bson.M"
        [(.string "$set", .mapping "bson.M"
            [(.string "age", .ident "arg1"), (.string "contact.phone", .ident "arg3")]),
          (.string "$push", .mapping "bson.M" [(.string "tags", .ident "arg2")])]) ∧
      ([⟨⟨age, []⟩, .set, 1⟩, ⟨⟨contact, [phone]⟩, .set, 3⟩, ⟨⟨tags, []⟩, .push, 2⟩] :
        List Assignment).Perm setPushSet := by
  have named : ∀ assignment ∈ setPushSet, ∀ field ∈ assignment.field.fields,
      field.bsonName?.isSome := by decide
  obtain ⟨operators, order, -, built, kept⟩ := Mongo.updateDocument_stable_partition named
  -- only one list of the two operators is in the order of appearance
  have both : operators = [.set, .push] := by
    refine order.unique ⟨?_, by decide⟩
    intro operator
    cases operator <;> decide
  subst both
  exact ⟨named, built, kept⟩

end Users

end NamedQuery
