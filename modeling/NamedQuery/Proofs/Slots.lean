import NamedQuery.Proofs.Operation

/-!
# Slots of an operation

The positions of the parameters that an operation refers to.  An operation that is
read from a name refers to the positions from 1 on, each once and in order: first
those of the values it stores, then those of its predicates.
-/

namespace NamedQuery

/-- The positions of the parameters that a predicate takes. -/
def Predicate.slots (predicate : Predicate) : List Nat :=
  List.range' predicate.slot predicate.arity

/-- The positions of the parameters that a change takes. -/
def Change.slots : Change → List Nat
  | .model slot => [slot]
  | .fields assignments => assignments.map Assignment.slot

namespace Operation

def predicates (operation : Operation) : List Predicate :=
  match operation.query? with
  | none => []
  | some query => query.predicates

/-- The positions of the values that the operation stores.  An insertion always
takes the first parameter after the context. -/
def valueSlots : Operation → List Nat
  | .insert _ => [1]
  | .update change .. => change.slots
  | .find .. | .delete .. | .count .. => []

/-- All positions that the operation refers to, in the order of the name. -/
def slots (operation : Operation) : List Nat :=
  operation.valueSlots ++ operation.predicates.flatMap Predicate.slots

end Operation

namespace Entity

/-! ## Predicates -/

/-- Numbered predicates take consecutive positions. -/
theorem NumberedFrom.slots_eq {slot : Nat} {predicates : List Predicate}
    (numbered : NumberedFrom slot predicates) :
    predicates.flatMap Predicate.slots =
      List.range' slot (predicates.flatMap Predicate.slots).length := by
  induction predicates generalizing slot with
  | nil => rfl
  | cons predicate rest ih =>
      obtain ⟨placed, later⟩ := numbered
      rw [List.flatMap_cons, ih later, Predicate.slots, placed, List.length_append,
        List.length_range', List.length_range', List.range'_append_1]

/-- Each numbered predicate starts at the first position that the ones before it
leave free. -/
theorem NumberedFrom.slot_eq {slot : Nat} {before after : List Predicate}
    {predicate : Predicate} (numbered : NumberedFrom slot (before ++ predicate :: after)) :
    predicate.slot = slot + (before.flatMap Predicate.slots).length := by
  induction before generalizing slot with
  | nil => exact numbered.1
  | cons first rest ih =>
      rw [ih numbered.2, List.flatMap_cons, List.length_append, Predicate.slots,
        List.length_range', Nat.add_assoc]

theorem numbered_of_readQuery {entity : Entity} {slot : Nat} {words : List String}
    {query : Query} (read : entity.readQuery slot words = .ok query) :
    NumberedFrom slot query.predicates := by
  rcases readQuery_eq_ok_iff.mp read with ⟨-, rfl⟩ | ⟨rest, -, predicates⟩
  · trivial
  · obtain ⟨connective, groups, -, -, -, runs, -⟩ := readPredicates_eq_ok_iff.mp predicates
    exact runs.numbered

/-! ## Changes -/

theorem slots_of_readChange {entity : Entity} {params : List GoType} {slot : Nat}
    {words : List String} {change : Change}
    (read : entity.readChange params slot words = .ok change) :
    change.slots = List.range' slot change.arity := by
  rcases readChange_eq_ok_iff.mp read with ⟨-, -, rfl⟩ | ⟨-, assignments, rfl, runs⟩
  · rfl
  · exact runs.numbered

/-! ## Operations -/

/-- An operation whose values take the positions from 1 on, and whose predicates
those after them. -/
structure Numbered (operation : Operation) : Prop where
  values : operation.valueSlots = List.range' firstSlot operation.valueSlots.length
  predicates : NumberedFrom (firstSlot + operation.valueSlots.length) operation.predicates

theorem Reading.numbered {entity : Entity} {params results : List GoType}
    {words : List String} {operation : Operation}
    (reading : entity.Reading params results words operation) : Numbered operation := by
  cases reading with
  | insert fits agrees => exact ⟨rfl, trivial⟩
  | find fits single limited queried sorted => exact ⟨rfl, numbered_of_readQuery queried⟩
  | update fits changed queried =>
      have taken := slots_of_readChange changed
      refine ⟨?_, ?_⟩
      · rw [Operation.valueSlots, taken, List.length_range']
      · rw [Operation.valueSlots, taken, List.length_range']
        exact numbered_of_readQuery queried
  | delete fits queried => exact ⟨rfl, numbered_of_readQuery queried⟩
  | count fits queried => exact ⟨rfl, numbered_of_readQuery queried⟩

theorem Numbered.slots_eq {operation : Operation} (numbered : Numbered operation) :
    operation.slots = List.range' 1 operation.slots.length := by
  have last := numbered.predicates.slots_eq
  rw [Operation.slots, last, numbered.values, List.length_append, List.length_range',
    List.length_range']
  exact List.range'_append_1

theorem Numbered.slot_eq {operation : Operation} (numbered : Numbered operation)
    {before after : List Predicate} {predicate : Predicate}
    (split : operation.predicates = before ++ predicate :: after) :
    predicate.slot =
      1 + (operation.valueSlots ++ before.flatMap Predicate.slots).length := by
  have positions := numbered.predicates
  rw [split] at positions
  rw [positions.slot_eq, List.length_append, Nat.add_assoc]
  rfl

end Entity

end NamedQuery
