import Mathlib.Data.List.Nodup
import Mathlib.Data.List.Perm.Subperm
import Mathlib.Data.Nat.Find
import Mathlib.Logic.Relation
import NamedQuery.Schema.Basic

/-!
# Chains of declarations

A declared name stands for the type of its first declaration, which may be a declared
name again.  A chain of such names that ends has no name twice, so it has no more steps
than there are declarations, and the type behind a type is the end of its chain however
long it is.  A chain that does not end stays among the declared names.
-/

namespace NamedQuery

theorem GoType.stripPointers_stripPointers :
    ∀ type : GoType, type.stripPointers.stripPointers = type.stripPointers
  | .pointer target => target.stripPointers_stripPointers
  | .named _ | .qualified .. | .slice _ | .map .. | .emptyInterface | .func .. => rfl

namespace Schema

variable {schema : Schema} {type last : GoType}

/-! ## Chains -/

/-- A name stands for the type of its first declaration, without the pointers of that
type. -/
inductive StandsFor (schema : Schema) : GoType → GoType → Prop where
  | declared {before after : List NamedType} {entry : NamedType}
      (listed : schema.namedTypes = before ++ entry :: after)
      (first : ∀ earlier ∈ before, earlier.name ≠ entry.name) :
      StandsFor schema (.named entry.name) entry.underlying.stripPointers

/-- The chain of a type starts at the type without its pointers. -/
def Reaches (schema : Schema) (type reached : GoType) : Prop :=
  Relation.ReflTransGen schema.StandsFor type.stripPointers reached

/-- The chain of a type ends at a type that stands for no other. -/
structure EndsAt (schema : Schema) (type last : GoType) : Prop where
  reached : schema.Reaches type last
  settled : ∀ next, ¬ schema.StandsFor last next

theorem declared?_eq_some_iff {next : GoType} :
    schema.declared? type = some next ↔ schema.StandsFor type next := by
  unfold declared? namedType?
  rw [Option.map_eq_some_iff]
  constructor
  · rintro ⟨entry, found, rfl⟩
    obtain ⟨name, plain, listed⟩ := Option.bind_eq_some_iff.mp found
    obtain ⟨same, before, after, parts, earlier⟩ := List.find?_eq_some_iff_append.mp listed
    rw [decide_eq_true_eq] at same
    subst same
    cases type with
    | named name =>
        cases plain
        exact .declared parts (by simpa using earlier)
    | _ => cases plain
  · intro stands
    cases stands with
    | @declared before after entry listed first =>
        refine ⟨entry, Option.bind_eq_some_iff.mpr ⟨entry.name, rfl, ?_⟩, rfl⟩
        exact List.find?_eq_some_iff_append.mpr
          ⟨decide_eq_true rfl, before, after, listed, by simpa using first⟩

theorem declared?_eq_none_iff :
    schema.declared? type = none ↔ ∀ next, ¬ schema.StandsFor type next := by
  simp only [← declared?_eq_some_iff, Option.eq_none_iff_forall_ne_some, ne_eq]

/-- A type that stands for another one is a declared name. -/
theorem StandsFor.exists_entry {next : GoType} (stands : schema.StandsFor type next) :
    ∃ entry ∈ schema.namedTypes, type = .named entry.name := by
  cases stands with
  | declared listed first =>
      exact ⟨_, by rw [listed]; exact List.mem_append_right _ List.mem_cons_self, rfl⟩

/-! ## Steps of a chain -/

/-- A type that stands for no other is kept. -/
theorem unfoldNames_of_settled (settled : schema.declared? type = none) (count : Nat) :
    schema.unfoldNames count type = type := by
  cases count with
  | zero => rfl
  | succ count => rw [unfoldNames, settled]

theorem unfoldNames_add (count more : Nat) (type : GoType) :
    schema.unfoldNames (count + more) type =
      schema.unfoldNames more (schema.unfoldNames count type) := by
  induction count generalizing type with
  | zero => rw [Nat.zero_add, unfoldNames]
  | succ count ih =>
      rw [Nat.succ_add, unfoldNames, unfoldNames]
      cases found : schema.declared? type with
      | none => exact (unfoldNames_of_settled found more).symm
      | some next => exact ih next

theorem reaches_unfoldNames (count : Nat) (type : GoType) :
    Relation.ReflTransGen schema.StandsFor type (schema.unfoldNames count type) := by
  induction count generalizing type with
  | zero => exact .refl
  | succ count ih =>
      rw [unfoldNames]
      cases found : schema.declared? type with
      | none => exact .refl
      | some next => exact .head (declared?_eq_some_iff.mp found) (ih next)

theorem exists_unfoldNames_of_reaches {reached : GoType}
    (chain : Relation.ReflTransGen schema.StandsFor type reached) :
    ∃ count, schema.unfoldNames count type = reached := by
  induction chain using Relation.ReflTransGen.head_induction_on with
  | refl => exact ⟨0, rfl⟩
  | head step rest ih =>
      obtain ⟨count, same⟩ := ih
      refine ⟨count + 1, ?_⟩
      rw [unfoldNames, declared?_eq_some_iff.mpr step]
      exact same

/-! ## Chains that end -/

/-- A chain that first stops after some steps meets no type twice before. -/
theorem nodup_unfoldNames {steps : Nat}
    (stops : schema.declared? (schema.unfoldNames steps type) = none)
    (first : ∀ count < steps, schema.declared? (schema.unfoldNames count type) ≠ none) :
    ((List.range steps).map fun count => schema.unfoldNames count type).Nodup := by
  -- a chain that came back to a type would stop earlier by as many steps as the way back
  have different {early late : Nat} (order : early < late) (within : late < steps) :
      schema.unfoldNames early type ≠ schema.unfoldNames late type := by
    intro same
    apply first (early + (steps - late)) (by omega)
    rw [unfoldNames_add, same, ← unfoldNames_add, Nat.add_sub_cancel' (Nat.le_of_lt within)]
    exact stops
  refine List.Nodup.map_on ?_ List.nodup_range
  intro left leftMember right rightMember same
  rw [List.mem_range] at leftMember rightMember
  rcases Nat.lt_trichotomy left right with less | equal | greater
  · exact absurd same (different less rightMember)
  · exact equal
  · exact absurd same.symm (different greater leftMember)

/-- A chain that ends has no more steps than there are declarations. -/
theorem settled_within (ends : ∃ steps, schema.declared? (schema.unfoldNames steps type) = none) :
    ∃ steps ≤ schema.namedTypes.length,
      schema.declared? (schema.unfoldNames steps type) = none := by
  refine ⟨Nat.find ends, ?_, Nat.find_spec ends⟩
  have distinct := nodup_unfoldNames (Nat.find_spec ends) fun count less => Nat.find_min ends less
  have listed : (List.range (Nat.find ends)).map (fun count => schema.unfoldNames count type) ⊆
      schema.namedTypes.map fun entry => .named entry.name := by
    intro met member
    obtain ⟨count, within, rfl⟩ := List.mem_map.mp member
    obtain ⟨next, stands⟩ :=
      Option.ne_none_iff_exists'.mp (Nat.find_min ends (List.mem_range.mp within))
    obtain ⟨entry, declared, same⟩ := (declared?_eq_some_iff.mp stands).exists_entry
    exact List.mem_map.mpr ⟨entry, declared, same.symm⟩
  simpa using (distinct.subperm listed).length_le

theorem EndsAt.underlying_eq (ends : schema.EndsAt type last) : schema.underlying type = last := by
  have settled := declared?_eq_none_iff.mpr ends.settled
  obtain ⟨count, reached⟩ := exists_unfoldNames_of_reaches ends.reached
  obtain ⟨steps, bound, stops⟩ := settled_within ⟨count, by rw [reached]; exact settled⟩
  -- both numbers of steps lead to a settled type, so that further steps change nothing
  have beyond {less more : Nat} (order : less ≤ more)
      (stops : schema.declared? (schema.unfoldNames less type.stripPointers) = none) :
      schema.unfoldNames more type.stripPointers =
        schema.unfoldNames less type.stripPointers := by
    rw [← Nat.add_sub_cancel' order, unfoldNames_add, unfoldNames_of_settled stops]
  rw [← reached] at settled
  rw [underlying, beyond (Nat.le_succ_of_le bound) stops, ← reached]
  rcases Nat.le_total steps count with less | more
  · exact (beyond less stops).symm
  · exact beyond more settled

/-- The types of a chain have no pointers. -/
theorem Reaches.stripPointers_eq {reached : GoType} (chain : schema.Reaches type reached) :
    reached.stripPointers = reached := by
  cases chain with
  | refl => exact type.stripPointers_stripPointers
  | tail earlier step =>
      cases step with
      | declared listed first => exact GoType.stripPointers_stripPointers _

theorem EndsAt.underlying_last (ends : schema.EndsAt type last) :
    schema.underlying last = last := by
  rw [underlying, ends.reached.stripPointers_eq,
    unfoldNames_of_settled (declared?_eq_none_iff.mpr ends.settled)]

theorem isNumeric_iff :
    schema.isNumeric type = true ↔
      ∃ name ∈ GoType.numericNames, schema.underlying type = .named name := by
  unfold isNumeric
  cases schema.underlying type <;> simp [GoType.plainName?]

theorem isBoolean_iff :
    schema.isBoolean type = true ↔ schema.underlying type = .named "bool" := by
  unfold isBoolean
  cases schema.underlying type <;> simp [GoType.plainName?]

theorem elementType?_eq_some_iff {element : GoType} :
    schema.elementType? type = some element ↔ schema.underlying type = .slice element := by
  unfold elementType?
  cases schema.underlying type <;> simp

/-- The type behind a type whose chain ends is the end of the chain, and is behind itself;
whether the type is a number, a boolean or a slice is what its end is.  Where the chain
does not end, the type behind it is a declared name. -/
theorem underlying_of_chain (schema : Schema) (type : GoType) :
    (∀ last, schema.EndsAt type last →
      schema.underlying type = last ∧
      schema.underlying (schema.underlying type) = schema.underlying type ∧
      (schema.isNumeric type = true ↔ ∃ name ∈ GoType.numericNames, last = .named name) ∧
      (schema.isBoolean type = true ↔ last = .named "bool") ∧
      ∀ element, schema.elementType? type = some element ↔ last = .slice element) ∧
    ((¬ ∃ last, schema.EndsAt type last) →
      ∃ entry ∈ schema.namedTypes, schema.underlying type = .named entry.name) := by
  constructor
  · intro last ends
    rw [isNumeric_iff, isBoolean_iff, ends.underlying_eq]
    refine ⟨rfl, ends.underlying_last, .rfl, .rfl, fun element => ?_⟩
    rw [elementType?_eq_some_iff, ends.underlying_eq]
  · intro endless
    have chain : schema.Reaches type (schema.underlying type) := reaches_unfoldNames _ _
    obtain ⟨next, stands⟩ : ∃ next, schema.StandsFor (schema.underlying type) next := by
      by_contra settled
      exact endless ⟨_, chain, not_exists.mp settled⟩
    exact stands.exists_entry

end Schema

namespace Ratings

/-- Declarations with a chain of two steps, a repeated name and two names that stand for
each other. -/
def schema : Schema :=
  { Schema.empty with
    namedTypes := [⟨"Score", .pointer (.named "Points")⟩, ⟨"Points", .named "float64"⟩,
      ⟨"Points", .named "Score"⟩, ⟨"Left", .named "Right"⟩, ⟨"Right", .pointer (.named "Left")⟩] }

theorem score_endsAt : schema.EndsAt (.pointer (.named "Score")) (.named "float64") := by
  refine ⟨?_, Schema.declared?_eq_none_iff.mp rfl⟩
  have first : schema.StandsFor (.named "Score") (.named "Points") :=
    Schema.declared?_eq_some_iff.mp rfl
  have second : schema.StandsFor (.named "Points") (.named "float64") :=
    Schema.declared?_eq_some_iff.mp rfl
  exact .head first (.single second)

theorem left_or_right {reached : GoType} (chain : schema.Reaches (.named "Left") reached) :
    reached = .named "Left" ∨ reached = .named "Right" := by
  induction chain with
  | refl => exact .inl rfl
  | tail earlier step ih =>
      have found := Schema.declared?_eq_some_iff.mpr step
      rcases ih with rfl | rfl
      · exact .inr (Option.some.inj found).symm
      · exact .inl (Option.some.inj found).symm

theorem left_endless : ¬ ∃ last, schema.EndsAt (.named "Left") last := by
  rintro ⟨last, chain, settled⟩
  rcases left_or_right chain with rfl | rfl
  · exact settled (.named "Right") (Schema.declared?_eq_some_iff.mp rfl)
  · exact settled (.named "Left") (Schema.declared?_eq_some_iff.mp rfl)

theorem score_and_left :
    schema.EndsAt (.pointer (.named "Score")) (.named "float64") ∧
      schema.underlying (.pointer (.named "Score")) = .named "float64" ∧
      schema.isNumeric (.pointer (.named "Score")) = true ∧
      (¬ ∃ last, schema.EndsAt (.named "Left") last) ∧
      ∃ entry ∈ schema.namedTypes, schema.underlying (.named "Left") = .named entry.name := by
  obtain ⟨same, -, numeric, -⟩ := (Schema.underlying_of_chain schema _).1 _ score_endsAt
  refine ⟨score_endsAt, same, numeric.mpr ⟨"float64", by decide, rfl⟩, left_endless, ?_⟩
  exact (Schema.underlying_of_chain schema _).2 left_endless

end Ratings

end NamedQuery
