import NamedQuery.Proofs.Nodes

/-!
# Places of names

A name stands in code at a place: under calls, as one of their arguments, under keys of
mappings, or as the range of a loop.  Every name of an expression or a statement stands at
some place.
-/

namespace NamedQuery.Code

/-- What a name may stand under. -/
inductive Step where
  | argument (function : String) (index : Nat)
  /-- The value of a key. -/
  | value (key : Expr)
  /-- The key of an entry. -/
  | key
  | field (name : String)
  /-- The range of a loop. -/
  | range

/-- A name occurs in an expression under the given steps, from the outside in. -/
inductive Expr.Occurs (name : String) : Expr → List Step → Prop where
  | ident : Occurs name (.ident name) []
  | argument {function : String} {args : List Expr} {arg : Expr} {index : Nat}
      {place : List Step} (passed : (arg, index) ∈ args.zipIdx) (inside : Occurs name arg place) :
      Occurs name (.call function args) (.argument function index :: place)
  | part {parts : List Expr} {part : Expr} {place : List Step} (member : part ∈ parts)
      (inside : Occurs name part place) : Occurs name (.chain parts) place
  | element {type : String} {elements : List Expr} {element : Expr} {place : List Step}
      (member : element ∈ elements) (inside : Occurs name element place) :
      Occurs name (.slice type elements) place
  | value {type : String} {entries : List (Expr × Expr)} {entry : Expr × Expr}
      {place : List Step} (member : entry ∈ entries) (inside : Occurs name entry.2 place) :
      Occurs name (.mapping type entries) (.value entry.1 :: place)
  | key {type : String} {entries : List (Expr × Expr)} {entry : Expr × Expr}
      {place : List Step} (member : entry ∈ entries) (inside : Occurs name entry.1 place) :
      Occurs name (.mapping type entries) (.key :: place)
  | field {type : String} {fields : List (String × Expr)} {field : String × Expr}
      {place : List Step} (member : field ∈ fields) (inside : Occurs name field.2 place) :
      Occurs name (.struct type fields) (.field field.1 :: place)

/-- A name occurs in a statement.  Statements that stand in each other are no steps. -/
inductive Stmt.Occurs (name : String) : Stmt → List Step → Prop where
  | defined {names : List String} {value : Expr} {place : List Step}
      (inside : value.Occurs name place) : Occurs name (.define names value) place
  | assigned {names : List String} {value : Expr} {place : List Step}
      (inside : value.Occurs name place) : Occurs name (.assign names value) place
  | givenBack {values : List Expr} {value : Expr} {place : List Step} (member : value ∈ values)
      (inside : value.Occurs name place) : Occurs name (.giveBack values) place
  | init {init : Stmt} {condition : Expr} {body : List Stmt} {place : List Step}
      (inside : Occurs name init place) : Occurs name (.when (some init) condition body) place
  | condition {init : Option Stmt} {condition : Expr} {body : List Stmt} {place : List Step}
      (inside : condition.Occurs name place) : Occurs name (.when init condition body) place
  | branch {init : Option Stmt} {condition : Expr} {body : List Stmt} {stmt : Stmt}
      {place : List Step} (member : stmt ∈ body) (inside : Occurs name stmt place) :
      Occurs name (.when init condition body) place
  | range {key value : String} {range : Expr} {body : List Stmt} {place : List Step}
      (inside : range.Occurs name place) :
      Occurs name (.forEach key value range body) (.range :: place)
  | loop {key value : String} {range : Expr} {body : List Stmt} {stmt : Stmt}
      {place : List Step} (member : stmt ∈ body) (inside : Occurs name stmt place) :
      Occurs name (.forEach key value range body) place

/-- A name occurs in the arguments of a call that are numbered from `start` on. -/
def Expr.OccursInArgs (name function : String) (start : Nat) (args : List Expr) (place : List Step) :
    Prop :=
  ∃ arg index inner, (arg, index) ∈ args.zipIdx start ∧ arg.Occurs name inner ∧
    place = .argument function index :: inner

/-- A name occurs in one of the statements. -/
def Stmt.OccursIn (name : String) (stmts : List Stmt) (place : List Step) : Prop :=
  ∃ stmt ∈ stmts, stmt.Occurs name place

variable {name : String} {place : List Step}

/-! ## Expressions -/

namespace Expr

@[simp]
theorem occurs_ident_iff {other : String} :
    (Expr.ident other).Occurs name place ↔ name = other ∧ place = [] := by
  constructor
  · rintro ⟨⟩
    exact ⟨rfl, rfl⟩
  · rintro ⟨rfl, rfl⟩
    exact .ident

@[simp]
theorem not_occurs_raw {text : String} : ¬ (Expr.raw text).Occurs name place := nofun

@[simp]
theorem not_occurs_string {text : String} : ¬ (Expr.string text).Occurs name place := nofun

@[simp]
theorem not_occursInArgs_nil {function : String} {start : Nat} :
    ¬ OccursInArgs name function start [] place := by
  rintro ⟨arg, index, inner, passed, -⟩
  cases passed

@[simp]
theorem occursInArgs_cons_iff {function : String} {start : Nat} {arg : Expr} {rest : List Expr} :
    OccursInArgs name function start (arg :: rest) place ↔
      (∃ inner, arg.Occurs name inner ∧ place = .argument function start :: inner) ∨
        OccursInArgs name function (start + 1) rest place := by
  simp only [OccursInArgs, List.zipIdx_cons, List.mem_cons, Prod.mk.injEq]
  constructor
  · rintro ⟨other, index, inner, ⟨rfl, rfl⟩ | later, inside, rfl⟩
    · exact .inl ⟨inner, inside, rfl⟩
    · exact .inr ⟨other, index, inner, later, inside, rfl⟩
  · rintro (⟨inner, inside, rfl⟩ | ⟨other, index, inner, later, inside, rfl⟩)
    · exact ⟨arg, start, inner, .inl ⟨rfl, rfl⟩, inside, rfl⟩
    · exact ⟨other, index, inner, .inr later, inside, rfl⟩

@[simp]
theorem occurs_call_iff {function : String} {args : List Expr} :
    (Expr.call function args).Occurs name place ↔ OccursInArgs name function 0 args place := by
  constructor
  · rintro (_ | ⟨passed, inside⟩)
    exact ⟨_, _, _, passed, inside, rfl⟩
  · rintro ⟨arg, index, inner, passed, inside, rfl⟩
    exact .argument passed inside

@[simp]
theorem occurs_chain_iff {parts : List Expr} :
    (Expr.chain parts).Occurs name place ↔ ∃ part ∈ parts, part.Occurs name place := by
  constructor
  · rintro (_ | _ | ⟨member, inside⟩)
    exact ⟨_, member, inside⟩
  · rintro ⟨part, member, inside⟩
    exact .part member inside

@[simp]
theorem occurs_slice_iff {type : String} {elements : List Expr} :
    (Expr.slice type elements).Occurs name place ↔
      ∃ element ∈ elements, element.Occurs name place := by
  constructor
  · rintro (_ | _ | _ | ⟨member, inside⟩)
    exact ⟨_, member, inside⟩
  · rintro ⟨element, member, inside⟩
    exact .element member inside

/-- In a mapping whose keys are texts, names stand in values. -/
theorem occurs_mapping_iff {type : String} {entries : List (Expr × Expr)}
    (texts : ∀ entry ∈ entries, ∃ text, entry.1 = .string text) :
    (Expr.mapping type entries).Occurs name place ↔
      ∃ entry ∈ entries, ∃ inner, entry.2.Occurs name inner ∧ place = .value entry.1 :: inner := by
  constructor
  · intro occurs
    cases occurs with
    | value member inside => exact ⟨_, member, _, inside, rfl⟩
    | key member inside =>
        obtain ⟨text, literal⟩ := texts _ member
        rw [literal] at inside
        exact absurd inside not_occurs_string
  · rintro ⟨entry, member, inner, inside, rfl⟩
    exact .value member inside

theorem Occurs.mem_names {expr : Expr} (occurs : expr.Occurs name place) :
    name ∈ expr.names := by
  induction occurs with
  | ident => simp
  | argument passed inside ih =>
      rw [names_call]
      exact List.mem_flatMap.mpr ⟨_, List.fst_mem_of_mem_zipIdx passed, ih⟩
  | part member inside ih =>
      rw [names_chain]
      exact List.mem_flatMap.mpr ⟨_, member, ih⟩
  | element member inside ih =>
      rw [names_slice]
      exact List.mem_flatMap.mpr ⟨_, member, ih⟩
  | value member inside ih =>
      rw [names_mapping]
      exact List.mem_flatMap.mpr ⟨_, member, List.mem_append_right _ ih⟩
  | key member inside ih =>
      rw [names_mapping]
      exact List.mem_flatMap.mpr ⟨_, member, List.mem_append_left _ ih⟩
  | field member inside ih =>
      rw [names_struct]
      exact List.mem_flatMap.mpr ⟨_, member, ih⟩

mutual

/-- Every name in an expression stands at some place. -/
theorem exists_occurs : ∀ expr : Expr, name ∈ expr.names → ∃ place, expr.Occurs name place
  | .ident other, member => by
      rw [names_ident, List.mem_singleton] at member
      exact ⟨[], occurs_ident_iff.mpr ⟨member, rfl⟩⟩
  | .raw text, member => by cases member
  | .call function args, member => by
      rw [names_call] at member
      obtain ⟨arg, passed, place, occurs⟩ := exists_occurs_of_all args member
      obtain ⟨index, found⟩ := List.mem_iff_getElem?.mp passed
      exact ⟨_, .argument (List.mem_zipIdx_iff_getElem?.mpr found) occurs⟩
  | .chain parts, member => by
      rw [names_chain] at member
      obtain ⟨part, listed, place, occurs⟩ := exists_occurs_of_all parts member
      exact ⟨place, .part listed occurs⟩
  | .slice type elements, member => by
      rw [names_slice] at member
      obtain ⟨element, listed, place, occurs⟩ := exists_occurs_of_all elements member
      exact ⟨place, .element listed occurs⟩
  | .mapping type entries, member => by
      rw [names_mapping] at member
      obtain ⟨entry, listed, place, inKey | inValue⟩ := exists_occurs_of_entries entries member
      · exact ⟨_, .key listed inKey⟩
      · exact ⟨_, .value listed inValue⟩
  | .struct type fields, member => by
      rw [names_struct] at member
      obtain ⟨field, listed, place, occurs⟩ := exists_occurs_of_fields fields member
      exact ⟨_, .field listed occurs⟩

theorem exists_occurs_of_all : ∀ exprs : List Expr, name ∈ exprs.flatMap names →
    ∃ expr ∈ exprs, ∃ place, expr.Occurs name place
  | [], member => by cases member
  | expr :: rest, member => by
      rw [List.flatMap_cons, List.mem_append] at member
      rcases member with first | later
      · exact ⟨expr, List.mem_cons_self, exists_occurs expr first⟩
      · obtain ⟨other, listed, occurs⟩ := exists_occurs_of_all rest later
        exact ⟨other, List.mem_cons_of_mem expr listed, occurs⟩

theorem exists_occurs_of_entries : ∀ entries : List (Expr × Expr),
    name ∈ (entries.flatMap fun entry => entry.1.names ++ entry.2.names) →
    ∃ entry ∈ entries, ∃ place, entry.1.Occurs name place ∨ entry.2.Occurs name place
  | [], member => by cases member
  | (key, value) :: rest, member => by
      rw [List.flatMap_cons, List.mem_append, List.mem_append] at member
      rcases member with (inKey | inValue) | later
      · obtain ⟨place, occurs⟩ := exists_occurs key inKey
        exact ⟨_, List.mem_cons_self, place, .inl occurs⟩
      · obtain ⟨place, occurs⟩ := exists_occurs value inValue
        exact ⟨_, List.mem_cons_self, place, .inr occurs⟩
      · obtain ⟨entry, listed, occurs⟩ := exists_occurs_of_entries rest later
        exact ⟨entry, List.mem_cons_of_mem _ listed, occurs⟩

theorem exists_occurs_of_fields : ∀ fields : List (String × Expr),
    name ∈ (fields.flatMap fun field => field.2.names) →
    ∃ field ∈ fields, ∃ place, field.2.Occurs name place
  | [], member => by cases member
  | (label, value) :: rest, member => by
      rw [List.flatMap_cons, List.mem_append] at member
      rcases member with first | later
      · exact ⟨_, List.mem_cons_self, exists_occurs value first⟩
      · obtain ⟨field, listed, occurs⟩ := exists_occurs_of_fields rest later
        exact ⟨field, List.mem_cons_of_mem _ listed, occurs⟩

end

end Expr

/-! ## Statements -/

namespace Stmt

@[simp]
theorem not_occurs_declare {other type : String} :
    ¬ (Stmt.declare other type).Occurs name place := nofun

@[simp]
theorem occurs_define_iff {names : List String} {value : Expr} :
    (Stmt.define names value).Occurs name place ↔ value.Occurs name place := by
  constructor
  · intro occurs
    cases occurs with
    | defined inside => exact inside
  · exact .defined

@[simp]
theorem occurs_assign_iff {names : List String} {value : Expr} :
    (Stmt.assign names value).Occurs name place ↔ value.Occurs name place := by
  constructor
  · intro occurs
    cases occurs with
    | assigned inside => exact inside
  · exact .assigned

@[simp]
theorem occurs_giveBack_iff {values : List Expr} :
    (Stmt.giveBack values).Occurs name place ↔ ∃ value ∈ values, value.Occurs name place := by
  constructor
  · intro occurs
    cases occurs with
    | givenBack member inside => exact ⟨_, member, inside⟩
  · rintro ⟨value, member, inside⟩
    exact .givenBack member inside

@[simp]
theorem occurs_when_iff {init : Option Stmt} {condition : Expr} {body : List Stmt} :
    (Stmt.when init condition body).Occurs name place ↔
      OccursIn name init.toList place ∨ condition.Occurs name place ∨ OccursIn name body place := by
  constructor
  · intro occurs
    cases occurs with
    | init inside => exact .inl ⟨_, List.mem_singleton_self _, inside⟩
    | condition inside => exact .inr (.inl inside)
    | branch member inside => exact .inr (.inr ⟨_, member, inside⟩)
  · rintro (⟨stmt, member, inside⟩ | inside | ⟨stmt, member, inside⟩)
    · cases init with
      | none => cases member
      | some init =>
          rw [Option.toList_some, List.mem_singleton] at member
          exact .init (member ▸ inside)
    · exact .condition inside
    · exact .branch member inside

@[simp]
theorem occurs_forEach_iff {key value : String} {range : Expr} {body : List Stmt} :
    (Stmt.forEach key value range body).Occurs name place ↔
      (∃ inner, range.Occurs name inner ∧ place = .range :: inner) ∨
        OccursIn name body place := by
  constructor
  · intro occurs
    cases occurs with
    | range inside => exact .inl ⟨_, inside, rfl⟩
    | loop member inside => exact .inr ⟨_, member, inside⟩
  · rintro (⟨inner, inside, rfl⟩ | ⟨stmt, member, inside⟩)
    · exact .range inside
    · exact .loop member inside

@[simp]
theorem not_occursIn_nil : ¬ OccursIn name [] place := nofun

@[simp]
theorem occursIn_cons_iff {stmt : Stmt} {rest : List Stmt} :
    OccursIn name (stmt :: rest) place ↔ stmt.Occurs name place ∨ OccursIn name rest place := by
  simp [OccursIn]

theorem occursIn_append_iff {first second : List Stmt} :
    OccursIn name (first ++ second) place ↔
      OccursIn name first place ∨ OccursIn name second place := by
  simp [OccursIn, or_and_right, exists_or]

mutual

theorem exists_occurs : ∀ stmt : Stmt, name ∈ stmt.names → ∃ place, stmt.Occurs name place
  | .declare other type, member => by cases member
  | .define names value, member =>
      (value.exists_occurs member).imp fun _ => .defined
  | .assign names value, member =>
      (value.exists_occurs member).imp fun _ => .assigned
  | .giveBack values, member => by
      rw [names_giveBack] at member
      obtain ⟨value, listed, place, occurs⟩ := Expr.exists_occurs_of_all values member
      exact ⟨place, .givenBack listed occurs⟩
  | .when none condition body, member => by
      rw [names_when_none, List.mem_append] at member
      rcases member with inCondition | inBody
      · exact (condition.exists_occurs inCondition).imp fun _ => .condition
      · obtain ⟨place, stmt, listed, occurs⟩ := exists_occursIn body inBody
        exact ⟨place, .branch listed occurs⟩
  | .when (some init) condition body, member => by
      rw [names_when_some, List.mem_append, List.mem_append] at member
      rcases member with (inInit | inCondition) | inBody
      · exact (exists_occurs init inInit).imp fun _ => .init
      · exact (condition.exists_occurs inCondition).imp fun _ => .condition
      · obtain ⟨place, stmt, listed, occurs⟩ := exists_occursIn body inBody
        exact ⟨place, .branch listed occurs⟩
  | .forEach key value range body, member => by
      rw [names_forEach, List.mem_append] at member
      rcases member with inRange | inBody
      · obtain ⟨place, occurs⟩ := range.exists_occurs inRange
        exact ⟨_, .range occurs⟩
      · obtain ⟨place, stmt, listed, occurs⟩ := exists_occursIn body inBody
        exact ⟨place, .loop listed occurs⟩

/-- Every name in statements stands at some place. -/
theorem exists_occursIn : ∀ stmts : List Stmt, name ∈ stmts.flatMap names →
    ∃ place, OccursIn name stmts place
  | [], member => by cases member
  | stmt :: rest, member => by
      rw [List.flatMap_cons, List.mem_append] at member
      rcases member with first | later
      · obtain ⟨place, occurs⟩ := exists_occurs stmt first
        exact ⟨place, occursIn_cons_iff.mpr (.inl occurs)⟩
      · obtain ⟨place, occurs⟩ := exists_occursIn rest later
        exact ⟨place, occursIn_cons_iff.mpr (.inr occurs)⟩

end

end Stmt

end NamedQuery.Code
