import NamedQuery.Code.Stmt

/-!
# Nodes of generated code

The expressions that occur in an expression or a statement, however deep, the
names and the calls among them, and the returns of statements with the conditions
that they stand under.
-/

namespace NamedQuery.Code

/-! ## Expressions -/

namespace Expr

mutual

/-- The expression and all expressions inside it. -/
def nodes : Expr → List Expr
  | .ident name => [.ident name]
  | .raw text => [.raw text]
  | .call function args => .call function args :: nodesOfAll args
  | .chain parts => .chain parts :: nodesOfAll parts
  | .slice type elements => .slice type elements :: nodesOfAll elements
  | .mapping type entries => .mapping type entries :: nodesOfEntries entries
  | .struct type fields => .struct type fields :: nodesOfFields fields

def nodesOfAll : List Expr → List Expr
  | [] => []
  | expr :: rest => expr.nodes ++ nodesOfAll rest

def nodesOfEntries : List (Expr × Expr) → List Expr
  | [] => []
  | (key, value) :: rest => key.nodes ++ value.nodes ++ nodesOfEntries rest

def nodesOfFields : List (String × Expr) → List Expr
  | [] => []
  | (_, value) :: rest => value.nodes ++ nodesOfFields rest

end

theorem nodesOfAll_eq_flatMap (exprs : List Expr) : nodesOfAll exprs = exprs.flatMap nodes := by
  induction exprs with
  | nil => rfl
  | cons expr rest ih => rw [nodesOfAll, ih, List.flatMap_cons]

theorem nodesOfEntries_eq_flatMap (entries : List (Expr × Expr)) :
    nodesOfEntries entries = entries.flatMap fun entry => entry.1.nodes ++ entry.2.nodes := by
  induction entries with
  | nil => rfl
  | cons entry rest ih => rw [nodesOfEntries, ih, List.flatMap_cons]

theorem nodesOfFields_eq_flatMap (fields : List (String × Expr)) :
    nodesOfFields fields = fields.flatMap fun field => field.2.nodes := by
  induction fields with
  | nil => rfl
  | cons field rest ih => rw [nodesOfFields, ih, List.flatMap_cons]

section Picked

variable {β : Type} (pick : Expr → Option β)

/-- What is picked from an expression and the expressions inside it, from left to
right. -/
def picked (expr : Expr) : List β := expr.nodes.filterMap pick

theorem filterMap_nodesOfAll (exprs : List Expr) :
    (nodesOfAll exprs).filterMap pick = exprs.flatMap (picked pick) := by
  rw [nodesOfAll_eq_flatMap, List.filterMap_flatMap]
  rfl

theorem filterMap_cons_eq (expr : Expr) (inside : List Expr) :
    (expr :: inside).filterMap pick = (pick expr).toList ++ inside.filterMap pick := by
  cases found : pick expr <;> simp [found]

theorem picked_call (function : String) (args : List Expr) :
    (Expr.call function args).picked pick =
      (pick (.call function args)).toList ++ args.flatMap (picked pick) := by
  rw [picked, nodes, filterMap_cons_eq, filterMap_nodesOfAll]

theorem picked_chain (parts : List Expr) :
    (Expr.chain parts).picked pick =
      (pick (.chain parts)).toList ++ parts.flatMap (picked pick) := by
  rw [picked, nodes, filterMap_cons_eq, filterMap_nodesOfAll]

theorem picked_slice (type : String) (elements : List Expr) :
    (Expr.slice type elements).picked pick =
      (pick (.slice type elements)).toList ++ elements.flatMap (picked pick) := by
  rw [picked, nodes, filterMap_cons_eq, filterMap_nodesOfAll]

theorem picked_mapping (type : String) (entries : List (Expr × Expr)) :
    (Expr.mapping type entries).picked pick =
      (pick (.mapping type entries)).toList ++
        entries.flatMap fun entry => entry.1.picked pick ++ entry.2.picked pick := by
  simp only [picked, nodes, filterMap_cons_eq, nodesOfEntries_eq_flatMap,
    ← List.filterMap_append, ← List.filterMap_flatMap]

theorem picked_struct (type : String) (fields : List (String × Expr)) :
    (Expr.struct type fields).picked pick =
      (pick (.struct type fields)).toList ++ fields.flatMap fun field => field.2.picked pick := by
  simp only [picked, nodes, filterMap_cons_eq, nodesOfFields_eq_flatMap, ← List.filterMap_flatMap]

end Picked

/-- The name that an expression consists of. -/
def name? : Expr → Option String
  | .ident name => some name
  | _ => none

/-- The names in an expression, from left to right and with repetitions. -/
def names (expr : Expr) : List String := expr.nodes.filterMap name?

@[simp]
theorem names_ident (name : String) : (Expr.ident name).names = [name] := rfl

@[simp]
theorem names_raw (text : String) : (Expr.raw text).names = [] := rfl

@[simp]
theorem names_string (text : String) : (Expr.string text).names = [] := rfl

@[simp]
theorem names_call (function : String) (args : List Expr) :
    (Expr.call function args).names = args.flatMap names := picked_call name? function args

@[simp]
theorem names_chain (parts : List Expr) : (Expr.chain parts).names = parts.flatMap names :=
  picked_chain name? parts

@[simp]
theorem names_slice (type : String) (elements : List Expr) :
    (Expr.slice type elements).names = elements.flatMap names := picked_slice name? type elements

@[simp]
theorem names_mapping (type : String) (entries : List (Expr × Expr)) :
    (Expr.mapping type entries).names =
      entries.flatMap fun entry => entry.1.names ++ entry.2.names :=
  picked_mapping name? type entries

@[simp]
theorem names_struct (type : String) (fields : List (String × Expr)) :
    (Expr.struct type fields).names = fields.flatMap fun field => field.2.names :=
  picked_struct name? type fields

/-- The function and the arguments of a call. -/
def call? : Expr → Option (String × List Expr)
  | .call function args => some (function, args)
  | _ => none

/-- The calls in an expression, from left to right. -/
def calls (expr : Expr) : List (String × List Expr) := expr.picked call?

@[simp]
theorem calls_ident (name : String) : (Expr.ident name).calls = [] := rfl

@[simp]
theorem calls_raw (text : String) : (Expr.raw text).calls = [] := rfl

@[simp]
theorem calls_string (text : String) : (Expr.string text).calls = [] := rfl

@[simp]
theorem calls_call (function : String) (args : List Expr) :
    (Expr.call function args).calls = (function, args) :: args.flatMap calls :=
  picked_call call? function args

@[simp]
theorem calls_chain (parts : List Expr) : (Expr.chain parts).calls = parts.flatMap calls :=
  picked_chain call? parts

@[simp]
theorem calls_slice (type : String) (elements : List Expr) :
    (Expr.slice type elements).calls = elements.flatMap calls := picked_slice call? type elements

@[simp]
theorem calls_mapping (type : String) (entries : List (Expr × Expr)) :
    (Expr.mapping type entries).calls =
      entries.flatMap fun entry => entry.1.calls ++ entry.2.calls :=
  picked_mapping call? type entries

@[simp]
theorem calls_struct (type : String) (fields : List (String × Expr)) :
    (Expr.struct type fields).calls = fields.flatMap fun field => field.2.calls :=
  picked_struct call? type fields

end Expr

/-! ## Statements -/

/-- The values of a return, and the conditions of the branches around it. -/
structure Return where
  conditions : List Expr
  values : List Expr

namespace Stmt

mutual

/-- The expressions in a statement and in the statements inside it. -/
def nodes : Stmt → List Expr
  | .declare .. => []
  | .define _ value => value.nodes
  | .assign _ value => value.nodes
  | .giveBack values => Expr.nodesOfAll values
  | .when none condition body => condition.nodes ++ nodesOfAll body
  | .when (some init) condition body => init.nodes ++ condition.nodes ++ nodesOfAll body
  | .forEach _ _ range body => range.nodes ++ nodesOfAll body

def nodesOfAll : List Stmt → List Expr
  | [] => []
  | stmt :: rest => stmt.nodes ++ nodesOfAll rest

end

theorem nodesOfAll_eq_flatMap (stmts : List Stmt) : nodesOfAll stmts = stmts.flatMap nodes := by
  induction stmts with
  | nil => rfl
  | cons stmt rest ih => rw [nodesOfAll, ih, List.flatMap_cons]

section Picked

variable {β : Type} (pick : Expr → Option β)

/-- What is picked from the expressions in a statement, from left to right. -/
def picked (stmt : Stmt) : List β := stmt.nodes.filterMap pick

theorem filterMap_nodesOfAll (stmts : List Stmt) :
    (nodesOfAll stmts).filterMap pick = stmts.flatMap (picked pick) := by
  rw [nodesOfAll_eq_flatMap, List.filterMap_flatMap]
  rfl

theorem picked_giveBack (values : List Expr) :
    (Stmt.giveBack values).picked pick = values.flatMap (Expr.picked pick) :=
  Expr.filterMap_nodesOfAll pick values

theorem picked_when_none (condition : Expr) (body : List Stmt) :
    (Stmt.when none condition body).picked pick =
      condition.picked pick ++ body.flatMap (picked pick) := by
  rw [picked, nodes, List.filterMap_append, filterMap_nodesOfAll]
  rfl

theorem picked_when_some (init : Stmt) (condition : Expr) (body : List Stmt) :
    (Stmt.when (some init) condition body).picked pick =
      init.picked pick ++ condition.picked pick ++ body.flatMap (picked pick) := by
  rw [picked, nodes, List.filterMap_append, List.filterMap_append, filterMap_nodesOfAll]
  rfl

theorem picked_forEach (key value : String) (range : Expr) (body : List Stmt) :
    (Stmt.forEach key value range body).picked pick =
      range.picked pick ++ body.flatMap (picked pick) := by
  rw [picked, nodes, List.filterMap_append, filterMap_nodesOfAll]
  rfl

end Picked

/-- The names in a statement, from left to right and with repetitions. -/
def names (stmt : Stmt) : List String := stmt.nodes.filterMap Expr.name?

@[simp]
theorem names_declare (name type : String) : (Stmt.declare name type).names = [] := rfl

@[simp]
theorem names_define (names : List String) (value : Expr) :
    (Stmt.define names value).names = value.names := rfl

@[simp]
theorem names_assign (names : List String) (value : Expr) :
    (Stmt.assign names value).names = value.names := rfl

@[simp]
theorem names_giveBack (values : List Expr) :
    (Stmt.giveBack values).names = values.flatMap Expr.names :=
  picked_giveBack Expr.name? values

@[simp]
theorem names_when_none (condition : Expr) (body : List Stmt) :
    (Stmt.when none condition body).names = condition.names ++ body.flatMap names :=
  picked_when_none Expr.name? condition body

@[simp]
theorem names_when_some (init : Stmt) (condition : Expr) (body : List Stmt) :
    (Stmt.when (some init) condition body).names =
      init.names ++ condition.names ++ body.flatMap names :=
  picked_when_some Expr.name? init condition body

@[simp]
theorem names_forEach (key value : String) (range : Expr) (body : List Stmt) :
    (Stmt.forEach key value range body).names = range.names ++ body.flatMap names :=
  picked_forEach Expr.name? key value range body

/-- The calls in a statement, from left to right. -/
def calls (stmt : Stmt) : List (String × List Expr) := stmt.picked Expr.call?

@[simp]
theorem calls_declare (name type : String) : (Stmt.declare name type).calls = [] := rfl

@[simp]
theorem calls_define (names : List String) (value : Expr) :
    (Stmt.define names value).calls = value.calls := rfl

@[simp]
theorem calls_giveBack (values : List Expr) :
    (Stmt.giveBack values).calls = values.flatMap Expr.calls :=
  picked_giveBack Expr.call? values

@[simp]
theorem calls_when_none (condition : Expr) (body : List Stmt) :
    (Stmt.when none condition body).calls = condition.calls ++ body.flatMap calls :=
  picked_when_none Expr.call? condition body

@[simp]
theorem calls_when_some (init : Stmt) (condition : Expr) (body : List Stmt) :
    (Stmt.when (some init) condition body).calls =
      init.calls ++ condition.calls ++ body.flatMap calls :=
  picked_when_some Expr.call? init condition body

mutual

/-- The returns of a statement that stands under the given conditions. -/
def returns (conditions : List Expr) : Stmt → List Return
  | .declare .. | .define .. | .assign .. => []
  | .giveBack values => [⟨conditions, values⟩]
  | .when none condition body => returnsOfAll (condition :: conditions) body
  | .when (some init) condition body =>
      init.returns conditions ++ returnsOfAll (condition :: conditions) body
  | .forEach _ _ _ body => returnsOfAll conditions body

def returnsOfAll (conditions : List Expr) : List Stmt → List Return
  | [] => []
  | stmt :: rest => stmt.returns conditions ++ returnsOfAll conditions rest

end

end Stmt

end NamedQuery.Code
