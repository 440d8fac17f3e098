import Mathlib.Data.List.Infix
import NamedQuery.Code.Decl
import NamedQuery.Proofs.Gluing

/-!
# Indentation and braces

Each line of generated code is indented by as many levels as there are braces open
before it, or one level less when it starts with a closing brace.  This holds of every
expression, statement and declaration whose names and pieces of text have balanced
braces: blocks keep it when they are glued, nested and enclosed in braces.
-/

namespace NamedQuery

/-! ## Braces in texts -/

namespace Text

/-- How many braces are opened more than are closed. -/
def nesting (chars : List Char) : Int := chars.count '{' - chars.count '}'

/-- A text whose braces are balanced: no closing brace comes before its opening one, and
none is left open. -/
structure Balanced (text : String) : Prop where
  opened : ∀ start, start <+: text.toList → start.count '}' ≤ start.count '{'
  closed : text.toList.count '{' = text.toList.count '}'

instance (text : String) : Decidable (Balanced text) :=
  decidable_of_iff ((∀ start ∈ text.toList.inits, start.count '}' ≤ start.count '{') ∧
      text.toList.count '{' = text.toList.count '}')
    ⟨fun ⟨opened, closed⟩ =>
        ⟨fun start first => opened start ((List.mem_inits _ _).mpr first), closed⟩,
      fun balanced =>
        ⟨fun start first => balanced.opened start ((List.mem_inits _ _).mp first),
          balanced.closed⟩⟩

@[simp]
theorem nesting_nil : nesting [] = 0 := rfl

@[simp]
theorem nesting_append (first second : List Char) :
    nesting (first ++ second) = nesting first + nesting second := by
  simp only [nesting, List.count_append]
  omega

/-- A text that leaves no brace open and does not start with a closing one. -/
structure Level (text : String) : Prop where
  nesting_eq : nesting text.toList = 0
  start : text.toList.head? ≠ some '}'

instance (text : String) : Decidable (Level text) :=
  decidable_of_iff (nesting text.toList = 0 ∧ text.toList.head? ≠ some '}')
    ⟨fun ⟨nesting_eq, start⟩ => ⟨nesting_eq, start⟩, fun level => ⟨level.nesting_eq, level.start⟩⟩

theorem Balanced.level {text : String} (balanced : Balanced text) : Level text where
  nesting_eq := by
    rw [nesting, balanced.closed, Int.sub_self]
  start := by
    intro closes
    obtain ⟨rest, starts⟩ := List.head?_eq_some_iff.mp closes
    have first := balanced.opened ['}'] ⟨rest, starts.symm⟩
    exact absurd first (by decide)

theorem head?_append_ne {first second : String} {c : Char}
    (before : first.toList.head? ≠ some c) (after : second.toList.head? ≠ some c) :
    (first ++ second).toList.head? ≠ some c := by
  rw [String.toList_append, List.head?_append]
  cases found : first.toList.head? with
  | none => exact after
  | some other =>
      rw [found] at before
      exact before

theorem Level.append {first second : String} (before : Level first) (after : Level second) :
    Level (first ++ second) where
  nesting_eq := by
    rw [String.toList_append, nesting_append, before.nesting_eq, after.nesting_eq, Int.add_zero]
  start := head?_append_ne before.start after.start

theorem Level.joined {separator : String} (between : Level separator) {texts : List String}
    (each : ∀ text ∈ texts, Level text) : Level (joined separator texts) := by
  induction texts with
  | nil => exact ⟨rfl, by simp [Text.joined]⟩
  | cons text rest ih =>
      obtain ⟨first, others⟩ := List.forall_mem_cons.mp each
      cases rest with
      | nil => exact first
      | cons next more => exact (first.append between).append (ih others)

theorem Level.enclosed {text : String} (level : Level text) :
    Level (openBrace ++ text ++ closeBrace) where
  nesting_eq := by
    rw [String.toList_append, String.toList_append, nesting_append, nesting_append,
      level.nesting_eq]
    decide
  start := by
    rw [String.toList_append, String.toList_append]
    simp [openBrace]

end Text

namespace Code

open Text

/-! ## Braces in blocks -/

/-- The characters of a block, line by line. -/
def chars (block : Block) : List Char := block.flatMap fun line => line.text.toList

/-- By how many levels a text is less deep than what stands before it. -/
def outdent (text : String) : Int := if text.toList.head? = some '}' then 1 else 0

/-- A block whose indentation follows its braces: it starts and ends at its own level,
leaves no brace open, and each line is as deep as braces are open before it, or one level
less deep when it starts with a closing brace. -/
structure Indented (block : Block) : Prop where
  first : ∀ line ∈ block.head?, line.depth = 0
  last : ∀ line ∈ block.getLast?, line.depth = 0
  closed : (chars block).count '{' = (chars block).count '}'
  depth : ∀ before line after, block = before ++ line :: after →
    (line.depth : Int) =
      (chars before).count '{' - (chars before).count '}' - outdent line.text

@[simp]
theorem chars_nil : chars [] = [] := rfl

@[simp]
theorem chars_cons (line : Line) (rest : Block) :
    chars (line :: rest) = line.text.toList ++ chars rest := List.flatMap_cons

@[simp]
theorem chars_append (first second : Block) :
    chars (first ++ second) = chars first ++ chars second := List.flatMap_append

@[simp]
theorem chars_single (text : String) : chars (single text) = text.toList :=
  List.flatMap_singleton _ _

theorem chars_nest (levels : Nat) (block : Block) : chars (nest levels block) = chars block := by
  rw [chars, nest, List.flatMap_map]
  rfl

/-- The lines are as deep as their braces ask when `opened` braces are open before
them. -/
def Nested (opened : Int) : Block → Prop
  | [] => True
  | line :: rest =>
      (line.depth : Int) = opened - outdent line.text ∧
        Nested (opened + nesting line.text.toList) rest

theorem nested_append {opened : Int} {first second : Block} :
    Nested opened (first ++ second) ↔
      Nested opened first ∧ Nested (opened + nesting (chars first)) second := by
  induction first generalizing opened with
  | nil => simp [Nested]
  | cons line rest ih =>
      rw [List.cons_append, Nested, Nested, ih, and_assoc, chars_cons, nesting_append,
        Int.add_assoc]

theorem Nested.nest {opened : Int} {block : Block} (nested : Nested opened block) :
    Nested (opened + 1) (nest 1 block) := by
  induction block generalizing opened with
  | nil => exact True.intro
  | cons line rest ih =>
      obtain ⟨depth, later⟩ := nested
      refine ⟨?_, ?_⟩
      · change ((line.depth + 1 : Nat) : Int) = opened + 1 - outdent line.text
        omega
      · have deeper := ih later
        rwa [Int.add_right_comm] at deeper

theorem nested_single {opened : Int} {text : String} :
    Nested opened (single text) ↔ opened = outdent text := by
  simp only [single, Nested, and_true]
  omega

theorem outdent_eq_zero {text : String} (start : text.toList.head? ≠ some '}') :
    outdent text = 0 := if_neg start

theorem outdent_append {first second : String}
    (start : second.toList.head? ≠ some '}') : outdent (first ++ second) = outdent first := by
  rw [outdent, outdent, String.toList_append, List.head?_append]
  cases found : first.toList.head? with
  | none => simp [start]
  | some c => rfl

/-! ## Blocks that follow their braces -/

/-- A block that is as deep as its braces ask, leaves none open, and ends at its own
level. -/
structure Laid (block : Block) : Prop where
  nested : Nested 0 block
  closed : nesting (chars block) = 0
  last : ∀ line ∈ block.getLast?, line.depth = 0

theorem Laid.start {line : Line} {rest : Block} (laid : Laid (line :: rest)) :
    line.depth = 0 ∧ line.text.toList.head? ≠ some '}' := by
  have depth := laid.nested.1
  by_cases closes : line.text.toList.head? = some '}'
  · rw [outdent, if_pos closes] at depth
    omega
  · rw [outdent, if_neg closes] at depth
    exact ⟨by omega, closes⟩

theorem Laid.indented {block : Block} (laid : Laid block) : Indented block where
  first := by
    intro line member
    cases block with
    | nil => cases member
    | cons first rest =>
        cases member
        exact laid.start.1
  last := laid.last
  closed := by
    have closed := laid.closed
    rw [nesting] at closed
    omega
  depth := by
    rintro before line after rfl
    have depth := (nested_append.mp laid.nested).2.1
    rw [nesting] at depth
    omega

theorem laid_nil : Laid [] where
  nested := True.intro
  closed := rfl
  last := by
    intro line member
    cases member

theorem laid_single {text : String} (level : Level text) : Laid (single text) where
  nested := nested_single.mpr (outdent_eq_zero level.start).symm
  closed := by
    rw [chars_single, level.nesting_eq]
  last := by
    intro line member
    cases member
    rfl

/-! ### Gluing -/

theorem nesting_glue {separator : String} (between : Level separator) (head tail : Block) :
    nesting (chars (glue separator head tail)) = nesting (chars head) + nesting (chars tail) := by
  fun_induction glue separator head tail with
  | case1 tail => simp
  | case2 last => simp
  | case3 last first rest =>
      simp only [chars_cons, chars_nil, String.toList_append, nesting_append, nesting_nil,
        between.nesting_eq]
      omega
  | case4 line next rest tail ih =>
      rw [chars_cons, nesting_append, ih, chars_cons line, nesting_append, Int.add_assoc]

theorem Nested.glue {separator : String} (between : Level separator) {opened : Int}
    {head tail : Block} (before : Nested opened head)
    (after : Nested (opened + nesting (chars head)) tail)
    (start : ∀ line ∈ tail.head?, line.text.toList.head? ≠ some '}') :
    Nested opened (glue separator head tail) := by
  fun_induction Code.glue separator head tail generalizing opened with
  | case1 tail => simpa using after
  | case2 last => exact before
  | case3 last first rest =>
      have plain := head?_append_ne between.start (start first rfl)
      have count : opened + nesting (last.text ++ separator ++ first.text).toList =
          opened + nesting (chars [last]) + nesting first.text.toList := by
        simp only [chars_cons, chars_nil, String.toList_append, nesting_append, nesting_nil,
          between.nesting_eq]
        omega
      refine ⟨?_, ?_⟩
      · rw [String.append_assoc, outdent_append plain]
        exact before.1
      · rw [count]
        exact after.2
  | case4 line next rest tail ih =>
      refine ⟨before.1, ih before.2 ?_ start⟩
      rwa [chars_cons, nesting_append, ← Int.add_assoc] at after

theorem last_glue {separator : String} {head tail : Block}
    (before : ∀ line ∈ head.getLast?, line.depth = 0)
    (after : ∀ line ∈ tail.getLast?, line.depth = 0) :
    ∀ line ∈ (glue separator head tail).getLast?, line.depth = 0 := by
  fun_induction glue separator head tail with
  | case1 tail => exact after
  | case2 last => exact before
  | case3 last first rest =>
      cases rest with
      | nil =>
          intro line member
          cases member
          exact before last rfl
      | cons second others =>
          rw [List.getLast?_cons_cons] at after ⊢
          exact after
  | case4 line next rest tail ih =>
      obtain ⟨first, others, shape⟩ :=
        List.exists_cons_of_ne_nil (glue_ne_nil separator (List.cons_ne_nil next rest) tail)
      rw [List.getLast?_cons_cons] at before
      rw [shape] at ih ⊢
      rw [List.getLast?_cons_cons]
      exact ih before after

/-- Blocks stay as deep as their braces ask when the second one starts on the last line of
the first. -/
theorem Laid.glue {separator : String} (between : Level separator) {head tail : Block}
    (before : Laid head) (after : Laid tail) : Laid (glue separator head tail) where
  nested := by
    apply before.nested.glue between
    · rw [before.closed, Int.add_zero]
      exact after.nested
    · -- A closing brace in the middle of a line would not move the line to the left.
      intro line member
      cases tail with
      | nil => cases member
      | cons first rest =>
          cases member
          exact after.start.2
  closed := by
    rw [nesting_glue between, before.closed, after.closed, Int.add_zero]
  last := last_glue before.last after.last

theorem laid_glueAll {separator : String} (between : Level separator) {blocks : List Block}
    (each : ∀ block ∈ blocks, Laid block) : Laid (glueAll separator blocks) := by
  induction blocks with
  | nil => exact laid_nil
  | cons block rest ih =>
      obtain ⟨first, others⟩ := List.forall_mem_cons.mp each
      rw [glueAll_cons]
      exact first.glue between (ih others)

/-! ### Enclosing -/

theorem nested_bodies {blocks : List Block} (each : ∀ block ∈ blocks, Laid block) :
    Nested 1 (blocks.flatMap (nest 1)) ∧ nesting (chars (blocks.flatMap (nest 1))) = 0 := by
  induction blocks with
  | nil => exact ⟨True.intro, rfl⟩
  | cons block rest ih =>
      obtain ⟨first, others⟩ := List.forall_mem_cons.mp each
      obtain ⟨nested, closed⟩ := ih others
      rw [List.flatMap_cons, nested_append, chars_append, nesting_append, chars_nest,
        first.closed, closed]
      exact ⟨⟨first.nested.nest, nested⟩, rfl⟩

/-- What opens a brace, blocks a level deeper, and the closing brace. -/
theorem laid_enclosed {opening : Block} (nested : Nested 0 opening)
    (opened : nesting (chars opening) = 1) {body : List Block}
    (each : ∀ block ∈ body, Laid block) :
    Laid (opening ++ body.flatMap (nest 1) ++ single closeBrace) where
  nested := by
    obtain ⟨inside, closed⟩ := nested_bodies each
    rw [nested_append, nested_append, chars_append, nesting_append, opened, closed]
    exact ⟨⟨nested, inside⟩, nested_single.mpr (by decide)⟩
  closed := by
    obtain ⟨-, closed⟩ := nested_bodies each
    rw [chars_append, chars_append, nesting_append, nesting_append, opened, closed]
    decide
  last := by
    intro line member
    rw [single, List.getLast?_concat] at member
    cases member
    rfl

theorem laid_opened {text : String} (level : Level text) {body : List Block}
    (each : ∀ block ∈ body, Laid block) :
    Laid (single (text ++ openBrace) ++ body.flatMap (nest 1) ++ single closeBrace) := by
  have plain : openBrace.toList.head? ≠ some '}' := by decide
  have opened : nesting openBrace.toList = 1 := by decide
  apply laid_enclosed
  · rw [nested_single, outdent_append plain, outdent_eq_zero level.start]
  · rw [chars_single, String.toList_append, nesting_append, level.nesting_eq, opened, Int.zero_add]
  · exact each

theorem length_glueAll {separator : String} {blocks : List Block} (nonempty : blocks ≠ [])
    (each : ∀ block ∈ blocks, block.length = 1) : (glueAll separator blocks).length = 1 := by
  induction blocks with
  | nil => exact absurd rfl nonempty
  | cons block rest ih =>
      obtain ⟨first, others⟩ := List.forall_mem_cons.mp each
      rw [glueAll_cons]
      cases rest with
      | nil => rwa [glueAll, glue_nil]
      | cons next more =>
          obtain ⟨line, rfl⟩ := List.length_eq_one_iff.mp first
          obtain ⟨other, shape⟩ :=
            List.length_eq_one_iff.mp (ih (List.cons_ne_nil next more) others)
          rw [shape]
          rfl

theorem Laid.level {line : Line} (laid : Laid [line]) : Level line.text where
  nesting_eq := by
    have closed := laid.closed
    rwa [chars_cons, chars_nil, List.append_nil] at closed
  start := laid.start.2

theorem Expr.laid_braced {type : String} (named : Level type) {entries : List Block}
    (each : ∀ entry ∈ entries, Laid entry) (onOneLine : Bool) :
    Laid (braced type entries onOneLine) := by
  rw [braced]
  split
  · exact laid_single (named.append (by decide))
  · next nonempty =>
      split
      · next short =>
          -- The entries share a line, which is level once it stands in braces.
          have one : ∀ entry ∈ entries, entry.length = 1 := by
            simp only [Bool.and_eq_true, List.all_eq_true, decide_eq_true_eq] at short
            exact short.2
          obtain ⟨line, shape⟩ := List.length_eq_one_iff.mp
            (length_glueAll (by simpa using nonempty) one)
          have inside := laid_glueAll (by decide : Level ", ") each
          rw [shape] at inside ⊢
          have flat : glue "" (glue "" (single (type ++ openBrace)) [line]) (single closeBrace) =
              single (type ++ (openBrace ++ line.text ++ closeBrace)) := by
            simp [glue, single, String.append_assoc]
          rw [flat]
          exact laid_single (named.append inside.level.enclosed)
      · have stacked : Expr.stacked entries =
            (entries.map fun entry => glue "" entry (single ",")).flatMap (nest 1) := by
          rw [List.flatMap_map]
          rfl
        rw [stacked]
        apply laid_opened named
        intro block member
        obtain ⟨entry, listed, rfl⟩ := List.mem_map.mp member
        exact (each entry listed).glue (by decide) (laid_single (by decide))

theorem laid_withBody {header : Block} (before : Laid header) {body : List Block}
    (each : ∀ block ∈ body, Laid block) : Laid (withBody header body) := by
  apply laid_enclosed
  · -- The opening brace alone is not a block that follows its braces, since it stays open.
    apply before.nested.glue (by decide)
    · rw [before.closed, nested_single]
      decide
    · intro line member
      cases member
      decide
  · rw [nesting_glue (by decide), before.closed, chars_single]
    decide
  · exact each

/-! ## Expressions -/

namespace Expr

mutual

/-- The texts that an expression is made of: identifiers, pieces of code, and the names
of functions, types and fields. -/
def leaves : Expr → List String
  | .ident name => [name]
  | .raw text => [text]
  | .call function args => function :: leavesOfAll args
  | .chain parts => leavesOfAll parts
  | .slice type elements => type :: leavesOfAll elements
  | .mapping type entries => type :: leavesOfEntries entries
  | .struct type fields => type :: leavesOfFields fields

def leavesOfAll : List Expr → List String
  | [] => []
  | expr :: rest => expr.leaves ++ leavesOfAll rest

def leavesOfEntries : List (Expr × Expr) → List String
  | [] => []
  | (key, value) :: rest => key.leaves ++ value.leaves ++ leavesOfEntries rest

def leavesOfFields : List (String × Expr) → List String
  | [] => []
  | (name, value) :: rest => name :: value.leaves ++ leavesOfFields rest

end

mutual

theorem laid_lines : ∀ expr : Expr, (∀ text ∈ expr.leaves, Level text) → Laid expr.lines
  | .ident name, level => laid_single (level name List.mem_cons_self)
  | .raw text, level => laid_single (level text List.mem_cons_self)
  | .call function args, level => by
      obtain ⟨named, others⟩ := List.forall_mem_cons.mp level
      have opening : Laid (single (function ++ "(")) := laid_single (named.append (by decide))
      have inside := laid_glueAll (by decide : Level ", ") (laid_linesOfAll args others)
      have closing : Laid (single ")") := laid_single (by decide)
      exact (opening.glue (by decide) inside).glue (by decide) closing
  | .chain parts, level => laid_glueAll (by decide) (laid_linesOfAll parts level)
  | .slice type elements, level => by
      obtain ⟨named, others⟩ := List.forall_mem_cons.mp level
      exact laid_braced named (laid_linesOfAll elements others) false
  | .mapping type entries, level => by
      obtain ⟨named, others⟩ := List.forall_mem_cons.mp level
      exact laid_braced named (laid_layoutOfEntries entries others) _
  | .struct type fields, level => by
      obtain ⟨named, others⟩ := List.forall_mem_cons.mp level
      exact laid_braced named (laid_layoutOfFields fields others) _

theorem laid_linesOfAll : ∀ exprs : List Expr, (∀ text ∈ leavesOfAll exprs, Level text) →
    ∀ block ∈ linesOfAll exprs, Laid block
  | [], _ => by
      intro block member
      cases member
  | expr :: rest, level => by
      obtain ⟨first, others⟩ := List.forall_mem_append.mp level
      rw [linesOfAll, List.forall_mem_cons]
      exact ⟨laid_lines expr first, laid_linesOfAll rest others⟩

theorem laid_layoutOfEntries : ∀ entries : List (Expr × Expr),
    (∀ text ∈ leavesOfEntries entries, Level text) →
    ∀ block ∈ (layoutOfEntries entries).map Entry.block, Laid block
  | [], _ => by
      intro block member
      cases member
  | (key, value) :: rest, level => by
      obtain ⟨first, others⟩ := List.forall_mem_append.mp level
      obtain ⟨ofKey, ofValue⟩ := List.forall_mem_append.mp first
      rw [layoutOfEntries, List.map_cons, List.forall_mem_cons]
      exact ⟨(laid_lines key ofKey).glue (by decide) (laid_lines value ofValue),
        laid_layoutOfEntries rest others⟩

theorem laid_layoutOfFields : ∀ fields : List (String × Expr),
    (∀ text ∈ leavesOfFields fields, Level text) →
    ∀ block ∈ (layoutOfFields fields).map Entry.block, Laid block
  | [], _ => by
      intro block member
      cases member
  | (name, value) :: rest, level => by
      obtain ⟨first, others⟩ := List.forall_mem_append.mp level
      obtain ⟨named, ofValue⟩ := List.forall_mem_cons.mp first
      rw [layoutOfFields, List.map_cons, List.forall_mem_cons]
      exact ⟨(laid_single named).glue (by decide) (laid_lines value ofValue),
        laid_layoutOfFields rest others⟩

end

end Expr

/-! ## Statements -/

namespace Stmt

mutual

/-- The texts that a statement is made of: names of variables and types, and the texts
of its expressions. -/
def leaves : Stmt → List String
  | .declare name type => [name, type]
  | .define names value => names ++ value.leaves
  | .assign names value => names ++ value.leaves
  | .giveBack values => Expr.leavesOfAll values
  | .when none condition body => condition.leaves ++ leavesOfAll body
  | .when (some init) condition body => init.leaves ++ condition.leaves ++ leavesOfAll body
  | .forEach key value range body => key :: value :: range.leaves ++ leavesOfAll body

def leavesOfAll : List Stmt → List String
  | [] => []
  | stmt :: rest => stmt.leaves ++ leavesOfAll rest

end

mutual

theorem laid_lines : ∀ stmt : Stmt, (∀ text ∈ stmt.leaves, Level text) → Laid stmt.lines
  | .declare name type, level => by
      obtain ⟨named, others⟩ := List.forall_mem_cons.mp level
      have typed : Level type := others type List.mem_cons_self
      have start : Level "var " := by decide
      exact laid_single (((start.append named).append (by decide)).append typed)
  | .define names value, level => by
      obtain ⟨named, ofValue⟩ := List.forall_mem_append.mp level
      have left := laid_single (Level.joined (by decide : Level ", ") named)
      exact left.glue (by decide) (Expr.laid_lines value ofValue)
  | .assign names value, level => by
      obtain ⟨named, ofValue⟩ := List.forall_mem_append.mp level
      have left := laid_single (Level.joined (by decide : Level ", ") named)
      exact left.glue (by decide) (Expr.laid_lines value ofValue)
  | .giveBack values, level => by
      have start : Laid (single "return") := laid_single (by decide)
      exact start.glue (by decide)
        (laid_glueAll (by decide) (Expr.laid_linesOfAll values level))
  | .when none condition body, level => by
      obtain ⟨ofCondition, ofBody⟩ := List.forall_mem_append.mp level
      have start : Laid (single "if") := laid_single (by decide)
      exact laid_withBody (start.glue (by decide) (Expr.laid_lines condition ofCondition))
        (laid_linesOfAll body ofBody)
  | .when (some init) condition body, level => by
      obtain ⟨ofHeader, ofBody⟩ := List.forall_mem_append.mp level
      obtain ⟨ofInit, ofCondition⟩ := List.forall_mem_append.mp ofHeader
      have start : Laid (single "if") := laid_single (by decide)
      have before := start.glue (by decide : Level " ") (laid_lines init ofInit)
      exact laid_withBody (before.glue (by decide) (Expr.laid_lines condition ofCondition))
        (laid_linesOfAll body ofBody)
  | .forEach key value range body, level => by
      obtain ⟨ofHeader, ofBody⟩ := List.forall_mem_append.mp level
      obtain ⟨ofKey, afterKey⟩ := List.forall_mem_cons.mp ofHeader
      obtain ⟨ofItem, ofRange⟩ := List.forall_mem_cons.mp afterKey
      have start : Level "for " := by decide
      have names := ((start.append ofKey).append (by decide : Level ", ")).append ofItem
      have header := laid_single (names.append (by decide : Level " := range"))
      exact laid_withBody (header.glue (by decide) (Expr.laid_lines range ofRange))
        (laid_linesOfAll body ofBody)

theorem laid_linesOfAll : ∀ stmts : List Stmt, (∀ text ∈ leavesOfAll stmts, Level text) →
    ∀ block ∈ linesOfAll stmts, Laid block
  | [], _ => by
      intro block member
      cases member
  | stmt :: rest, level => by
      obtain ⟨first, others⟩ := List.forall_mem_append.mp level
      rw [linesOfAll, List.forall_mem_cons]
      exact ⟨laid_lines stmt first, laid_linesOfAll rest others⟩

end

end Stmt

/-! ## Declarations -/

/-- The name of a parameter and the text of its type. -/
def Param.leaves (param : Param) : List String := [param.name, param.type.text]

namespace Decl

/-- The texts that a declaration is made of: names, the texts of types, and the texts of
its statements. -/
def leaves : Decl → List String
  | .function name params results body =>
      name :: params.flatMap Param.leaves ++ GoType.texts results ++ Stmt.leavesOfAll body
  | .method receiver name params results body =>
      receiver.leaves ++ name :: params.flatMap Param.leaves ++ GoType.texts results ++
        Stmt.leavesOfAll body
  | .struct name fields => name :: fields.flatMap Param.leaves

theorem level_param {param : Param} (level : ∀ text ∈ param.leaves, Level text) :
    Level param.text := by
  obtain ⟨named, others⟩ := List.forall_mem_cons.mp level
  have typed : Level param.type.text := others _ List.mem_cons_self
  exact (named.append (by decide)).append typed

theorem level_params {params : List Param}
    (level : ∀ text ∈ params.flatMap Param.leaves, Level text) :
    ∀ param ∈ params, Level param.text := by
  intro param listed
  apply level_param
  intro text inside
  exact level text (List.mem_flatMap.mpr ⟨param, listed, inside⟩)

theorem level_resultText {results : List String} (level : ∀ text ∈ results, Level text) :
    Level (GoType.resultText results) := by
  unfold GoType.resultText
  split
  · decide
  · next only =>
      have start : Level " " := by decide
      exact start.append (level only List.mem_cons_self)
  · have start : Level " (" := by decide
    exact (start.append (Level.joined (by decide) level)).append (by decide)

theorem level_signatureText {params : List Param} {results : List GoType}
    (ofParams : ∀ text ∈ params.flatMap Param.leaves, Level text)
    (ofResults : ∀ text ∈ GoType.texts results, Level text) :
    Level (signatureText params results) := by
  have each : ∀ text ∈ params.map Param.text, Level text :=
    List.forall_mem_map.mpr (level_params ofParams)
  have start : Level "(" := by decide
  exact ((start.append (Level.joined (by decide) each)).append (by decide)).append
    (level_resultText ofResults)

theorem laid_lines (decl : Decl) (level : ∀ text ∈ decl.leaves, Level text) : Laid decl.lines := by
  cases decl with
  | function name params results body =>
      obtain ⟨ofHeader, ofBody⟩ := List.forall_mem_append.mp level
      obtain ⟨ofNames, ofResults⟩ := List.forall_mem_append.mp ofHeader
      obtain ⟨named, ofParams⟩ := List.forall_mem_cons.mp ofNames
      have start : Level "func " := by decide
      have header := (start.append named).append (level_signatureText ofParams ofResults)
      exact laid_withBody (laid_single header) (Stmt.laid_linesOfAll body ofBody)
  | method receiver name params results body =>
      obtain ⟨ofHeader, ofBody⟩ := List.forall_mem_append.mp level
      obtain ⟨ofNames, ofResults⟩ := List.forall_mem_append.mp ofHeader
      obtain ⟨ofReceiver, ofName⟩ := List.forall_mem_append.mp ofNames
      obtain ⟨named, ofParams⟩ := List.forall_mem_cons.mp ofName
      have start : Level "func (" := by decide
      have received := (start.append (level_param ofReceiver)).append (by decide : Level ") ")
      have header := (received.append named).append (level_signatureText ofParams ofResults)
      exact laid_withBody (laid_single header) (Stmt.laid_linesOfAll body ofBody)
  | struct name fields =>
      obtain ⟨named, ofFields⟩ := List.forall_mem_cons.mp level
      have bodies : fields.flatMap (fun field => nest 1 (single field.text)) =
          (fields.map fun field => single field.text).flatMap (nest 1) := by
        rw [List.flatMap_map]
      rw [lines, bodies]
      have start : Level "type " := by decide
      have keyword : Level " struct " := by decide
      apply laid_opened ((start.append named).append keyword)
      intro block member
      obtain ⟨field, listed, rfl⟩ := List.mem_map.mp member
      exact laid_single (level_params ofFields field listed)

end Decl

/-! ## Indentation of generated code -/

/-- Expressions, statements and declarations whose texts have balanced braces are indented
by their braces. -/
theorem lines_indented :
    (∀ expr : Expr, (∀ text ∈ expr.leaves, Balanced text) → Indented expr.lines) ∧
      (∀ stmt : Stmt, (∀ text ∈ stmt.leaves, Balanced text) → Indented stmt.lines) ∧
      ∀ decl : Decl, (∀ text ∈ decl.leaves, Balanced text) → Indented decl.lines := by
  refine ⟨?_, ?_, ?_⟩
  · intro expr balanced
    exact (expr.laid_lines fun text listed => (balanced text listed).level).indented
  · intro stmt balanced
    exact (stmt.laid_lines fun text listed => (balanced text listed).level).indented
  · intro decl balanced
    exact (decl.laid_lines fun text listed => (balanced text listed).level).indented

end Code

namespace Users

/-- Counts the users of some age, with a filter on more than one line. -/
def counting : Code.Decl :=
  .method ⟨"r", .pointer (.named "Repository")⟩ "CountByAge"
    [⟨"arg0", .context⟩, ⟨"arg1", .emptyInterface⟩] [.named "int", .error]
    [.when
      (some (.define ["err"] (.call "r.count" [.ident "arg0", .slice "[]interface{}"
        [.mapping "bson.M" [(.string "age", .ident "arg1")]]])))
      (.raw "err != nil") [.giveBack [.raw "0", .ident "err"]]]

theorem counting_indented :
    (∀ text ∈ counting.leaves, Text.Balanced text) ∧
      counting.lines.map Code.Line.depth = [0, 1, 2, 1, 2, 1, 0] ∧
      Code.Indented counting.lines := by
  have balanced : ∀ text ∈ counting.leaves, Text.Balanced text := by decide +kernel
  exact ⟨balanced, by decide +kernel, Code.lines_indented.2.2 counting balanced⟩

end Users

end NamedQuery
