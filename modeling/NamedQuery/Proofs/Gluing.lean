import NamedQuery.Code.Block

/-!
# Gluing blocks in any grouping

Gluing with one separator is associative and the block without lines is neutral, so a
list of blocks can be glued in any grouping.  Moving blocks to the right before or after
they are glued makes no difference: the line that two blocks share keeps the depth of the
first of them.
-/

namespace NamedQuery.Code

variable (separator : String)

/-! ## Two blocks -/

theorem nil_glue (tail : Block) : glue separator [] tail = tail := rfl

theorem glue_nil (head : Block) : glue separator head [] = head := by
  induction head with
  | nil => rfl
  | cons line rest ih =>
      cases rest with
      | nil => rfl
      | cons next others => rw [glue, ih]

/-- Only the last line of the first block is changed. -/
theorem glue_cons {rest : Block} (more : rest ≠ []) (line : Line) (tail : Block) :
    glue separator (line :: rest) tail = line :: glue separator rest tail := by
  cases rest with
  | nil => exact absurd rfl more
  | cons next others => rfl

/-- The last line of the first block goes on with the first line of the second. -/
theorem glue_concat (before : Block) (last first : Line) (rest : Block) :
    glue separator (before ++ [last]) (first :: rest) =
      before ++ ⟨last.depth, last.text ++ separator ++ first.text⟩ :: rest := by
  induction before with
  | nil => rfl
  | cons line others ih =>
      rw [List.cons_append, glue_cons separator (List.concat_ne_nil last others), ih,
        List.cons_append]

theorem glue_ne_nil {head : Block} (lines : head ≠ []) (tail : Block) :
    glue separator head tail ≠ [] := by
  cases head with
  | nil => exact absurd rfl lines
  | cons line rest => cases rest <;> cases tail <;> exact List.cons_ne_nil _ _

theorem glue_assoc (first second third : Block) :
    glue separator (glue separator first second) third =
      glue separator first (glue separator second third) := by
  fun_induction glue separator first second with
  | case1 second => rfl
  | case2 last => rfl
  | case3 last start rest =>
      -- The line of `last` goes on into the third block when the second has no other line.
      cases rest with
      | nil =>
          cases third with
          | nil => rfl
          | cons line others => simp only [glue, String.append_assoc]
      | cons next others => rfl
  | case4 line next rest second ih =>
      have lines : glue separator (next :: rest) second ≠ [] :=
        glue_ne_nil separator (List.cons_ne_nil next rest) second
      rw [glue_cons separator lines, ih, glue_cons separator (List.cons_ne_nil next rest)]

instance : Std.Associative (glue separator) := ⟨glue_assoc separator⟩

/-! ## Lists of blocks -/

theorem glueAll_eq_foldl (blocks : List Block) :
    glueAll separator blocks = blocks.foldl (glue separator) [] := by
  cases blocks with
  | nil => rfl
  | cons block rest => rfl

theorem glueAll_append (before after : List Block) :
    glueAll separator (before ++ after) =
      glue separator (glueAll separator before) (glueAll separator after) := by
  calc glueAll separator (before ++ after)
      = after.foldl (glue separator) (glueAll separator before) := by
        rw [glueAll_eq_foldl, List.foldl_append, glueAll_eq_foldl]
    _ = after.foldl (glue separator) (glue separator (glueAll separator before) []) := by
        rw [glue_nil]
    _ = glue separator (glueAll separator before) (after.foldl (glue separator) []) :=
        List.foldl_assoc
    _ = glue separator (glueAll separator before) (glueAll separator after) := by
        rw [glueAll_eq_foldl separator after]

theorem glueAll_cons (block : Block) (rest : List Block) :
    glueAll separator (block :: rest) = glue separator block (glueAll separator rest) :=
  glueAll_append separator [block] rest

/-! ## Depths -/

theorem nest_lines (levels : Nat) (block : Block) :
    (nest levels block).map Line.text = block.map Line.text ∧
      (nest levels block).map Line.depth = block.map fun line => line.depth + levels := by
  rw [nest, List.map_map, List.map_map]
  exact ⟨rfl, rfl⟩

theorem nest_glue (levels : Nat) (head tail : Block) :
    nest levels (glue separator head tail) =
      glue separator (nest levels head) (nest levels tail) := by
  fun_induction glue separator head tail with
  | case1 tail => rfl
  | case2 last => rfl
  | case3 last first rest => rfl
  | case4 line next rest tail ih => exact congrArg (_ :: ·) ih

theorem nest_glueAll (levels : Nat) (blocks : List Block) :
    nest levels (glueAll separator blocks) =
      glueAll separator (blocks.map (nest levels)) := by
  rw [glueAll_eq_foldl, glueAll_eq_foldl, List.foldl_map]
  refine (List.foldl_hom (nest levels) ?_).symm
  intro head tail
  exact (nest_glue separator levels head tail).symm

/-- Blocks form a monoid under gluing with a separator, where the last line of a block goes
on with the first line of the next, and gluing a list of blocks is its fold.  Nesting keeps
the texts of the lines, adds to each depth, and respects both. -/
theorem glue_monoid :
    (∀ before last first rest, glue separator (before ++ [last]) (first :: rest) =
      before ++ ⟨last.depth, last.text ++ separator ++ first.text⟩ :: rest) ∧
    (∀ block, glue separator [] block = block ∧ glue separator block [] = block) ∧
    (∀ first second third, glue separator (glue separator first second) third =
      glue separator first (glue separator second third)) ∧
    (∀ blocks, glueAll separator blocks = blocks.foldl (glue separator) []) ∧
    (∀ before after, glueAll separator (before ++ after) =
      glue separator (glueAll separator before) (glueAll separator after)) ∧
    (∀ levels block, (nest levels block).map Line.text = block.map Line.text ∧
      (nest levels block).map Line.depth = block.map fun line => line.depth + levels) ∧
    (∀ levels head tail, nest levels (glue separator head tail) =
      glue separator (nest levels head) (nest levels tail)) ∧
    ∀ levels blocks, nest levels (glueAll separator blocks) =
      glueAll separator (blocks.map (nest levels)) := by
  refine ⟨glue_concat separator, ?_, glue_assoc separator, glueAll_eq_foldl separator,
    glueAll_append separator, nest_lines, nest_glue separator, nest_glueAll separator⟩
  intro block
  exact ⟨nil_glue separator block, glue_nil separator block⟩

example : glueAll ", " [single "a", [], [⟨0, "b("⟩, ⟨2, ")"⟩], [⟨5, "c"⟩]] =
    [⟨0, "a, b("⟩, ⟨2, "), c"⟩] := by
  decide

end NamedQuery.Code
