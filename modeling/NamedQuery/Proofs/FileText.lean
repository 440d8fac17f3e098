import NamedQuery.Code.File

/-!
# The text of a generated file

A writer between two lines keeps its indentation and its level, and each step of writing
a file leaves it between two lines again, with some text more.  So the text of a file is
that of its parts put one after the other: what is written for a part depends on nothing
that was written before.
-/

namespace NamedQuery.Code

open Text

/-! ## The texts of the parts -/

/-- The text of a line at a depth: its indentation and the line, or nothing for an empty
line, and a line break. -/
def lineText (indent : String) (depth : Nat) (text : String) : String :=
  if text = "" then "\n" else repeated indent depth ++ text ++ "\n"

/-- The texts of the lines of a block that starts at a level. -/
def blockText (indent : String) (level : Nat) (block : Block) : String :=
  String.join (block.map fun line => lineText indent (level + line.depth) line.text)

theorem blockText_cons (indent : String) (level : Nat) (line : Line) (rest : Block) :
    blockText indent level (line :: rest) =
      lineText indent (level + line.depth) line.text ++ blockText indent level rest :=
  String.join_cons

namespace GoFile

def headerText (header : String) : String := if header = "" then "" else header ++ "\n\n"

/-- The imports of a group, each on its own line after one unit of indentation. -/
def groupText (indent : String) (group : List Import) : String :=
  String.join (group.map fun entry => indent ++ importText entry ++ "\n")

/-- The groups that have imports, with an empty line between neighbours. -/
def importsText (indent : String) (groups : List (List Import)) : String :=
  if groups.filter (fun group => !group.isEmpty) = [] then ""
  else "\nimport (\n" ++
    joined "\n" ((groups.filter fun group => !group.isEmpty).map (groupText indent)) ++ ")\n"

/-- A declaration after its empty lines. -/
def declText (layout : Layout) (decl : Decl) : String :=
  repeated "\n" layout.blankLines ++ blockText layout.indent 0 decl.lines

end GoFile

/-! ## Writing between lines -/

namespace Writer

/-- The writer at the start of a line, with a text written. -/
def between (indent : String) (level : Nat) (output : String) : Writer :=
  ⟨indent, level, output, true⟩

variable {indent output : String} {level : Nat}

theorem deeper_between : (between indent level output).deeper = between indent (level + 1) output :=
  rfl

theorem shallower_between :
    (between indent (level + 1) output).shallower = between indent level output := rfl

theorem newline_between :
    (between indent level output).newline = between indent level (output ++ "\n") := rfl

/-- The step of writing one line. -/
theorem writeAt_between (extra : Nat) (text : String) :
    ((between indent level output).writeAt extra text).newline =
      between indent level (output ++ lineText indent (level + extra) text) := by
  unfold writeAt lineText
  split
  · rfl
  · simp [between, beginLine, append, newline, String.append_assoc]

theorem writeLine_between (text : String) :
    (between indent level output).writeLine text =
      between indent level (output ++ lineText indent level text) :=
  writeAt_between 0 text

theorem repeated_succ (text : String) (count : Nat) :
    repeated text (count + 1) = text ++ repeated text count := by
  induction count with
  | zero => simp [repeated]
  | succ count ih =>
      calc
        repeated text (count + 2) = text ++ repeated text count ++ text :=
          congrArg (fun start => start ++ text) ih
        _ = text ++ repeated text (count + 1) := String.append_assoc

theorem newlines_between (count : Nat) :
    (between indent level output).newlines count =
      between indent level (output ++ repeated "\n" count) := by
  induction count generalizing output with
  | zero => simp [newlines, repeated]
  | succ count ih => rw [newlines, newline_between, ih, repeated_succ, String.append_assoc]

theorem writeBlock_between (block : Block) :
    (between indent level output).writeBlock block =
      between indent level (output ++ blockText indent level block) := by
  induction block generalizing output with
  | nil => simp [writeBlock, blockText]
  | cons line rest ih =>
      rw [writeBlock, writeAt_between, ih, blockText_cons, String.append_assoc]

end Writer

/-! ## Writing the parts -/

namespace GoFile

open Writer

variable {indent output : String}

theorem importText_ne_empty (entry : Import) : importText entry ≠ "" := by
  have quoted : literal entry.path ≠ "" := by
    rw [ne_eq, ← String.toList_eq_nil_iff, literal, String.toList_ofList]
    exact List.cons_ne_nil _ _
  unfold importText
  split
  · intro none
    exact quoted (String.append_eq_empty_iff.mp none).2
  · exact quoted

theorem writeHeader_between (header : String) :
    writeHeader header (between indent 0 output) =
      between indent 0 (output ++ headerText header) := by
  unfold writeHeader headerText
  split
  · simp
  · next nonempty =>
      rw [writeLine_between, newline_between, lineText, if_neg nonempty]
      simp [repeated, String.append_assoc]

theorem writeGroup_between (group : List Import) :
    writeGroup (between indent 1 output) group =
      between indent 1 (output ++ groupText indent group) := by
  unfold writeGroup
  induction group generalizing output with
  | nil => simp [groupText]
  | cons entry rest ih =>
      rw [List.foldl_cons, writeLine_between, ih, lineText, if_neg (importText_ne_empty entry),
        groupText, groupText, List.map_cons, String.join_cons, String.append_assoc]
      simp [repeated]

theorem writeGroups_between (groups : List (List Import)) :
    writeGroups (between indent 1 output) groups =
      between indent 1 (output ++ joined "\n" (groups.map (groupText indent))) := by
  induction groups generalizing output with
  | nil => simp [writeGroups, joined]
  | cons group rest ih =>
      cases rest with
      | nil => exact writeGroup_between group
      | cons next others =>
          rw [writeGroups, writeGroup_between, newline_between, ih]
          simp [joined, String.append_assoc]

theorem writeImports_between (groups : List (List Import)) :
    writeImports (between indent 0 output) groups =
      between indent 0 (output ++ importsText indent groups) := by
  unfold writeImports importsText
  simp only [List.isEmpty_iff]
  split
  · simp
  · rw [newline_between, writeLine_between, deeper_between, writeGroups_between,
      shallower_between, writeLine_between]
    simp [lineText, repeated, String.append_assoc]

theorem writeDecls_between (layout : Layout) (decls : List Decl) :
    writeDecls layout.blankLines (between layout.indent 0 output) decls =
      between layout.indent 0 (output ++ String.join (decls.map (declText layout))) := by
  unfold writeDecls
  induction decls generalizing output with
  | nil => simp
  | cons decl rest ih =>
      rw [List.foldl_cons, newlines_between, writeBlock_between, ih, List.map_cons,
        String.join_cons, declText, String.append_assoc, String.append_assoc, String.append_assoc]

/-! ## Whole files -/

theorem render_eq_append (file : GoFile) (layout : Layout) :
    file.render layout =
      headerText file.header ++ ("package " ++ file.package ++ "\n") ++
        importsText layout.indent file.imports ++
        String.join (file.decls.map (declText layout)) := by
  have started : Writer.start layout.indent = between layout.indent 0 "" := rfl
  have package : lineText layout.indent 0 ("package " ++ file.package) =
      "package " ++ file.package ++ "\n" := by
    simp [lineText, repeated]
  simp only [render, started, writeHeader_between, writeLine_between, writeImports_between,
    writeDecls_between, package, String.empty_append]
  rfl

/-- A block at the outermost level without empty lines has the text it is rendered to by
itself. -/
theorem blockText_eq_render (indent : String) {block : Block}
    (full : ∀ line ∈ block, line.text ≠ "") :
    blockText indent 0 block = Code.render indent block := by
  induction block with
  | nil => rfl
  | cons line rest ih =>
      have first := full line List.mem_cons_self
      have later := ih fun other member => full other (List.mem_cons_of_mem line member)
      rw [blockText_cons, later, lineText, if_neg first, Nat.zero_add]
      rfl

/-- The text of a file is its header, its package, its imports and its declarations, one
after the other.  A declaration without empty lines is written as its lines are rendered
by themselves, after its empty lines and whatever the file has before it. -/
theorem render_part_by_part (file : GoFile) (layout : Layout) :
    file.render layout =
      headerText file.header ++ ("package " ++ file.package ++ "\n") ++
        importsText layout.indent file.imports ++
        String.join (file.decls.map (declText layout)) ∧
    ∀ before decl after, file.decls = before ++ decl :: after →
      (∀ line ∈ decl.lines, line.text ≠ "") →
      file.render layout =
        GoFile.render { file with decls := before } layout ++
          repeated "\n" layout.blankLines ++ Code.render layout.indent decl.lines ++
          String.join (after.map (declText layout)) := by
  refine ⟨render_eq_append file layout, ?_⟩
  intro before decl after listed full
  rw [render_eq_append, render_eq_append, listed, List.map_append, List.map_cons,
    String.join_append, String.join_cons, declText, blockText_eq_render layout.indent full]
  simp only [String.append_assoc]

end GoFile

end NamedQuery.Code

namespace NamedQuery.Users

open Code Text

def store : Decl := .struct "Store" [⟨"users", .slice (.named "User")⟩]

def nothing : Decl := .struct "Nothing" []

/-- A file with two declarations, and with a group of imports that is empty. -/
def storeFile : GoFile :=
  ⟨"// Users.", "user", [[.plain "context"], [], [⟨some "b", "example.com/bson"⟩]],
    [store, nothing]⟩

theorem store_then_nothing :
    storeFile.render ⟨"  ", 2⟩ =
      "// Users.\n\npackage user\n\n" ++
        "import (\n  \"context\"\n\n  b \"example.com/bson\"\n)\n" ++
        "\n\ntype Store struct " ++ openBrace ++ "\n  users []User\n" ++ closeBrace ++ "\n" ++
        "\n\ntype Nothing struct " ++ openBrace ++ "\n" ++ closeBrace ++ "\n" ∧
    storeFile.render ⟨"  ", 2⟩ =
      GoFile.render { storeFile with decls := [store] } ⟨"  ", 2⟩ ++ repeated "\n" 2 ++
        Code.render "  " nothing.lines := by
  obtain ⟨whole, written⟩ := GoFile.render_part_by_part storeFile ⟨"  ", 2⟩
  have full : ∀ line ∈ nothing.lines, line.text ≠ "" := by
    intro line member
    have listed : line ∈ [⟨0, "type Nothing struct " ++ openBrace⟩, ⟨0, closeBrace⟩] := member
    simp only [List.mem_cons, List.not_mem_nil, or_false] at listed
    rcases listed with rfl | rfl <;> decide
  refine ⟨?_, ?_⟩
  · rw [whole]
    decide +kernel
  · simpa using written [store] nothing [] rfl full

end NamedQuery.Users
