import NamedQuery.MethodName.Clause
import NamedQuery.MethodName.Results
import NamedQuery.Text.Basic

/-!
# The operation that a method name spells

    method  ::= Insert [One | Many]
              | Find [One] [Top<N>] query [Order By sorts]
              | Update [fields] query
              | Delete query
              | Count query
    query   ::= All | By predicate ((And | Or) predicate)*
    sorts   ::= key (And key)*            key ::= field [Asc | Desc]
    fields  ::= field [Push | Inc] (And field [Push | Inc])*

The results of the method are looked at first, then the words from left to
right.  The first parameter is at position 1, after the context.
-/

namespace NamedQuery

open Text

namespace Entity

/-- The position of the first parameter after the context. -/
def firstSlot : Nat := 1

/-! ## Insert -/

/-- The mode that the words after `Insert` ask for, if any. -/
def insertModifier : List String → Except MethodError (Option Mode)
  | [] => .ok none
  | [word] =>
      if word = Keyword.one.spelling then .ok (some .one)
      else if word = Keyword.many.spelling then .ok (some .many)
      else .error (.invalidQuery (spell [word]))
  | words => .error (.invalidQuery (spell words))

def readInsert (entity : Entity) (results : List GoType) (words : List String) :
    Except MethodError Operation := do
  let mode ← OperationKind.insert.resultMode entity.struct results
  let modifier ← insertModifier words
  if modifier = none ∨ modifier = some mode then
    .ok (.insert mode)
  else
    .error (.unsupportedReturn .insert results)

/-! ## Find -/

/-- The words after an optional `One`, which asks for a method of one document. -/
def afterOne (results : List GoType) (mode : Mode) : List String → Except MethodError (List String)
  | [] => .ok []
  | word :: rest =>
      if word = Keyword.one.spelling then
        if mode = .one then .ok rest else .error (.unsupportedReturn .find results)
      else
        .ok (word :: rest)

/-- The digits of a word `Top<N>`.  A word such as `Topic` is none. -/
def limitDigits? (word : String) : Option (List Char) :=
  match (Keyword.afterTop? word).map String.toList with
  | some [] => some []
  | some (c :: rest) => if isDigit c then some (c :: rest) else none
  | none => none

/-- The largest limit. -/
def limitBound : Nat := Nat.pow 2 64 - 1

/-- The limit that digits stand for: a positive number of 64 bits. -/
def limitOf? (digits : List Char) : Option Nat :=
  if digits ≠ [] ∧ digits.all isDigit then
    if 0 < numeral digits ∧ numeral digits ≤ limitBound then some (numeral digits) else none
  else
    none

/-- The limit of an optional `Top<N>`, which asks for a method of many
documents, and the words after it. -/
def afterLimit (results : List GoType) (mode : Mode) :
    List String → Except MethodError (Option Nat × List String)
  | [] => .ok (none, [])
  | word :: rest =>
      match limitDigits? word with
      | none => .ok (none, word :: rest)
      | some digits =>
          if mode = .one then
            .error (.unsupportedReturn .find results)
          else
            match limitOf? digits with
            | some limit => .ok (some limit, rest)
            | none => .error (.invalidLimit word)

/-- The words before the first `Order By`, and those after it. -/
def splitOrder : List String → List String × Option (List String)
  | [] => ([], none)
  | [word] => ([word], none)
  | word :: next :: rest =>
      if word = Keyword.order.spelling ∧ next = Keyword.byClause.spelling then
        ([], some rest)
      else
        let (before, after) := splitOrder (next :: rest)
        (word :: before, after)

def readFind (entity : Entity) (results : List GoType) (words : List String) :
    Except MethodError Operation := do
  let mode ← OperationKind.find.resultMode entity.struct results
  let words ← afterOne results mode words
  let (limit, words) ← afterLimit results mode words
  let (before, after) := splitOrder words
  let query ← entity.readQuery firstSlot before
  match after with
  | none => .ok (.find mode query [] limit)
  | some words => do
      let sorts ← entity.readSorts words
      .ok (.find mode query sorts limit)

/-! ## Update -/

/-- Whether a query starts at a word. -/
def startsQuery (word : String) : Bool :=
  word = Keyword.byClause.spelling || word = Keyword.allClause.spelling

def readUpdate (entity : Entity) (params results : List GoType) (words : List String) :
    Except MethodError Operation := do
  let mode ← OperationKind.update.resultMode entity.struct results
  let (before, after) := words.span fun word => !startsQuery word
  if after.isEmpty then
    .error .queryRequired
  else do
    let change ← entity.readChange params firstSlot before
    let query ← entity.readQuery (firstSlot + change.arity) after
    .ok (.update change mode query)

/-! ## All operations -/

def readDelete (entity : Entity) (results : List GoType) (words : List String) :
    Except MethodError Operation := do
  let mode ← OperationKind.delete.resultMode entity.struct results
  let query ← entity.readQuery firstSlot words
  .ok (.delete mode query)

def readCount (entity : Entity) (results : List GoType) (words : List String) :
    Except MethodError Operation := do
  let _ ← OperationKind.count.resultMode entity.struct results
  let query ← entity.readQuery firstSlot words
  .ok (.count query)

/-- The operation that a list of words spells for a method. -/
def readOperation (entity : Entity) (params results : List GoType) :
    List String → Except MethodError Operation
  | [] => .error (.unknownOperation "")
  | head :: rest =>
      match OperationKind.ofWord? head with
      | some .insert => entity.readInsert results rest
      | some .find => entity.readFind results rest
      | some .update => entity.readUpdate params results rest
      | some .delete => entity.readDelete results rest
      | some .count => entity.readCount results rest
      | none => .error (.unknownOperation head)

end Entity

end NamedQuery
