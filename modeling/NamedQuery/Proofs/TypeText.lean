import Mathlib.Data.List.Basic
import NamedQuery.GoType

/-!
# Types and their texts

The text of a type starts with a word, which is empty for a pointer and a slice.  The
word and the character after it tell how the type is put together, and the type ends
where the text does, or before a comma or a closing bracket.  So no two types have the
same text, as long as the names in them are free of the characters that types are put
together with.
-/

namespace NamedQuery

namespace GoType

open Text

/-! ## Names -/

mutual

/-- The names that the type is written with, those of packages included. -/
def names : GoType → List String
  | .named name => [name]
  | .qualified package name => [package, name]
  | .pointer target => target.names
  | .slice element => element.names
  | .map key value => key.names ++ value.names
  | .emptyInterface => []
  | .func params results => namesOfAll params ++ namesOfAll results

def namesOfAll : List GoType → List String
  | [] => []
  | type :: rest => type.names ++ namesOfAll rest

end

/-- The characters that types are put together with. -/
def marks : List Char := ['*', '[', ']', '(', ')', ',', ' ', '.', '{', '}']

/-- A text that may be a name: it has characters, and all of them are letters, digits,
underscores or others that types are not put together with. -/
structure IsName (name : String) : Prop where
  nonempty : name ≠ ""
  unmarked : ∀ c ∈ name.toList, c ∉ marks

instance (name : String) : Decidable (IsName name) :=
  decidable_of_iff (name ≠ "" ∧ (name.toList.all fun c => !marks.contains c) = true)
    ⟨fun ⟨nonempty, unmarked⟩ => ⟨nonempty, by simpa using unmarked⟩,
      fun isName => ⟨isName.nonempty, by simpa using isName.unmarked⟩⟩

/-- A text of letters, digits and underscores is a name. -/
theorem isName_of_letters {name : String} (nonempty : name ≠ "")
    (letters : (name.toList.all fun c => c.isAlphanum || c = '_') = true) : IsName name := by
  refine ⟨nonempty, ?_⟩
  intro c member mark
  have letter := List.all_eq_true.mp letters c member
  simp only [marks, List.mem_cons, List.not_mem_nil, or_false] at mark
  rcases mark with rfl | rfl | rfl | rfl | rfl | rfl | rfl | rfl | rfl | rfl <;> cases letter

/-- All names in the type are names. -/
def WellNamed (type : GoType) : Prop := ∀ name ∈ type.names, IsName name

theorem wellNamed_map_iff {key value : GoType} :
    (map key value).WellNamed ↔ key.WellNamed ∧ value.WellNamed :=
  List.forall_mem_append

theorem forall_mem_namesOfAll_iff {types : List GoType} :
    (∀ name ∈ namesOfAll types, IsName name) ↔ ∀ type ∈ types, type.WellNamed := by
  induction types with
  | nil => simp [namesOfAll]
  | cons type rest ih =>
      rw [namesOfAll, List.forall_mem_append, ih, List.forall_mem_cons]
      rfl

theorem wellNamed_func_iff {params results : List GoType} :
    (func params results).WellNamed ↔
      (∀ type ∈ params, type.WellNamed) ∧ ∀ type ∈ results, type.WellNamed := by
  rw [WellNamed, names, List.forall_mem_append, forall_mem_namesOfAll_iff,
    forall_mem_namesOfAll_iff]

/-! ## The start of a text -/

/-- The word that the text of a type starts with. -/
def leadingWord : GoType → String
  | .named name => name
  | .qualified package _ => package
  | .pointer _ | .slice _ => ""
  | .map .. => "map"
  | .emptyInterface => "interface"
  | .func .. => "func"

/-- Types in a list, with commas between them. -/
def listText (types : List GoType) : List Char := (joined ", " (texts types)).toList

/-- The text of a type after its leading word. -/
def afterWord : GoType → List Char
  | .named _ => []
  | .qualified _ name => '.' :: name.toList
  | .pointer target => '*' :: target.text.toList
  | .slice element => '[' :: ']' :: element.text.toList
  | .map key value => '[' :: (key.text.toList ++ ']' :: value.text.toList)
  | .emptyInterface => ['{', '}']
  | .func params results =>
      '(' :: (listText params ++ ')' :: (resultText (texts results)).toList)

theorem toList_text (type : GoType) :
    type.text.toList = type.leadingWord.toList ++ type.afterWord := by
  cases type <;> simp [text, leadingWord, afterWord, listText]

theorem unmarked_leadingWord {type : GoType} (wellNamed : type.WellNamed) :
    ∀ c ∈ type.leadingWord.toList, c ∉ marks := by
  cases type with
  | named name => exact (wellNamed name List.mem_cons_self).unmarked
  | qualified package name => exact (wellNamed package List.mem_cons_self).unmarked
  | pointer target => exact fun c member => nomatch member
  | slice element => exact fun c member => nomatch member
  | map key value => exact (by decide : IsName "map").unmarked
  | emptyInterface => exact (by decide : IsName "interface").unmarked
  | func params results => exact (by decide : IsName "func").unmarked

/-- The characters that may follow a type. -/
def closers : List Char := [',', ')', ']']

/-- What may stand after a type: nothing, or a text that starts with a closer. -/
def Ends (rest : List Char) : Prop := ∀ c ∈ rest.head?, c ∈ closers

/-- What may stand after a word: nothing, or a text that starts with a mark. -/
def Stops (rest : List Char) : Prop := ∀ c ∈ rest.head?, c ∈ marks

theorem Ends.stops {rest : List Char} (ends : Ends rest) : Stops rest := by
  intro c first
  have closer := ends c first
  simp only [closers, List.mem_cons, List.not_mem_nil, or_false] at closer
  rcases closer with rfl | rfl | rfl <;> decide

/-- A text is cut in one way into characters that are no marks and a rest that starts
with a mark. -/
theorem append_inj_of_stops {word other rest after : List Char}
    (unmarked : ∀ c ∈ word, c ∉ marks) (otherUnmarked : ∀ c ∈ other, c ∉ marks)
    (stops : Stops rest) (otherStops : Stops after) (same : word ++ rest = other ++ after) :
    word = other ∧ rest = after := by
  induction word generalizing other with
  | nil =>
      cases other with
      | nil => exact ⟨rfl, same⟩
      | cons c others =>
          rw [List.nil_append, List.cons_append] at same
          exact absurd (stops c (by rw [same]; rfl)) (otherUnmarked c List.mem_cons_self)
  | cons c others ih =>
      cases other with
      | nil =>
          rw [List.nil_append, List.cons_append] at same
          exact absurd (otherStops c (by rw [← same]; rfl)) (unmarked c List.mem_cons_self)
      | cons d further =>
          obtain ⟨rfl, later⟩ := List.cons.inj same
          obtain ⟨rfl, rests⟩ := ih
            (fun e member => unmarked e (List.mem_cons_of_mem c member))
            (fun e member => otherUnmarked e (List.mem_cons_of_mem c member)) later
          exact ⟨rfl, rests⟩

/-- The characters that open what stands after a leading word. -/
def openers : List Char := ['.', '*', '[', '(', '{']

theorem mem_openers {type : GoType} {c : Char} {others : List Char}
    (found : type.afterWord = c :: others) : c ∈ openers := by
  cases type <;> cases found <;> decide

theorem mem_marks_of_mem_openers : ∀ c ∈ openers, c ∈ marks := by
  simp [openers, marks]

theorem not_mem_closers_of_mem_openers : ∀ c ∈ openers, c ∉ closers := by
  simp [openers, closers]

theorem stops_afterWord (type : GoType) {rest : List Char} (ends : Ends rest) :
    Stops (type.afterWord ++ rest) := by
  cases found : type.afterWord with
  | nil => exact ends.stops
  | cons c others =>
      intro d first
      cases first
      exact mem_marks_of_mem_openers c (mem_openers found)

/-- A text that goes on after the leading word does not end there. -/
theorem not_ends_afterWord {type : GoType} (further : type.afterWord ≠ []) (rest : List Char) :
    ¬ Ends (type.afterWord ++ rest) := by
  intro ends
  obtain ⟨c, others, found⟩ := List.exists_cons_of_ne_nil further
  rw [found] at ends
  exact not_mem_closers_of_mem_openers c (mem_openers found) (ends c rfl)

/-- Two types whose texts start alike have the same leading word, and the same character
after it. -/
structure SameStart (type other : GoType) (rest after : List Char) : Prop where
  word : type.leadingWord = other.leadingWord
  mark : type.afterWord.head? = other.afterWord.head?
  later : type.afterWord ++ rest = other.afterWord ++ after

theorem sameStart {type other : GoType} {rest after : List Char} (wellNamed : type.WellNamed)
    (otherNamed : other.WellNamed) (ends : Ends rest) (otherEnds : Ends after)
    (same : type.text.toList ++ rest = other.text.toList ++ after) :
    SameStart type other rest after := by
  rw [toList_text, toList_text, List.append_assoc, List.append_assoc] at same
  obtain ⟨word, later⟩ := append_inj_of_stops (unmarked_leadingWord wellNamed)
    (unmarked_leadingWord otherNamed) (stops_afterWord type ends)
    (stops_afterWord other otherEnds) same
  refine ⟨String.toList_inj.mp word, ?_, later⟩
  -- Where only one of the types goes on, the rest of the other starts with an opener.
  by_cases last : type.afterWord = []
  · by_cases otherLast : other.afterWord = []
    · rw [last, otherLast]
    · rw [last, List.nil_append] at later
      exact absurd (later ▸ ends) (not_ends_afterWord otherLast after)
  · by_cases otherLast : other.afterWord = []
    · rw [otherLast, List.nil_append] at later
      exact absurd (later.symm ▸ otherEnds) (not_ends_afterWord last rest)
    · have heads := congrArg List.head? later
      rwa [List.head?_append_of_ne_nil _ last, List.head?_append_of_ne_nil _ otherLast] at heads

/-! ## Types that are determined by their texts -/

/-- No other type has a text that starts with the text of the type and ends as it does. -/
def Determined (type : GoType) : Prop :=
  ∀ (other : GoType) {rest after : List Char}, type.WellNamed → other.WellNamed →
    Ends rest → Ends after → type.text.toList ++ rest = other.text.toList ++ after →
    type = other ∧ rest = after

theorem determined_named (name : String) : (named name).Determined := by
  intro other rest after wellNamed otherNamed ends otherEnds same
  obtain ⟨word, mark, later⟩ := sameStart wellNamed otherNamed ends otherEnds same
  cases other with
  | named otherName => exact ⟨congrArg named word, later⟩
  | _ => cases mark

theorem determined_qualified (package name : String) : (qualified package name).Determined := by
  intro other rest after wellNamed otherNamed ends otherEnds same
  obtain ⟨word, mark, later⟩ := sameStart wellNamed otherNamed ends otherEnds same
  cases other with
  | qualified otherPackage otherName =>
      have isName := wellNamed name (List.mem_cons_of_mem package List.mem_cons_self)
      have otherIsName := otherNamed otherName (List.mem_cons_of_mem _ List.mem_cons_self)
      simp only [afterWord, List.cons_append, List.cons.injEq, true_and] at later
      obtain ⟨spelled, rests⟩ := append_inj_of_stops isName.unmarked otherIsName.unmarked
        ends.stops otherEnds.stops later
      exact ⟨congrArg₂ qualified word (String.toList_inj.mp spelled), rests⟩
  | _ => simp [afterWord] at mark

theorem determined_pointer {target : GoType} (determined : target.Determined) :
    (pointer target).Determined := by
  intro other rest after wellNamed otherNamed ends otherEnds same
  obtain ⟨-, mark, later⟩ := sameStart wellNamed otherNamed ends otherEnds same
  cases other with
  | pointer otherTarget =>
      simp only [afterWord, List.cons_append, List.cons.injEq, true_and] at later
      obtain ⟨same, rests⟩ := determined otherTarget wellNamed otherNamed ends otherEnds later
      exact ⟨congrArg pointer same, rests⟩
  | _ => simp [afterWord] at mark

theorem determined_slice {element : GoType} (determined : element.Determined) :
    (slice element).Determined := by
  intro other rest after wellNamed otherNamed ends otherEnds same
  obtain ⟨word, mark, later⟩ := sameStart wellNamed otherNamed ends otherEnds same
  cases other with
  | slice otherElement =>
      simp only [afterWord, List.cons_append, List.cons.injEq, true_and] at later
      obtain ⟨same, rests⟩ := determined otherElement wellNamed otherNamed ends otherEnds later
      exact ⟨congrArg slice same, rests⟩
  | map otherKey otherValue => simp [leadingWord] at word
  | _ => simp [afterWord] at mark

theorem ends_cons {c : Char} (closer : c ∈ closers) (rest : List Char) : Ends (c :: rest) := by
  intro d first
  cases first
  exact closer

theorem determined_map {key value : GoType} (keyDetermined : key.Determined)
    (valueDetermined : value.Determined) : (map key value).Determined := by
  intro other rest after wellNamed otherNamed ends otherEnds same
  obtain ⟨word, mark, later⟩ := sameStart wellNamed otherNamed ends otherEnds same
  cases other with
  | map otherKey otherValue =>
      rw [wellNamed_map_iff] at wellNamed otherNamed
      simp only [afterWord, List.cons_append, List.append_assoc, List.cons.injEq, true_and] at later
      obtain ⟨rfl, closed⟩ := keyDetermined otherKey wellNamed.1 otherNamed.1
        (ends_cons (by decide) _) (ends_cons (by decide) _) later
      obtain ⟨rfl, rests⟩ := valueDetermined otherValue wellNamed.2 otherNamed.2 ends otherEnds
        (List.cons.inj closed).2
      exact ⟨rfl, rests⟩
  | slice otherElement => simp [leadingWord] at word
  | _ => simp [afterWord] at mark

theorem determined_emptyInterface : emptyInterface.Determined := by
  intro other rest after wellNamed otherNamed ends otherEnds same
  obtain ⟨-, mark, later⟩ := sameStart wellNamed otherNamed ends otherEnds same
  cases other with
  | emptyInterface => exact ⟨rfl, (List.cons.inj (List.cons.inj later).2).2⟩
  | _ => simp [afterWord] at mark

/-! ## Lists of types -/

/-- The texts of the types after the first of a list. -/
def following : List GoType → List Char
  | [] => []
  | type :: rest => ',' :: ' ' :: (type.text.toList ++ following rest)

theorem listText_cons (type : GoType) (rest : List GoType) :
    listText (type :: rest) = type.text.toList ++ following rest := by
  induction rest generalizing type with
  | nil => simp [listText, following, texts, joined]
  | cons next others ih =>
      have later := ih next
      rw [following, ← later]
      simp [listText, texts, joined]

theorem ends_following (types : List GoType) (rest : List Char) :
    Ends (following types ++ ')' :: rest) := by
  cases types with
  | nil => exact ends_cons (by decide) rest
  | cons type others => exact ends_cons (by decide) _

variable {types others : List GoType} {rest after : List Char}

theorem following_inj (determined : ∀ type ∈ types, type.Determined)
    (wellNamed : ∀ type ∈ types, type.WellNamed) (otherNamed : ∀ type ∈ others, type.WellNamed)
    (same : following types ++ ')' :: rest = following others ++ ')' :: after) :
    types = others ∧ rest = after := by
  induction types generalizing others with
  | nil =>
      cases others with
      | nil => exact ⟨rfl, (List.cons.inj same).2⟩
      | cons other further => simp [following] at same
  | cons type later ih =>
      cases others with
      | nil => simp [following] at same
      | cons other further =>
          simp only [following, List.cons_append, List.append_assoc, List.cons.injEq, true_and]
            at same
          obtain ⟨rfl, tails⟩ := determined type List.mem_cons_self other
            (wellNamed type List.mem_cons_self) (otherNamed other List.mem_cons_self)
            (ends_following later rest) (ends_following further after) same
          obtain ⟨rfl, rests⟩ := ih
            (fun next member => determined next (List.mem_cons_of_mem _ member))
            (fun next member => wellNamed next (List.mem_cons_of_mem _ member))
            (fun next member => otherNamed next (List.mem_cons_of_mem _ member)) tails
          exact ⟨rfl, rests⟩

/-- A text does not start with a round bracket, and it is not empty. -/
theorem exists_first {type : GoType} (wellNamed : type.WellNamed) :
    ∃ c others, type.text.toList = c :: others ∧ c ≠ '(' ∧ c ≠ ')' := by
  rw [toList_text]
  cases found : type.leadingWord.toList with
  | cons c others =>
      have unmarked : c ∉ marks := by
        refine unmarked_leadingWord wellNamed c ?_
        rw [found]
        exact List.mem_cons_self
      refine ⟨c, others ++ type.afterWord, rfl, ?_, ?_⟩
      · rintro rfl
        exact unmarked (by decide)
      · rintro rfl
        exact unmarked (by decide)
  | nil =>
      rw [String.toList_eq_nil_iff] at found
      cases type with
      | named name => exact absurd found (wellNamed name List.mem_cons_self).nonempty
      | qualified package name => exact absurd found (wellNamed package List.mem_cons_self).nonempty
      | pointer target => exact ⟨'*', _, rfl, by decide, by decide⟩
      | slice element => exact ⟨'[', _, rfl, by decide, by decide⟩
      | _ => simp [leadingWord] at found

theorem listText_inj (determined : ∀ type ∈ types, type.Determined)
    (wellNamed : ∀ type ∈ types, type.WellNamed) (otherNamed : ∀ type ∈ others, type.WellNamed)
    (same : listText types ++ ')' :: rest = listText others ++ ')' :: after) :
    types = others ∧ rest = after := by
  cases types with
  | nil =>
      cases others with
      | nil => exact ⟨rfl, (List.cons.inj same).2⟩
      | cons other further =>
          obtain ⟨c, text, found, -, notClosing⟩ :=
            exists_first (otherNamed other List.mem_cons_self)
          rw [listText_cons, found] at same
          exact absurd (List.cons.inj same).1.symm notClosing
  | cons type later =>
      cases others with
      | nil =>
          obtain ⟨c, text, found, -, notClosing⟩ :=
            exists_first (wellNamed type List.mem_cons_self)
          rw [listText_cons, found] at same
          exact absurd (List.cons.inj same).1 notClosing
      | cons other further =>
          rw [listText_cons, listText_cons, List.append_assoc, List.append_assoc] at same
          obtain ⟨rfl, tails⟩ := determined type List.mem_cons_self other
            (wellNamed type List.mem_cons_self) (otherNamed other List.mem_cons_self)
            (ends_following later rest) (ends_following further after) same
          obtain ⟨rfl, rests⟩ := following_inj
            (fun next member => determined next (List.mem_cons_of_mem _ member))
            (fun next member => wellNamed next (List.mem_cons_of_mem _ member))
            (fun next member => otherNamed next (List.mem_cons_of_mem _ member)) tails
          exact ⟨rfl, rests⟩

/-! ## Results -/

theorem toList_resultText_single (type : GoType) :
    (resultText (texts [type])).toList = ' ' :: type.text.toList := by
  simp [texts, resultText]

theorem toList_resultText_several (first second : GoType) (more : List GoType) :
    (resultText (texts (first :: second :: more))).toList =
      ' ' :: '(' :: (listText (first :: second :: more) ++ [')']) := by
  simp [texts, resultText, listText]

/-- Results are written after a space, which ends no type. -/
theorem not_ends_resultText (nonempty : types ≠ []) (rest : List Char) :
    ¬ Ends ((resultText (texts types)).toList ++ rest) := by
  intro ends
  have space : ((resultText (texts types)).toList ++ rest).head? = some ' ' := by
    match types with
    | [only] => rw [toList_resultText_single]; rfl
    | first :: second :: more => rw [toList_resultText_several]; rfl
  exact absurd (ends ' ' space) (by decide)

/-- A single result has no bracket, so it differs from several ones. -/
theorem single_ne_several {type : GoType} (wellNamed : type.WellNamed) (first second : GoType)
    (more : List GoType) (rest after : List Char) :
    (resultText (texts [type])).toList ++ rest ≠
      (resultText (texts (first :: second :: more))).toList ++ after := by
  intro same
  obtain ⟨c, text, found, notOpening, -⟩ := exists_first wellNamed
  rw [toList_resultText_single, toList_resultText_several, found] at same
  exact notOpening (List.cons.inj (List.cons.inj same).2).1

theorem resultText_inj (determined : ∀ type ∈ types, type.Determined)
    (wellNamed : ∀ type ∈ types, type.WellNamed) (otherNamed : ∀ type ∈ others, type.WellNamed)
    (ends : Ends rest) (otherEnds : Ends after)
    (same : (resultText (texts types)).toList ++ rest =
      (resultText (texts others)).toList ++ after) : types = others ∧ rest = after := by
  match types, others with
  | [], [] => exact ⟨rfl, same⟩
  | [], other :: further =>
      exact absurd (same ▸ ends) (not_ends_resultText (List.cons_ne_nil other further) after)
  | type :: later, [] =>
      exact absurd (same.symm ▸ otherEnds) (not_ends_resultText (List.cons_ne_nil type later) rest)
  | [type], [other] =>
      rw [toList_resultText_single, toList_resultText_single] at same
      obtain ⟨rfl, rests⟩ := determined type List.mem_cons_self other
        (wellNamed type List.mem_cons_self) (otherNamed other List.mem_cons_self) ends otherEnds
        (List.cons.inj same).2
      exact ⟨rfl, rests⟩
  | [type], first :: second :: more =>
      exact absurd same
        (single_ne_several (wellNamed type List.mem_cons_self) first second more rest after)
  | first :: second :: more, [other] =>
      exact absurd same.symm
        (single_ne_several (otherNamed other List.mem_cons_self) first second more after rest)
  | first :: second :: more, other :: next :: further =>
      rw [toList_resultText_several, toList_resultText_several] at same
      simp only [List.cons_append, List.append_assoc, List.nil_append, List.cons.injEq,
        true_and] at same
      exact listText_inj determined wellNamed otherNamed same

theorem determined_func {params results : List GoType}
    (paramsDetermined : ∀ type ∈ params, type.Determined)
    (resultsDetermined : ∀ type ∈ results, type.Determined) :
    (func params results).Determined := by
  intro other rest after wellNamed otherNamed ends otherEnds same
  obtain ⟨-, mark, later⟩ := sameStart wellNamed otherNamed ends otherEnds same
  cases other with
  | func otherParams otherResults =>
      rw [wellNamed_func_iff] at wellNamed otherNamed
      simp only [afterWord, List.cons_append, List.append_assoc, List.cons.injEq, true_and] at later
      obtain ⟨rfl, closed⟩ := listText_inj paramsDetermined wellNamed.1 otherNamed.1 later
      obtain ⟨rfl, rests⟩ := resultText_inj resultsDetermined wellNamed.2 otherNamed.2 ends
        otherEnds closed
      exact ⟨rfl, rests⟩
  | _ => simp [afterWord] at mark

/-! ## All types -/

mutual

/-- Every type is determined, by the structure of the type. -/
theorem determined : ∀ type : GoType, type.Determined
  | .named name => determined_named name
  | .qualified package name => determined_qualified package name
  | .pointer target => determined_pointer (determined target)
  | .slice element => determined_slice (determined element)
  | .map key value => determined_map (determined key) (determined value)
  | .emptyInterface => determined_emptyInterface
  | .func params results => determined_func (determined_of_mem params) (determined_of_mem results)

theorem determined_of_mem : ∀ types : List GoType, ∀ type ∈ types, type.Determined
  | [], _, member => nomatch member
  | first :: rest, type, member => by
      rcases List.mem_cons.mp member with same | later
      · rw [same]
        exact determined first
      · exact determined_of_mem rest type later

end

/-- Two types with the same text are the same type, when their names are not empty and
have no characters that types are put together with. -/
theorem eq_of_text_eq {type other : GoType} (wellNamed : type.WellNamed)
    (otherNamed : other.WellNamed) (same : type.text = other.text) : type = other := by
  have ends : Ends [] := fun c first => nomatch first
  exact (determined type other wellNamed otherNamed ends ends (by rw [same])).1

end GoType

namespace Users

/-- A function that takes a function and gives one back. -/
def watcher : GoType :=
  .func [.context, .func [.pointer (.named "User")] [.named "bool"]] [.func [] [], .error]

theorem wellNamed_watcher : watcher.WellNamed := by
  intro name member
  have listed : name ∈ ["context", "Context", "User", "bool", "error"] := member
  simp only [List.mem_cons, List.not_mem_nil, or_false] at listed
  rcases listed with rfl | rfl | rfl | rfl | rfl <;>
    exact GoType.isName_of_letters (by decide) rfl

theorem watcher_of_text :
    watcher.text = "func(context.Context, func(*User) bool) (func(), error)" ∧
      watcher = .func [.qualified "context" "Context",
        .func [.pointer (.named "User")] [.named "bool"]] [.func [] [], .named "error"] := by
  refine ⟨by decide +kernel, ?_⟩
  exact GoType.eq_of_text_eq wellNamed_watcher wellNamed_watcher rfl

end Users

end NamedQuery
