import NamedQuery.Proofs.Failure
import NamedQuery.Proofs.FieldSplit
import NamedQuery.Proofs.Predicates

/-!
# What the faults of a method quote

Six faults carry a text.  For every method that has no plan, that text is spelled by
words that follow each other in the name of the method, so it can be found in the name.
The words of a field that is not found are at least one, none of them joins clauses, and
they lead to no field of the struct in any way.
-/

namespace NamedQuery

/-! ## The runs between separators -/

/-- The first run stands at the start of the list, the others somewhere in it, and no
run has a separator. -/
theorem splitOnP_runs {α : Type} (separates : α → Bool) (items : List α) :
    ∃ first others, items.splitOnP separates = first :: others ∧ first <+: items ∧
      (∀ run ∈ others, run <:+: items) ∧
      ∀ run ∈ first :: others, ∀ item ∈ run, separates item = false := by
  induction items with
  | nil =>
      refine ⟨[], [], List.splitOnP_nil, List.prefix_rfl, ?_, ?_⟩
      · simp
      · simp
  | cons head rest ih =>
      obtain ⟨first, others, cut, starts, inside, apart⟩ := ih
      rw [List.splitOnP_cons_eq_if_modifyHead, cut]
      by_cases separator : separates head = true
      · rw [if_pos separator]
        refine ⟨[], first :: others, rfl, List.nil_prefix, ?_, ?_⟩
        · rintro run (_ | ⟨_, later⟩)
          · exact List.infix_cons starts.isInfix
          · exact List.infix_cons (inside run later)
        · rintro run (_ | ⟨_, later⟩)
          · simp
          · exact apart run later
      · -- The head joins the first run, which therefore has to stand at the start.
        rw [if_neg separator]
        refine ⟨head :: first, others, rfl, List.cons_prefix_cons.mpr ⟨rfl, starts⟩, ?_, ?_⟩
        · intro run later
          exact List.infix_cons (inside run later)
        · rintro run (_ | ⟨_, later⟩)
          · rintro item (_ | ⟨_, member⟩)
            · exact Bool.not_eq_true _ ▸ separator
            · exact apart first List.mem_cons_self item member
          · exact apart run (List.mem_cons_of_mem _ later)

theorem infix_of_mem_splitOnP {α : Type} {separates : α → Bool} {items run : List α}
    (member : run ∈ items.splitOnP separates) :
    run <:+: items ∧ ∀ item ∈ run, separates item = false := by
  obtain ⟨first, others, cut, starts, inside, apart⟩ := splitOnP_runs separates items
  rw [cut] at member
  refine ⟨?_, apart run member⟩
  rcases List.mem_cons.mp member with rfl | later
  · exact starts.isInfix
  · exact inside run later

/-- A run between separators is part of the words and has no separator. -/
theorem infix_of_mem_runs {separator : String} {words run : List String}
    (member : run ∈ runs separator words) : run <:+: words ∧ separator ∉ run := by
  rw [runs_eq_splitOn] at member
  obtain ⟨inside, apart⟩ := infix_of_mem_splitOnP member
  refine ⟨inside, ?_⟩
  intro found
  simpa using apart separator found

/-- Words that follow each other spell a part of the text. -/
theorem toList_spell_infix {run words : List String} (inside : run <:+: words) :
    (spell run).toList <:+: (spell words).toList := by
  obtain ⟨before, after, whole⟩ := inside
  refine ⟨(spell before).toList, (spell after).toList, ?_⟩
  rw [← whole, spell_append, spell_append, String.toList_append, String.toList_append]

/-- A comparator leaves a word for the field. -/
theorem Comparator.fieldWords_ne_nil {run : List String} (nonempty : run ≠ []) :
    fieldWords run ≠ [] := by
  have shorter := length_suffix_atEnd_lt nonempty
  intro none
  have whole := fieldWords_append_suffix run
  rw [none, List.nil_append] at whole
  rw [whole] at shorter
  exact Nat.lt_irrefl _ shorter

/-! ## Quoted texts -/

/-- The text of a method name that a fault carries. -/
def MethodError.quoted? : MethodError → Option String
  | .unknownOperation text | .invalidQuery text | .invalidSort text | .invalidLimit text
  | .invalidUpdateFields text | .fieldNotFound text => some text
  | .queryRequired | .unsupportedReturn .. | .contextRequired | .invalidParam ..
  | .incompatibleComparator .. | .incompatibleUpdateOperator .. => none

/-- A result that is no fault with a text. -/
def Silent {α : Type} (result : Except MethodError α) : Prop :=
  ∀ fault, result = .error fault → fault.quoted? = none

namespace Entity

/-- Words for a field that the struct does not have, in whatever way they are split. -/
structure Unnamed (entity : Entity) (run : List String) : Prop where
  nonempty : run ≠ []
  unjoined : "And" ∉ run
  unresolved : ∀ split fields, ¬ entity.schema.Splits entity.struct run split fields

/-- What a fault carries when it arises from the words: no text, or a text that some of
them spell in a row.  That text is a clause against the grammar, or the words for a field
that is not found. -/
inductive Quotes (entity : Entity) (words : List String) : MethodError → Prop where
  | nothing {fault : MethodError} (silent : fault.quoted? = none) : Quotes entity words fault
  | clause {fault : MethodError} {run : List String} (inside : run <:+: words)
      (spelled : fault.quoted? = some (spell run)) (grammar : fault.isGrammar = true) :
      Quotes entity words fault
  | field {run : List String} (inside : run <:+: words) (unnamed : entity.Unnamed run) :
      Quotes entity words (.fieldNotFound (spell run))

variable {entity : Entity} {words : List String} {fault : MethodError}

theorem Quotes.mono {part : List String} (quotes : entity.Quotes part fault)
    (inside : part <:+: words) : entity.Quotes words fault := by
  cases quotes with
  | nothing silent => exact .nothing silent
  | clause within spelled grammar => exact .clause (within.trans inside) spelled grammar
  | field within unnamed => exact .field (within.trans inside) unnamed

theorem quotes_of_silent {α : Type} {result : Except MethodError α} (silent : Silent result)
    (refused : result = .error fault) : entity.Quotes words fault :=
  .nothing (silent fault refused)

theorem quotes_of_resolve {run : List String} (inside : run <:+: words) (nonempty : run ≠ [])
    (unjoined : "And" ∉ run) (refused : entity.resolve run = .error fault) :
    entity.Quotes words fault := by
  obtain ⟨unknown, rfl⟩ := resolve_eq_error_iff.mp refused
  refine .field inside ⟨nonempty, unjoined, ?_⟩
  intro split fields splits
  obtain ⟨path, found⟩ := Option.ne_none_iff_exists'.mp (Schema.path?_ne_none_of_splits splits)
  exact unknown path (resolve_eq_ok_iff.mpr found)

/-! ## Clauses -/

theorem quotes_of_readPredicates {slot : Nat}
    (refused : entity.readPredicates slot words = .error fault) :
    entity.Quotes words fault := by
  obtain ⟨position, found, -⟩ := readPredicates_eq_error_iff.mp refused
  cases found with
  | mixed _ => exact .clause List.infix_rfl rfl rfl
  | empty _ _ => exact .clause List.infix_rfl rfl rfl
  | @unresolved run _ listed nonempty unknown =>
      obtain ⟨inside, apart⟩ := infix_of_mem_splitOnP (List.mem_of_getElem? listed)
      have starts : Comparator.fieldWords run <+: run := List.take_prefix _ _
      refine quotes_of_resolve (starts.isInfix.trans inside)
        (Comparator.fieldWords_ne_nil nonempty) ?_ (resolve_eq_error_iff.mpr ⟨unknown, rfl⟩)
      intro joined
      simpa using apart "And" (starts.subset joined)

theorem quotes_of_readQuery {slot : Nat}
    (refused : entity.readQuery slot words = .error fault) : entity.Quotes words fault := by
  cases words with
  | nil =>
      cases refused
      exact .nothing rfl
  | cons head rest =>
      rw [readQuery] at refused
      split at refused
      · split at refused
        · cases refused
        · cases refused
          exact .clause List.infix_rfl rfl rfl
      · split at refused
        · exact (quotes_of_readPredicates refused).mono (List.suffix_cons head rest).isInfix
        · cases refused
          exact .nothing rfl

/-- The words for the field of a sort key or of an updated field: the start of a run
between two `And`. -/
theorem quotes_of_part {run part : List String}
    (member : run ∈ runs Keyword.and.spelling words) (starts : part <+: run)
    (nonempty : part ≠ []) (refused : entity.resolve part = .error fault) :
    entity.Quotes words fault := by
  obtain ⟨inside, apart⟩ := infix_of_mem_runs member
  exact quotes_of_resolve (starts.isInfix.trans inside) nonempty
    (fun joined => apart (starts.subset joined)) refused

theorem prefix_sortParts (run : List String) : (sortParts run).1 <+: run := by
  obtain ⟨field, whole, parts⟩ | ⟨field, whole, parts⟩ | parts := sortParts_cases run
  · rw [parts, whole]
    exact List.prefix_append _ _
  · rw [parts, whole]
    exact List.prefix_append _ _
  · exact ⟨[], by rw [parts, List.append_nil]⟩

theorem prefix_assignmentParts (run : List String) : (assignmentParts run).1 <+: run :=
  ⟨_, assignmentParts_append run⟩

/-- Sort keys are refused for a key without field words, or for a field. -/
theorem refused_of_readSortKeys {clause : String} {groups : List (List String)}
    (refused : entity.readSortKeys clause groups = .error fault) :
    fault = .invalidSort clause ∨ ∃ run ∈ groups,
      (sortParts run).1 ≠ [] ∧ entity.resolve (sortParts run).1 = .error fault := by
  induction groups with
  | nil => cases refused
  | cons run rest ih =>
      simp only [readSortKeys] at refused
      split at refused
      · cases refused
        exact .inl rfl
      · next named =>
          split at refused
          · next found =>
              cases refused
              exact .inr ⟨run, List.mem_cons_self, by simpa using named, found⟩
          · split at refused
            · next later =>
                cases refused
                refine (ih later).imp_right ?_
                rintro ⟨other, member, found⟩
                exact ⟨other, List.mem_cons_of_mem run member, found⟩
            · cases refused

theorem quotes_of_readSorts (refused : entity.readSorts words = .error fault) :
    entity.Quotes words fault := by
  obtain rfl | ⟨run, member, nonempty, found⟩ := refused_of_readSortKeys refused
  · exact .clause List.infix_rfl rfl rfl
  · exact quotes_of_part member (prefix_sortParts run) nonempty found

/-- Updated fields are refused for one without field words, or for a field. -/
theorem refused_of_readAssignments {clause : String} {slot : Nat} {groups : List (List String)}
    (refused : entity.readAssignments clause slot groups = .error fault) :
    fault = .invalidUpdateFields clause ∨ ∃ run ∈ groups,
      (assignmentParts run).1 ≠ [] ∧ entity.resolve (assignmentParts run).1 = .error fault := by
  induction groups generalizing slot with
  | nil => cases refused
  | cons run rest ih =>
      simp only [readAssignments] at refused
      split at refused
      · cases refused
        exact .inl rfl
      · next named =>
          split at refused
          · next found =>
              cases refused
              exact .inr ⟨run, List.mem_cons_self, by simpa using named, found⟩
          · split at refused
            · next later =>
                cases refused
                refine (ih later).imp_right ?_
                rintro ⟨other, member, found⟩
                exact ⟨other, List.mem_cons_of_mem run member, found⟩
            · cases refused

theorem quotes_of_readChange {params : List GoType} {slot : Nat}
    (refused : entity.readChange params slot words = .error fault) :
    entity.Quotes words fault := by
  unfold readChange at refused
  split at refused
  · split at refused
    · cases refused
    · -- The empty text is spelled by no words at all.
      cases refused
      exact .clause List.nil_infix rfl rfl
  · split at refused
    · next found =>
        cases refused
        obtain rfl | ⟨run, member, nonempty, unknown⟩ := refused_of_readAssignments found
        · exact .clause List.infix_rfl rfl rfl
        · exact quotes_of_part member (prefix_assignmentParts run) nonempty unknown
    · cases refused

/-! ## Operations -/

theorem silent_resultMode (kind : OperationKind) (struct : Struct) (results : List GoType) :
    Silent (kind.resultMode struct results) := by
  intro fault refused
  unfold OperationKind.resultMode at refused
  split at refused
  · cases refused
  · cases refused
    rfl

theorem quotes_of_readInsert {results : List GoType}
    (refused : entity.readInsert results words = .error fault) : entity.Quotes words fault := by
  rcases bind_eq_error_iff.mp refused with shape | ⟨mode, -, afterMode⟩
  · exact quotes_of_silent (silent_resultMode _ _ _) shape
  rcases bind_eq_error_iff.mp afterMode with asked | ⟨modifier, -, decided⟩
  · unfold insertModifier at asked
    split at asked
    · cases asked
    · split at asked
      · cases asked
      · split at asked
        · cases asked
        · cases asked
          exact .clause List.infix_rfl rfl rfl
    · cases asked
      exact .clause List.infix_rfl rfl rfl
  · split at decided
    · cases decided
    · cases decided
      exact .nothing rfl

theorem silent_afterOne (results : List GoType) (mode : Mode) (words : List String) :
    Silent (afterOne results mode words) := by
  intro fault refused
  unfold afterOne at refused
  split at refused
  · cases refused
  · split at refused
    · split at refused
      · cases refused
      · cases refused
        rfl
    · cases refused

theorem quotes_of_afterLimit {results : List GoType} {mode : Mode}
    (refused : afterLimit results mode words = .error fault) : entity.Quotes words fault := by
  unfold afterLimit at refused
  split at refused
  · cases refused
  · next word rest =>
      split at refused
      · cases refused
      · split at refused
        · cases refused
          exact .nothing rfl
        · split at refused
          · cases refused
          · cases refused
            refine .clause (List.prefix_append [word] rest).isInfix ?_ rfl
            rw [spell_singleton]
            rfl

/-- The two parts of a find are among its words. -/
theorem splitOrder_infix (words : List String) :
    (splitOrder words).1 <:+: words ∧
      ∀ keyWords, (splitOrder words).2 = some keyWords → keyWords <:+: words := by
  have whole := splitOrder_append words
  refine ⟨List.IsPrefix.isInfix ⟨_, whole⟩, ?_⟩
  intro keyWords found
  have afterOrder : keyWords <:+ orderWords (some keyWords) :=
    List.suffix_append [Keyword.order.spelling, Keyword.byClause.spelling] keyWords
  rw [found] at whole
  exact (afterOrder.trans ⟨_, whole⟩).isInfix

theorem quotes_of_readFind {results : List GoType}
    (refused : entity.readFind results words = .error fault) : entity.Quotes words fault := by
  rcases bind_eq_error_iff.mp refused with shape | ⟨mode, -, afterMode⟩
  · exact quotes_of_silent (silent_resultMode _ _ _) shape
  rcases bind_eq_error_iff.mp afterMode with single | ⟨later, first, afterFirst⟩
  · exact quotes_of_silent (silent_afterOne _ _ _) single
  obtain ⟨one, -, spelledOne⟩ := afterOne_sound first
  have laterInside : later <:+: words := spelledOne ▸ (List.suffix_append one later).isInfix
  rcases bind_eq_error_iff.mp afterFirst with limited | ⟨⟨limit, rest⟩, second, afterSecond⟩
  · exact (quotes_of_afterLimit limited).mono laterInside
  obtain ⟨top, -, spelledTop⟩ := afterLimit_sound second
  have restInside : rest <:+: words :=
    (spelledTop ▸ (List.suffix_append top rest).isInfix : rest <:+: later).trans laterInside
  obtain ⟨queryInside, keysInside⟩ := splitOrder_infix rest
  rcases bind_eq_error_iff.mp afterSecond with queried | ⟨query, -, last⟩
  · exact (quotes_of_readQuery queried).mono (queryInside.trans restInside)
  split at last
  · cases last
  · next keyWords found =>
      rcases bind_eq_error_iff.mp last with sorted | ⟨sorts, -, done⟩
      · exact (quotes_of_readSorts sorted).mono ((keysInside keyWords found).trans restInside)
      · cases done

theorem quotes_of_readUpdate {params results : List GoType}
    (refused : entity.readUpdate params results words = .error fault) :
    entity.Quotes words fault := by
  rcases bind_eq_error_iff.mp refused with shape | ⟨mode, -, afterMode⟩
  · exact quotes_of_silent (silent_resultMode _ _ _) shape
  rw [List.span_eq_takeWhile_dropWhile] at afterMode
  dsimp only at afterMode
  split at afterMode
  · cases afterMode
    exact .nothing rfl
  rcases bind_eq_error_iff.mp afterMode with changed | ⟨change, -, afterChange⟩
  · exact (quotes_of_readChange changed).mono (List.takeWhile_prefix _).isInfix
  rcases bind_eq_error_iff.mp afterChange with queried | ⟨query, -, done⟩
  · exact (quotes_of_readQuery queried).mono (List.dropWhile_suffix _).isInfix
  · cases done

/-- An operation of nothing but a query. -/
theorem quotes_of_queried {kind : OperationKind} {results : List GoType}
    {made : Mode → Query → Operation}
    (refused : (do
      let mode ← kind.resultMode entity.struct results
      let query ← entity.readQuery firstSlot words
      Except.ok (made mode query)) = .error fault) : entity.Quotes words fault := by
  rcases bind_eq_error_iff.mp refused with shape | ⟨mode, -, afterMode⟩
  · exact quotes_of_silent (silent_resultMode _ _ _) shape
  rcases bind_eq_error_iff.mp afterMode with queried | ⟨query, -, done⟩
  · exact quotes_of_readQuery queried
  · cases done

/-- Words that spell no operation are refused with some of them, or without a text. -/
theorem quotes_of_readOperation {params results : List GoType}
    (refused : entity.readOperation params results words = .error fault) :
    entity.Quotes words fault := by
  cases words with
  | nil =>
      cases refused
      exact .clause List.infix_rfl rfl rfl
  | cons head rest =>
      have restInside : rest <:+: head :: rest := (List.suffix_cons head rest).isInfix
      rw [readOperation] at refused
      cases known : OperationKind.ofWord? head with
      | none =>
          rw [known] at refused
          cases refused
          refine .clause (List.prefix_append [head] rest).isInfix ?_ rfl
          rw [spell_singleton]
          rfl
      | some kind =>
          rw [known] at refused
          cases kind with
          | insert => exact (quotes_of_readInsert refused).mono restInside
          | find => exact (quotes_of_readFind refused).mono restInside
          | update => exact (quotes_of_readUpdate refused).mono restInside
          | delete => exact (quotes_of_queried refused).mono restInside
          | count => exact (quotes_of_queried refused).mono restInside

end Entity

/-! ## Checks -/

theorem silent_checkAll {α : Type} {check : α → Except MethodError Unit}
    (each : ∀ item, Silent (check item)) (items : List α) : Silent (checkAll check items) := by
  intro fault refused
  induction items with
  | nil => cases refused
  | cons item rest ih =>
      rw [checkAll] at refused
      split at refused
      · exact ih refused
      · next found =>
          cases refused
          exact each item fault found

namespace Plan

theorem silent_checkContext (params : List GoType) : Silent (checkContext params) := by
  intro fault refused
  unfold checkContext at refused
  split at refused
  · cases refused
  · cases refused
    rfl

theorem silent_checkParam (params : List GoType) (position : Nat) (expected : GoType) :
    Silent (checkParam params position expected) := by
  intro fault refused
  unfold checkParam at refused
  split at refused
  · cases refused
    rfl
  · split at refused
    · cases refused
    · cases refused
      rfl

theorem silent_checkParams (params : List GoType) (position : Nat) (types : List GoType) :
    Silent (checkParams params position types) := by
  intro fault refused
  induction types generalizing position with
  | nil => cases refused
  | cons type rest ih =>
      rw [checkParams] at refused
      split at refused
      · exact ih _ refused
      · next found =>
          cases refused
          exact silent_checkParam _ _ _ fault found

theorem silent_checkQuery (schema : Schema) (params : List GoType) (query : Query) :
    Silent (checkQuery schema params query) := by
  refine silent_checkAll ?_ query.predicates
  intro predicate fault refused
  unfold checkPredicate at refused
  split at refused
  · exact silent_checkParams _ _ _ fault refused
  · cases refused
    rfl

theorem silent_checkChange (entity : Entity) (params : List GoType) (change : Change) :
    Silent (checkChange entity params change) := by
  cases change with
  | model slot => exact silent_checkParam _ _ _
  | fields assignments =>
      refine silent_checkAll ?_ assignments
      intro assignment fault refused
      unfold checkAssignment at refused
      split at refused
      · exact silent_checkParam _ _ _ fault refused
      · cases refused
        rfl

theorem silent_checkOperation (entity : Entity) (params : List GoType) (operation : Operation) :
    Silent (checkOperation entity params operation) := by
  cases operation with
  | insert mode => exact silent_checkParam _ _ _
  | find mode query sorts limit => exact silent_checkQuery _ _ _
  | update change mode query =>
      intro fault refused
      rw [checkOperation] at refused
      split at refused
      · exact silent_checkQuery _ _ _ fault refused
      · next found =>
          cases refused
          exact silent_checkChange _ _ _ fault found
  | delete mode query => exact silent_checkQuery _ _ _
  | count query => exact silent_checkQuery _ _ _

/-- The faults of a signature that does not agree with its name carry no text of it. -/
theorem silent_check (entity : Entity) (plan : Plan) : Silent (plan.check entity) := by
  intro fault refused
  rcases bind_eq_error_iff.mp refused with context | ⟨_, -, counted⟩
  · exact silent_checkContext _ fault context
  · split at counted
    · exact silent_checkOperation _ _ _ fault counted
    · cases counted
      rfl

end Plan

/-! ## Methods -/

namespace Entity

theorem quotes_of_plan {entity : Entity} {method : Signature} {fault : MethodError}
    (refused : entity.plan method = .error fault) : entity.Quotes (words method.name) fault := by
  rcases bind_eq_error_iff.mp refused with context | ⟨_, -, afterContext⟩
  · exact quotes_of_silent (Plan.silent_checkContext _) context
  rcases bind_eq_error_iff.mp afterContext with read | ⟨operation, -, afterRead⟩
  · exact quotes_of_readOperation read
  rcases bind_eq_error_iff.mp afterRead with checked | ⟨_, -, done⟩
  · exact quotes_of_silent (Plan.silent_check _ _) checked
  · cases done

/-- A text that is carried by the fault of a method is spelled by words that follow each
other in the name of the method, so it is part of the name.  For a field that is not
found there is such a word, none of them is `And`, and no split of them leads to a field
of the struct. -/
theorem quoted_text_in_name {entity : Entity} {method : Signature} {fault : MethodError}
    {text : String} (refused : entity.plan method = .error fault)
    (quoted : fault.quoted? = some text) :
    ∃ run, run <:+: words method.name ∧ spell run = text ∧
      text.toList <:+: method.name.toList ∧
      (fault = .fieldNotFound text → run ≠ [] ∧ "And" ∉ run ∧
        ∀ split fields, ¬ entity.schema.Splits entity.struct run split fields) := by
  have within {run : List String} (inside : run <:+: words method.name) :
      (spell run).toList <:+: method.name.toList := by
    have part := toList_spell_infix inside
    rwa [spell_words] at part
  cases quotes_of_plan refused with
  | nothing silent =>
      rw [silent] at quoted
      cases quoted
  | @clause _ run inside spelled grammar =>
      rw [spelled] at quoted
      cases quoted
      refine ⟨run, inside, rfl, within inside, ?_⟩
      rintro rfl
      cases grammar
  | @field run inside unnamed =>
      cases quoted
      exact ⟨run, inside, rfl, within inside,
        fun _ => ⟨unnamed.nonempty, unnamed.unjoined, unnamed.unresolved⟩⟩

end Entity

namespace Users

/-- Finds users by a part of their contact that it does not have. -/
def findByContactCity : Signature :=
  ⟨"FindByAgeBetweenOrContactCityNotInOrderByAge",
    [.context, .named "int", .named "int", .slice (.named "string")],
    [.slice (.pointer (.named "User")), .error]⟩

theorem contactCity_in_name :
    entity.plan findByContactCity = .error (.fieldNotFound "ContactCity") ∧
      ∃ run, run <:+: words findByContactCity.name ∧ spell run = "ContactCity" ∧
        "ContactCity".toList <:+: findByContactCity.name.toList ∧ run ≠ [] ∧ "And" ∉ run ∧
        ∀ split fields, ¬ entity.schema.Splits entity.struct run split fields := by
  have refused : entity.plan findByContactCity = .error (.fieldNotFound "ContactCity") := by
    have cut : words findByContactCity.name = ["Find", "By", "Age", "Between", "Or", "Contact",
        "City", "Not", "In", "Order", "By", "Age"] := by decide +kernel
    rw [Entity.plan, cut]
    rfl
  obtain ⟨run, inside, spelled, part, unnamed⟩ := Entity.quoted_text_in_name refused rfl
  exact ⟨refused, run, inside, spelled, part, unnamed rfl⟩

end Users

end NamedQuery
