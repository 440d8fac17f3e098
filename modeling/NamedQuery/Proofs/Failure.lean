import NamedQuery.Proofs.Generation

/-!
# The method that generation fails at

All methods of an interface are planned before the first of them is translated.  So
when generation fails at a method, it is the first one without a plan, and only when
every method has a plan it is the first one without a body.  That is the first method
of the interface that fails exactly when every method has a plan, or the first method
that fails has none.
-/

namespace NamedQuery

open Code Mongo

/-! ## One method -/

namespace Entity

/-- Whether a method has a plan. -/
def isPlanned (entity : Entity) (method : Signature) : Bool := (entity.plan method).isOk

/-- What is wrong with a method by itself: it has no plan, or its plan has no body. -/
def fault? (entity : Entity) (method : Signature) : Option MethodFault :=
  match entity.plan method with
  | .error fault => some (.plan fault)
  | .ok plan =>
      match body entity.struct.name plan.operation with
      | .error fault => some (.body fault)
      | .ok _ => none

/-- Whether something is wrong with a method. -/
def fails (entity : Entity) (method : Signature) : Bool := (entity.fault? method).isSome

variable {entity : Entity} {method : Signature}

theorem fault?_of_plan {fault : MethodError} (unplanned : entity.plan method = .error fault) :
    entity.fault? method = some (.plan fault) := by
  rw [fault?, unplanned]

theorem not_isPlanned_iff :
    entity.isPlanned method = false ↔ ∃ fault, entity.plan method = .error fault := by
  unfold isPlanned
  cases entity.plan method <;> simp [Except.isOk, Except.toBool]

theorem fault?_eq_plan_iff {fault : MethodError} :
    entity.fault? method = some (.plan fault) ↔ entity.plan method = .error fault := by
  constructor
  · intro found
    cases read : entity.plan method with
    | error other =>
        rw [fault?_of_plan read] at found
        cases found
        rfl
    | ok plan =>
        simp only [fault?, read] at found
        cases translated : body entity.struct.name plan.operation <;> simp [translated] at found
  · exact fault?_of_plan

/-- A method without a plan fails. -/
theorem fails_of_not_isPlanned (unplanned : entity.isPlanned method = false) :
    entity.fails method = true := by
  obtain ⟨fault, refused⟩ := not_isPlanned_iff.mp unplanned
  rw [fails, fault?_of_plan refused]
  rfl

end Entity

/-! ## The first fault -/

theorem bind_eq_error_iff {ε α β : Type} {first : Except ε α} {next : α → Except ε β}
    {fault : ε} :
    (first >>= next) = .error fault ↔
      first = .error fault ∨ ∃ middle, first = .ok middle ∧ next middle = .error fault := by
  cases first with
  | error other => simp [bind, Except.bind]
  | ok middle => simp [bind, Except.bind]

theorem mapError_eq_error_iff {ε φ α : Type} {result : Except ε α} {change : ε → φ} {fault : φ} :
    result.mapError change = .error fault ↔
      ∃ cause, result = .error cause ∧ change cause = fault := by
  cases result with
  | error cause => simp [Except.mapError]
  | ok value => simp [Except.mapError]

theorem isOk_mapError {ε φ α : Type} (result : Except ε α) (change : ε → φ) :
    (result.mapError change).isOk = result.isOk := by
  cases result <;> rfl

theorem isOk_map {ε α β : Type} (result : Except ε α) (change : α → β) :
    (result.map change).isOk = result.isOk := by
  cases result <;> rfl

theorem map_eq_error_iff {ε α β : Type} {result : Except ε α} {change : α → β} {fault : ε} :
    result.map change = .error fault ↔ result = .error fault := by
  cases result with
  | error cause => simp [Except.map]
  | ok value => simp [Except.map]

/-- Items are mapped up to the first that is refused. -/
theorem mapM_eq_error_iff {ε α β : Type} {step : α → Except ε β} {items : List α} {fault : ε} :
    items.mapM step = .error fault ↔
      ∃ item, items.find? (fun item => !(step item).isOk) = some item ∧
        step item = .error fault := by
  induction items with
  | nil =>
      constructor
      · intro done
        cases done
      · rintro ⟨item, found, -⟩
        cases found
  | cons item rest ih =>
      rw [List.mapM_cons, List.find?_cons]
      cases first : step item with
      | error other => simp [bind, Except.bind, Except.isOk, Except.toBool, first]
      | ok value =>
          simp only [Except.isOk, Except.toBool, Bool.not_true] at ih ⊢
          rw [← ih]
          cases rest.mapM step <;> simp [bind, Except.bind, pure, Except.pure]

/-- Where related items agree on a property, the first of them are related. -/
theorem find?_of_forall₂ {α β : Type} {related : α → β → Prop} {items : List α}
    {values : List β} {holds : α → Bool} {holds' : β → Bool}
    (each : List.Forall₂ related items values)
    (agree : ∀ item value, related item value → holds item = holds' value) {value : β}
    (found : values.find? holds' = some value) :
    ∃ item, items.find? holds = some item ∧ related item value := by
  induction each with
  | nil => cases found
  | @cons item other rest others first _ ih =>
      rw [List.find?_cons] at found ⊢
      rw [agree item other first]
      cases here : holds' other with
      | true =>
          rw [here] at found
          cases found
          exact ⟨item, rfl, first⟩
      | false =>
          rw [here] at found
          exact ih found

/-- The first item with a property is the first with a narrower one that it has. -/
theorem find?_of_imp {α : Type} {narrow wide : α → Bool} {items : List α} {item : α}
    (implies : ∀ other, narrow other = true → wide other = true)
    (first : items.find? wide = some item) (has : narrow item = true) :
    items.find? narrow = some item := by
  rw [List.find?_eq_some_iff_append] at first ⊢
  obtain ⟨-, before, after, cut, none⟩ := first
  refine ⟨has, before, after, cut, ?_⟩
  intro other member
  have excluded := none other member
  rw [Bool.not_eq_true'] at excluded ⊢
  rw [← Bool.not_eq_true] at excluded ⊢
  exact fun also => excluded (implies other also)

/-! ## The two passes -/

namespace Entity

variable {entity : Entity} {methods : List Signature} {name : String} {fault : MethodFault}

/-- When the first method that fails has no plan, it is the first one without a plan. -/
theorem find?_unplanned_of_fails {method : Signature}
    (first : methods.find? entity.fails = some method)
    (unplanned : entity.isPlanned method = false) :
    methods.find? (fun method => !entity.isPlanned method) = some method := by
  refine find?_of_imp ?_ first ?_
  · intro other missing
    rw [Bool.not_eq_true'] at missing
    exact fails_of_not_isPlanned missing
  · rw [Bool.not_eq_true']
    exact unplanned

/-- The first pass stops at the first method without a plan. -/
theorem first_unplanned
    (refused : methods.mapM (planMethod entity) = .error (.method name fault)) :
    ∃ method, methods.find? (fun method => !entity.isPlanned method) = some method ∧
      method.name = name ∧ entity.fault? method = some fault := by
  obtain ⟨method, first, stops⟩ := mapM_eq_error_iff.mp refused
  simp only [planMethod, isOk_mapError] at first
  obtain ⟨cause, unplanned, same⟩ := mapError_eq_error_iff.mp stops
  cases same
  exact ⟨method, first, rfl, fault?_of_plan unplanned⟩

/-- With a plan, a method fails exactly when the plan has no declaration. -/
theorem fails_of_plan {method : Signature} {plan : Plan}
    (planned : entity.plan method = .ok plan) (interface : String) :
    entity.fails method = !(methodOf ⟨entity.struct.name, interface⟩ plan).isOk := by
  rw [methodOf, isOk_mapError, Implementation.methodDecl, isOk_map, fails, fault?, planned]
  dsimp only
  cases body entity.struct.name plan.operation <;> rfl

/-- The second pass stops at the first method without a body. -/
theorem first_untranslated {plans : List Plan} (interface : String)
    (planned : methods.mapM (planMethod entity) = .ok plans)
    (refused : plans.mapM (methodOf ⟨entity.struct.name, interface⟩) =
      .error (.method name fault)) :
    (∀ method ∈ methods, entity.isPlanned method = true) ∧
      ∃ method, methods.find? entity.fails = some method ∧
        method.name = name ∧ entity.fault? method = some fault := by
  have each := (mapM_eq_ok_iff.mp planned).imp fun _ _ made => mapError_eq_ok_iff.mp made
  refine ⟨?_, ?_⟩
  · intro method member
    obtain ⟨plan, -, made⟩ := exists_mem_of_forall₂ each member
    rw [isPlanned, made]
    rfl
  · obtain ⟨plan, first, stops⟩ := mapM_eq_error_iff.mp refused
    obtain ⟨method, found, made⟩ :=
      find?_of_forall₂ each (fun _ _ made => fails_of_plan made interface) first
    obtain ⟨cause, undeclared, same⟩ := mapError_eq_error_iff.mp stops
    have untranslated := map_eq_error_iff.mp undeclared
    cases same
    refine ⟨method, found, by rw [(read_of_plan made).1], ?_⟩
    rw [fault?, made]
    dsimp only
    rw [untranslated]

end Entity

namespace Schema

/-- Generation fails at a method in one of its two passes. -/
theorem passes_of_generate {schema : Schema} {request : Request} {name : String}
    {fault : MethodFault} (failed : schema.generate request = .error (.method name fault)) :
    ∃ entity interface, schema.entity request.struct = .ok entity ∧
      schema.interface request.interface = .ok interface ∧
      (interface.methods.mapM (planMethod entity) = .error (.method name fault) ∨
        ∃ plans, interface.methods.mapM (planMethod entity) = .ok plans ∧
          plans.mapM (methodOf ⟨entity.struct.name, interface.name⟩) =
            .error (.method name fault)) := by
  rcases bind_eq_error_iff.mp failed with missing | ⟨entity, known, afterEntity⟩
  · obtain ⟨cause, -, other⟩ := mapError_eq_error_iff.mp missing
    cases other
  rcases bind_eq_error_iff.mp afterEntity with missing | ⟨interface, declared, afterInterface⟩
  · obtain ⟨cause, -, other⟩ := mapError_eq_error_iff.mp missing
    cases other
  refine ⟨entity, interface, mapError_eq_ok_iff.mp known, mapError_eq_ok_iff.mp declared, ?_⟩
  rcases bind_eq_error_iff.mp afterInterface with unplanned | ⟨plans, planned, afterPlans⟩
  · exact .inl unplanned
  rcases bind_eq_error_iff.mp afterPlans with untranslated | ⟨decls, -, done⟩
  · exact .inr ⟨plans, planned, untranslated⟩
  · cases done

/-- When generation fails at a method, it is the first one without a plan, or, if every
method has a plan, the first one without a body; and the fault is that of the method by
itself.  This is the first method that fails at all exactly when every method has a plan
or the first one that fails has none. -/
theorem first_failing_method_reported_iff {schema : Schema} {request : Request}
    {name : String} {fault : MethodFault}
    (failed : schema.generate request = .error (.method name fault)) :
    ∃ entity interface, schema.entity request.struct = .ok entity ∧
      schema.interface request.interface = .ok interface ∧
      (∃ method,
        (interface.methods.find? fun method => !entity.isPlanned method).or
          (interface.methods.find? entity.fails) = some method ∧
        method.name = name ∧ entity.fault? method = some fault) ∧
      ((∃ method, interface.methods.find? entity.fails = some method ∧
          method.name = name ∧ entity.fault? method = some fault) ↔
        (∀ method ∈ interface.methods, entity.isPlanned method = true) ∨
          ∃ method, interface.methods.find? entity.fails = some method ∧
            entity.isPlanned method = false) := by
  obtain ⟨entity, interface, known, declared, unplanned | ⟨plans, planned, untranslated⟩⟩ :=
    passes_of_generate failed
  · obtain ⟨method, first, named, faulty⟩ := Entity.first_unplanned unplanned
    have unplannedThere := List.find?_some first
    rw [Bool.not_eq_true'] at unplannedThere
    refine ⟨entity, interface, known, declared, ⟨method, by rw [first, Option.some_or], named,
      faulty⟩, ?_, ?_⟩
    · rintro ⟨other, firstFailing, -, same⟩
      -- the fault is one of planning, so the method that has it has no plan
      obtain ⟨cause, refused⟩ := Entity.not_isPlanned_iff.mp unplannedThere
      rw [Entity.fault?_of_plan refused] at faulty
      rw [← faulty, Entity.fault?_eq_plan_iff] at same
      exact .inr ⟨other, firstFailing, Entity.not_isPlanned_iff.mpr ⟨cause, same⟩⟩
    · rintro (all | ⟨other, firstFailing, unplannedOther⟩)
      · rw [all method (List.mem_of_find?_eq_some first)] at unplannedThere
        cases unplannedThere
      · have again := Entity.find?_unplanned_of_fails firstFailing unplannedOther
        rw [first] at again
        cases again
        exact ⟨method, firstFailing, named, faulty⟩
  · obtain ⟨all, first⟩ := Entity.first_untranslated interface.name planned untranslated
    refine ⟨entity, interface, known, declared, ?_, fun _ => .inl all, fun _ => first⟩
    obtain ⟨method, found, reported⟩ := first
    refine ⟨method, ?_, reported⟩
    have none : interface.methods.find? (fun method => !entity.isPlanned method) = none := by
      rw [List.find?_eq_none]
      intro other member
      simp [all other member]
    rw [none, Option.none_or, found]

end Schema

namespace Users

/-- A field without a name in the stored documents. -/
def nickname : Field := ⟨"Nickname", .named "string", none⟩

/-- A method with a plan and without a body. -/
def findByNickname : Signature :=
  ⟨"FindByNickname", [.context, .named "string"], [.slice (.pointer (.named "User")), .error]⟩

/-- A method without a plan: there is no field of this name. -/
def findBySize : Signature :=
  ⟨"FindBySize", [.context, .named "int"], [.slice (.pointer (.named "User")), .error]⟩

/-- Users with a nickname, and a repository of methods. -/
def nicknamed (methods : List Signature) : Schema where
  package := "user"
  imports := []
  structs := [⟨"User", [nickname]⟩]
  interfaces := [⟨"UserRepository", methods⟩]
  namedTypes := []

theorem size_reported_first :
    (nicknamed [findBySize, findByNickname]).generate request =
        .error (.method "FindBySize" (.plan (.fieldNotFound "Size"))) ∧
      ∃ entity interface method,
        (nicknamed [findBySize, findByNickname]).entity "User" = .ok entity ∧
        (nicknamed [findBySize, findByNickname]).interface "UserRepository" = .ok interface ∧
        interface.methods.find? entity.fails = some method ∧ method.name = "FindBySize" ∧
        entity.fault? method = some (.plan (.fieldNotFound "Size")) := by
  have package : ((nicknamed [findBySize, findByNickname]).generate request).map GoFile.package =
      .error (.method "FindBySize" (.plan (.fieldNotFound "Size"))) := by
    decide +kernel
  have failed := map_eq_error_iff.mp package
  obtain ⟨entity, interface, known, declared, -, inOrder⟩ :=
    Schema.first_failing_method_reported_iff failed
  cases known
  cases declared
  obtain ⟨method, first, reported⟩ :=
    inOrder.mpr (.inr ⟨findBySize, by decide +kernel, by decide +kernel⟩)
  exact ⟨failed, _, _, method, rfl, rfl, first, reported⟩

/-- The first method fails when it is translated, but the second one is reported, which
has no plan. -/
theorem nickname_not_reported :
    (nicknamed [findByNickname, findBySize]).generate request =
        .error (.method "FindBySize" (.plan (.fieldNotFound "Size"))) ∧
      ∃ entity interface,
        (nicknamed [findByNickname, findBySize]).entity "User" = .ok entity ∧
        (nicknamed [findByNickname, findBySize]).interface "UserRepository" = .ok interface ∧
        interface.methods.find? entity.fails = some findByNickname ∧
        entity.fault? findByNickname = some (.body (.missingTag "Nickname")) := by
  have package : ((nicknamed [findByNickname, findBySize]).generate request).map GoFile.package =
      .error (.method "FindBySize" (.plan (.fieldNotFound "Size"))) := by
    decide +kernel
  exact ⟨map_eq_error_iff.mp package, _, _, rfl, rfl, by decide +kernel, by decide +kernel⟩

end Users

end NamedQuery
