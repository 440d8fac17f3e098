import Mathlib.Data.List.Induction
import NamedQuery.Mongo.Document
import NamedQuery.Proofs.Merge

/-!
# Entries grouped by operator

Entries are added to the groups one at a time.  After each of them there is a group for
every operator so far, in the order in which the operators appear, with the entries of
the operator in their own order.  So the groups are a stable partition of the entries.
-/

namespace NamedQuery

open Code

/-! ## Order of appearance -/

section Appearances

variable {α : Type} [DecidableEq α]

/-- The different values of a list, in the order in which they appear first. -/
structure Appearances (values distinct : List α) : Prop where
  mem_iff : ∀ value, value ∈ distinct ↔ value ∈ values
  ordered : distinct.Pairwise fun earlier later => values.idxOf earlier < values.idxOf later

theorem Appearances.nodup {values distinct : List α} (appearances : Appearances values distinct) :
    distinct.Nodup := by
  refine appearances.ordered.imp ?_
  rintro earlier later before rfl
  exact Nat.lt_irrefl _ before

/-- The order of appearance is one order. -/
theorem Appearances.unique {values distinct others : List α}
    (first : Appearances values distinct) (second : Appearances values others) :
    distinct = others := by
  have same : distinct.Perm others := by
    rw [List.perm_ext_iff_of_nodup first.nodup second.nodup]
    intro value
    rw [first.mem_iff, second.mem_iff]
  refine same.eq_of_pairwise ?_ first.ordered second.ordered
  intro earlier later _ _ before after
  exact absurd before (Nat.lt_asymm after)

theorem Appearances.nil : Appearances ([] : List α) [] := ⟨fun _ => .rfl, .nil⟩

/-- One more value is put last, unless it has appeared. -/
theorem Appearances.snoc {values distinct : List α} (appearances : Appearances values distinct)
    (value : α) : Appearances (values ++ [value]) (appendMissing id distinct [value]) := by
  have same : ∀ other ∈ distinct, (values ++ [value]).idxOf other = values.idxOf other := by
    intro other member
    exact List.idxOf_append_of_mem ((appearances.mem_iff other).mp member)
  have kept : distinct.Pairwise fun earlier later =>
      (values ++ [value]).idxOf earlier < (values ++ [value]).idxOf later := by
    refine appearances.ordered.imp_of_mem ?_
    intro earlier later first second before
    rwa [same earlier first, same later second]
  refine ⟨?_, ?_⟩
  · intro other
    rw [mem_appendMissing_id, List.mem_append, appearances.mem_iff]
  · rw [appendMissing_eq, List.pairwise_append]
    refine ⟨kept, (List.pairwise_singleton _ value).filter _, ?_⟩
    intro earlier first later added
    obtain ⟨only, new⟩ := List.mem_filter.mp added
    cases List.mem_singleton.mp only
    have unseen : value ∉ values := by
      intro seen
      simp [(appearances.mem_iff value).mpr seen] at new
    rw [same earlier first, List.idxOf_append_of_notMem unseen]
    have bound := List.idxOf_lt_length_iff.mpr ((appearances.mem_iff earlier).mp first)
    omega

theorem appearances_appendMissing (values : List α) :
    Appearances values (appendMissing id [] values) := by
  induction values using List.reverseRecOn with
  | nil => exact .nil
  | append_singleton values value ih =>
      rw [appendMissing_append]
      exact ih.snoc value

/-- The items of each key, key after key, are the items in another order. -/
theorem perm_flatMap_filter {β : Type} (key : β → α) {keys : List α} {items : List β}
    (distinct : keys.Nodup) (known : ∀ item ∈ items, key item ∈ keys) :
    (keys.flatMap fun wanted => items.filter fun item => key item = wanted).Perm items := by
  induction keys generalizing items with
  | nil =>
      cases items with
      | nil => exact .refl _
      | cons item rest => exact absurd (known item List.mem_cons_self) List.not_mem_nil
  | cons first rest ih =>
      obtain ⟨new, others⟩ := List.nodup_cons.mp distinct
      have inside : ∀ item ∈ items.filter fun item => !decide (key item = first),
          key item ∈ rest := by
        intro item member
        obtain ⟨listed, differs⟩ := List.mem_filter.mp member
        rcases List.mem_cons.mp (known item listed) with same | later
        · simp [same] at differs
        · exact later
      have apart : (rest.flatMap fun wanted => items.filter fun item => key item = wanted) =
          rest.flatMap fun wanted =>
            (items.filter fun item => !decide (key item = first)).filter
              fun item => key item = wanted := by
        apply List.flatMap_congr
        intro wanted member
        rw [List.filter_filter]
        apply List.filter_congr
        intro item _
        by_cases same : key item = wanted
        · have other : wanted ≠ first := fun equal => new (equal ▸ member)
          simp [same, other]
        · simp [same]
      rw [List.flatMap_cons, apart]
      exact ((ih others inside).append_left _).trans (List.filter_append_perm _ items)

end Appearances

namespace Mongo

/-! ## The groups -/

/-- The group of an operator: its entries, in order. -/
def groupOf (entries : List (UpdateOperator × (Expr × Expr))) (operator : UpdateOperator) : Group :=
  ⟨operator, (entries.filter fun item => item.1 = operator).map Prod.snd⟩

theorem groupOf_snoc_same (entries : List (UpdateOperator × (Expr × Expr)))
    (item : UpdateOperator × (Expr × Expr)) :
    groupOf (entries ++ [item]) item.1 =
      ⟨item.1, (groupOf entries item.1).entries ++ [item.2]⟩ := by
  simp [groupOf]

theorem groupOf_snoc_other (entries : List (UpdateOperator × (Expr × Expr)))
    {item : UpdateOperator × (Expr × Expr)} {operator : UpdateOperator}
    (differs : operator ≠ item.1) :
    groupOf (entries ++ [item]) operator = groupOf entries operator := by
  simp [groupOf, differs.symm]

/-- An entry that is added to the groups of the entries before it makes the groups of
all entries. -/
theorem addEntry_groups (entries : List (UpdateOperator × (Expr × Expr)))
    (item : UpdateOperator × (Expr × Expr)) {operators : List UpdateOperator}
    (distinct : operators.Nodup)
    (new : item.1 ∉ operators → (groupOf entries item.1).entries = []) :
    addEntry item.1 item.2 (operators.map (groupOf entries)) =
      (appendMissing id operators [item.1]).map (groupOf (entries ++ [item])) := by
  induction operators with
  | nil =>
      simp [addEntry, appendMissing, groupOf_snoc_same, new List.not_mem_nil]
  | cons operator rest ih =>
      obtain ⟨once, others⟩ := List.nodup_cons.mp distinct
      rw [List.map_cons, addEntry]
      by_cases same : operator = item.1
      · subst same
        have kept : rest.map (groupOf (entries ++ [item])) = rest.map (groupOf entries) := by
          apply List.map_congr_left
          intro other member
          exact groupOf_snoc_other entries fun equal => once (equal ▸ member)
        simp [appendMissing, kept, groupOf]
      · have later := ih others fun absent => new (by simp [absent, Ne.symm same])
        have head : (groupOf entries operator).operator ≠ item.1 := same
        rw [if_neg head, later, ← groupOf_snoc_other entries same]
        by_cases inside : item.1 ∈ rest
        · simp [appendMissing, inside]
        · simp [appendMissing, inside, same]

/-- Grouping gives each operator its entries, in the order of appearance. -/
theorem grouped_eq (entries : List (UpdateOperator × (Expr × Expr))) :
    grouped entries =
      (appendMissing id [] (entries.map Prod.fst)).map (groupOf entries) := by
  induction entries using List.reverseRecOn with
  | nil => rfl
  | append_singleton entries item ih =>
      have order := appearances_appendMissing (entries.map Prod.fst)
      rw [grouped, List.foldl_append, ← grouped, ih, List.foldl_cons, List.foldl_nil,
        List.map_append, appendMissing_append]
      refine addEntry_groups entries item order.nodup ?_
      intro absent
      rw [order.mem_iff, List.mem_map] at absent
      rw [groupOf, List.map_eq_nil_iff, List.filter_eq_nil_iff]
      intro other member same
      exact absent ⟨other, member, of_decide_eq_true same⟩

theorem operators_grouped (entries : List (UpdateOperator × (Expr × Expr))) :
    (grouped entries).map Group.operator = appendMissing id [] (entries.map Prod.fst) := by
  rw [grouped_eq, List.map_map]
  exact List.map_id _

/-- Grouping keeps all entries, up to their order. -/
theorem entries_grouped (entries : List (UpdateOperator × (Expr × Expr))) :
    ((grouped entries).flatMap Group.entries).Perm (entries.map Prod.snd) := by
  have order := appearances_appendMissing (entries.map Prod.fst)
  have kept := perm_flatMap_filter Prod.fst order.nodup fun item (member : item ∈ entries) =>
    (order.mem_iff _).mpr (List.mem_map_of_mem member)
  rw [grouped_eq, List.flatMap_map]
  simpa only [groupOf, List.map_flatMap] using kept.map Prod.snd

end Mongo

end NamedQuery
