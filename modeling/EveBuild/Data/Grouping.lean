import EveBuild.Data.Dict
import Mathlib.Algebra.BigOperators.Group.Finset.Basic
import Mathlib.Data.Finset.Card

/-!
# Grouping a list by a key

Loops that go once through a list and write a dictionary: `indexBy` keeps a value of the last
item under each key, `sumBy` adds up a quantity of the items under each key, and `collectBy`
and `appendBy` collect their values in a set or a list.  All are read off the groups of the
list, which are the items of one key in their order (`get?_indexBy`, `get?_sumBy`,
`getD_collectBy`, `getD_appendBy`).  The groups part the list, so that the sums over the
groups add up to the sum over the list (`sum_groups`).
-/

namespace EveBuild.Dict

variable {I K V : Type*} [DecidableEq K]

/-- `{key(item): value(item) for item in items}`. -/
def indexBy (key : I → K) (value : I → V) (items : List I) : Dict K V :=
  items.foldl (fun index item => index.set (key item) (value item)) .empty

/-- `sums[key(item)] = sums.get(key(item), 0) + quantity(item)` for all items. -/
def sumBy [Zero V] [Add V] (key : I → K) (quantity : I → V) (items : List I) : Dict K V :=
  items.foldl (fun sums item => sums.add (key item) (quantity item)) .empty

/-- `sets.setdefault(key(item), set()).add(value(item))` for all items. -/
def collectBy [DecidableEq V] (key : I → K) (value : I → V) (items : List I) :
    Dict K (Finset V) :=
  items.foldl (fun sets item =>
    sets.set (key item) (insert (value item) (sets.getD (key item) ∅))) .empty

/-- `lists.setdefault(key(item), []).append(value(item))` for all items. -/
def appendBy (key : I → K) (value : I → V) (items : List I) : Dict K (List V) :=
  items.foldl (fun lists item =>
    lists.set (key item) (lists.getD (key item) [] ++ [value item])) .empty

/-- The items of one key. -/
def group (key : I → K) (items : List I) (k : K) : List I :=
  items.filter fun item => key item = k

variable {key : I → K} {items : List I} {k : K}

theorem mem_group {item : I} : item ∈ group key items k ↔ item ∈ items ∧ key item = k := by
  rw [group, List.mem_filter, decide_eq_true_iff]

theorem group_eq_nil_iff : group key items k = [] ↔ ∀ item ∈ items, key item ≠ k := by
  unfold group
  rw [List.filter_eq_nil_iff]
  simp

theorem group_concat (items : List I) (item : I) (k : K) :
    group key (items ++ [item]) k =
      group key items k ++ if key item = k then [item] else [] := by
  unfold group
  rw [List.filter_append]
  split <;> simp_all

/-- The groups of a group are the same for two keys in either order. -/
theorem group_comm {L : Type*} [DecidableEq L] (other : I → L) (items : List I) (k : K) (l : L) :
    group other (group key items k) l = group key (group other items l) k := by
  unfold group
  rw [List.filter_filter, List.filter_filter]
  exact List.filter_congr fun item _ => Bool.and_comm _ _

/-! ## The last item under a key -/

theorem indexBy_concat (value : I → V) (items : List I) (item : I) :
    indexBy key value (items ++ [item]) =
      (indexBy key value items).set (key item) (value item) := by
  rw [indexBy, List.foldl_append]
  rfl

theorem get?_indexBy (value : I → V) (items : List I) (k : K) :
    (indexBy key value items).get? k = (group key items k).getLast?.map value := by
  induction items using List.reverseRecOn with
  | nil => rfl
  | append_singleton items item ih =>
      rw [indexBy_concat, get?_set, ih, group_concat]
      by_cases heq : k = key item
      · rw [if_pos heq, if_pos heq.symm, List.getLast?_concat]
        rfl
      · rw [if_neg heq, if_neg (Ne.symm heq), List.append_nil]

theorem mem_keys_indexBy {value : I → V} :
    k ∈ (indexBy key value items).keys ↔ ∃ item ∈ items, key item = k := by
  rw [← not_iff_not, ← get?_eq_none_iff, get?_indexBy, Option.map_eq_none_iff,
    List.getLast?_eq_none_iff, group_eq_nil_iff]
  simp

/-- Where no two items have one key, every item is kept. -/
theorem entries_indexBy (value : I → V) (hnodup : (items.map key).Nodup) :
    (indexBy key value items).entries = items.map fun item => (key item, value item) := by
  have hentries : ((items.map fun item => (key item, value item)).map Prod.fst).Nodup := by
    simpa [Function.comp_def] using hnodup
  have hwritten := entries_foldl_set (empty : Dict K V) hentries fun entry _ => by simp
  rw [List.foldl_map] at hwritten
  exact hwritten

theorem get?_indexBy_of_mem (value : I → V) (hnodup : (items.map key).Nodup) {item : I}
    (hitem : item ∈ items) : (indexBy key value items).get? (key item) = some (value item) := by
  rw [get?_eq_some_iff, entries_indexBy value hnodup]
  exact List.mem_map_of_mem hitem

/-! ## The values of a key -/

theorem getD_collectBy [DecidableEq V] (value : I → V) (items : List I) (k : K) :
    (collectBy key value items).getD k ∅ = ((group key items k).map value).toFinset := by
  induction items using List.reverseRecOn with
  | nil => rfl
  | append_singleton items item ih =>
      have hlast : collectBy key value (items ++ [item]) =
          (collectBy key value items).set (key item)
            (insert (value item) ((collectBy key value items).getD (key item) ∅)) := by
        rw [collectBy, List.foldl_append]
        rfl
      rw [hlast, getD_set, group_concat]
      by_cases heq : k = key item
      · subst heq
        rw [if_pos rfl, if_pos rfl, ih, List.map_append, List.toFinset_append]
        ext other
        simp
      · rw [if_neg heq, if_neg (Ne.symm heq), List.append_nil, ih]

/-- **The list of a key** has the values of its group, in their order. -/
theorem getD_appendBy (value : I → V) (items : List I) (k : K) :
    (appendBy key value items).getD k [] = (group key items k).map value := by
  induction items using List.reverseRecOn with
  | nil => rfl
  | append_singleton items item ih =>
      have hlast : appendBy key value (items ++ [item]) = (appendBy key value items).set (key item)
          ((appendBy key value items).getD (key item) [] ++ [value item]) := by
        rw [appendBy, List.foldl_append]
        rfl
      rw [hlast, getD_set, group_concat]
      by_cases heq : k = key item
      · subst heq
        rw [if_pos rfl, if_pos rfl, ih, List.map_append, List.map_singleton]
      · rw [if_neg heq, if_neg (Ne.symm heq), List.append_nil, ih]

/-! ## The sums of the groups -/

section Sums

variable [AddCommMonoid V] {quantity : I → V}

theorem sumBy_concat (items : List I) (item : I) :
    sumBy key quantity (items ++ [item]) =
      (sumBy key quantity items).add (key item) (quantity item) := by
  rw [sumBy, List.foldl_append]
  rfl

/-- **A key that has items holds their sum.** -/
theorem get?_sumBy (items : List I) (k : K) :
    (sumBy key quantity items).get? k =
      if group key items k = [] then none else some ((group key items k).map quantity).sum := by
  induction items using List.reverseRecOn with
  | nil => rfl
  | append_singleton items item ih =>
      rw [sumBy_concat, add, get?_set, ih, group_concat]
      by_cases heq : k = key item
      · subst heq
        rw [if_pos rfl, if_pos rfl, if_neg (List.concat_ne_nil _ _), getD, ih, List.map_append,
          List.sum_append]
        split
        · rename_i hnone
          simp [hnone]
        · simp
      · rw [if_neg heq, if_neg (Ne.symm heq), List.append_nil]

theorem getD_sumBy (items : List I) (k : K) :
    (sumBy key quantity items).getD k 0 = ((group key items k).map quantity).sum := by
  rw [getD, get?_sumBy]
  split
  · rename_i hnone
    simp [hnone]
  · rfl

theorem mem_keys_sumBy : k ∈ (sumBy key quantity items).keys ↔ ∃ item ∈ items, key item = k := by
  rw [← not_iff_not, ← get?_eq_none_iff, get?_sumBy, ite_eq_left_iff, group_eq_nil_iff]
  simp

/-- There are as many sums as keys of items. -/
theorem length_keys_sumBy (items : List I) :
    (sumBy key quantity items).keys.length = (items.map key).toFinset.card := by
  have hnodup : (sumBy key quantity items).keys.Nodup := (sumBy key quantity items).nodup_keys
  rw [← List.toFinset_card_of_nodup hnodup]
  congr 1
  ext k
  rw [List.mem_toFinset, List.mem_toFinset, List.mem_map]
  exact mem_keys_sumBy

/-- All items together have the sum of the list. -/
theorem sum_values_sumBy {quantity : I → ℤ} (items : List I) :
    (sumBy key quantity items).values.sum = (items.map quantity).sum := by
  induction items using List.reverseRecOn with
  | nil => rfl
  | append_singleton items item ih =>
      have hset := (sumBy key quantity items).sum_set (key item)
        ((sumBy key quantity items).getD (key item) 0 + quantity item) id
      have hold : ((sumBy key quantity items).get? (key item)).elim 0 id =
          (sumBy key quantity items).getD (key item) 0 := by
        rw [getD]
        cases (sumBy key quantity items).get? (key item) <;> rfl
      rw [hold, List.map_id, List.map_id, ih] at hset
      rw [sumBy_concat, add, List.map_append, List.sum_append, List.map_singleton,
        List.sum_singleton]
      simp only [id_eq] at hset
      omega

/-- **The groups part the list.**  Over keys that all items have, the sums of the groups add
up to the sum of the list. -/
theorem sum_groups (quantity : I → V) {keys : Finset K} (hkeys : ∀ item ∈ items, key item ∈ keys) :
    ∑ k ∈ keys, ((group key items k).map quantity).sum = (items.map quantity).sum := by
  induction items using List.reverseRecOn with
  | nil => simp [group]
  | append_singleton items item ih =>
      have hrest := ih fun other hother => hkeys other (List.mem_append_left _ hother)
      have hone : ∑ k ∈ keys, ((if key item = k then [item] else []).map quantity).sum =
          quantity item := by
        rw [Finset.sum_eq_single_of_mem (key item) (hkeys item (by simp)), if_pos rfl]
        · simp
        · intro k _ hne
          rw [if_neg (Ne.symm hne)]
          rfl
      calc ∑ k ∈ keys, ((group key (items ++ [item]) k).map quantity).sum
          = ∑ k ∈ keys, (((group key items k).map quantity).sum +
              ((if key item = k then [item] else []).map quantity).sum) := by
            refine Finset.sum_congr rfl fun k _ => ?_
            rw [group_concat, List.map_append, List.sum_append]
        _ = ((items ++ [item]).map quantity).sum := by
            rw [Finset.sum_add_distrib, hrest, hone]
            simp

end Sums

end EveBuild.Dict
