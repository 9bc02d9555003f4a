import Mathlib.Data.List.Basic

/-!
# What a call comes to

A call of a server is carried out, or fails.  A call that fails may have been carried out
all the same, and one that has many parts (keys to set, documents to insert, documents
that a query matches) may have been carried out in any of them.
-/

namespace EveBuild

/-- What a call comes to; an error comes after some parts of it have been carried out. -/
inductive Delivery
  | done
  | error (carriedOut : List Bool)

namespace Delivery

/-- The parts of a call that are carried out. -/
def parts {α : Type} (delivery : Delivery) (items : List α) : List α :=
  match delivery with
  | done => items
  | error carriedOut => (items.zip carriedOut).filterMap fun part =>
      if part.2 then some part.1 else none

/-- The parts that are left. -/
def rest {α : Type} (delivery : Delivery) (items : List α) : List α :=
  match delivery with
  | done => []
  | error carriedOut =>
      (items.zipIdx.filter fun item => carriedOut[item.2]? ≠ some true).map Prod.fst

def answer {ε β : Type} (delivery : Delivery) (failure : ε) (value : β) : Except ε β :=
  match delivery with
  | done => .ok value
  | error _ => .error failure

theorem mem_of_mem_parts {α : Type} {delivery : Delivery} {items : List α} {item : α}
    (hitem : item ∈ delivery.parts items) : item ∈ items := by
  cases delivery with
  | done => exact hitem
  | error carriedOut =>
      obtain ⟨⟨part, carried⟩, hpart, hif⟩ := List.mem_filterMap.mp hitem
      split at hif
      · cases hif
        exact (List.of_mem_zip hpart).1
      · cases hif

/-- A call that has one part. -/
theorem parts_singleton {α : Type} (delivery : Delivery) (item : α) :
    delivery.parts [item] = [] ∨ delivery.parts [item] = [item] := by
  cases delivery with
  | done => exact Or.inr rfl
  | error carriedOut =>
      cases carriedOut with
      | nil => exact Or.inl rfl
      | cons carried carriedOut =>
          cases carried with
          | false => exact Or.inl (by simp [parts])
          | true => exact Or.inr (by simp [parts])

theorem parts_error_cons {α : Type} (carried : Bool) (carriedOut : List Bool) (item : α)
    (items : List α) :
    (error (carried :: carriedOut)).parts (item :: items) =
      (if carried then [item] else []) ++ (error carriedOut).parts items := by
  rw [parts, List.zip_cons_cons, List.filterMap_cons]
  cases carried <;> rfl

theorem parts_sublist {α : Type} (delivery : Delivery) (items : List α) :
    (delivery.parts items).Sublist items := by
  cases delivery with
  | done => exact List.Sublist.refl _
  | error carriedOut =>
      induction items generalizing carriedOut with
      | nil => exact List.nil_sublist _
      | cons item items ih =>
          cases carriedOut with
          | nil => exact List.nil_sublist _
          | cons carried carriedOut =>
              rw [parts_error_cons]
              cases carried with
              | false => exact (ih carriedOut).cons item
              | true => exact (ih carriedOut).cons_cons item

theorem rest_error_cons {α : Type} (carried : Bool) (carriedOut : List Bool) (item : α)
    (items : List α) :
    (error (carried :: carriedOut)).rest (item :: items) =
      (if carried then [] else [item]) ++ (error carriedOut).rest items := by
  have hshift : ((items.zipIdx 1).filter fun item =>
      (carried :: carriedOut)[item.2]? ≠ some true).map Prod.fst =
        (error carriedOut).rest items := by
    rw [rest, List.zipIdx_succ, List.filter_map, List.map_map]
    rfl
  rw [rest, List.zipIdx_cons, List.filter_cons]
  cases carried with
  | false =>
      rw [if_pos (decide_eq_true (by simp)), List.map_cons, hshift]
      rfl
  | true =>
      rw [if_neg (by simp), hshift]
      rfl

/-- What is left of the items is left when each is known by a number of its own. -/
theorem map_filter_notMem_parts {α β : Type} [DecidableEq β] (delivery : Delivery)
    {pairs : List (α × β)} (hnodup : (pairs.map Prod.snd).Nodup) :
    (pairs.filter fun pair => pair.2 ∉ delivery.parts (pairs.map Prod.snd)).map Prod.fst =
      delivery.rest (pairs.map Prod.fst) := by
  cases delivery with
  | done =>
      rw [parts, rest, List.filter_eq_nil_iff.mpr, List.map_nil]
      intro pair hpair
      simpa using ⟨pair.1, hpair⟩
  | error carriedOut =>
      induction pairs generalizing carriedOut with
      | nil => rfl
      | cons pair pairs ih =>
          rw [List.map_cons, List.nodup_cons] at hnodup
          cases carriedOut with
          | nil => simp [parts, rest]
          | cons carried carriedOut =>
              -- the number of the first item is no other's
              have hothers : pairs.filter (fun other => other.2 ∉
                  (if carried then [pair.2] else []) ++
                    (error carriedOut).parts (pairs.map Prod.snd)) =
                  pairs.filter fun other => other.2 ∉
                    (error carriedOut).parts (pairs.map Prod.snd) := by
                refine List.filter_congr fun other hother => ?_
                have hne : other.2 ≠ pair.2 := fun heq =>
                  hnodup.1 (heq ▸ List.mem_map_of_mem hother)
                cases carried <;> simp [hne]
              have hfirst : pair.2 ∉ (error carriedOut).parts (pairs.map Prod.snd) :=
                fun hmem => hnodup.1 (mem_of_mem_parts hmem)
              rw [List.map_cons, List.map_cons, parts_error_cons, List.filter_cons, hothers,
                rest_error_cons, ← ih hnodup.2]
              cases carried <;> simp [hfirst]

theorem rest_sublist {α : Type} (delivery : Delivery) (items : List α) :
    (delivery.rest items).Sublist items := by
  cases delivery with
  | done => exact List.nil_sublist _
  | error carriedOut =>
      have hfilter : (items.zipIdx.filter fun item => carriedOut[item.2]? ≠ some true).Sublist
          items.zipIdx := List.filter_sublist
      have hmap := hfilter.map Prod.fst
      rwa [List.zipIdx_map_fst] at hmap

/-- The same parts of two lists are carried out. -/
theorem forall₂_parts {α β : Type} {related : α → β → Prop} (delivery : Delivery)
    {items : List α} {others : List β} (hrelated : List.Forall₂ related items others) :
    List.Forall₂ related (delivery.parts items) (delivery.parts others) := by
  cases delivery with
  | done => exact hrelated
  | error carriedOut =>
      induction hrelated generalizing carriedOut with
      | nil => exact .nil
      | cons hitem _ ih =>
          cases carriedOut with
          | nil => simp [parts]
          | cons carried carriedOut =>
              rw [parts_error_cons, parts_error_cons]
              cases carried with
              | false => exact ih carriedOut
              | true => exact .cons hitem (ih carriedOut)

end Delivery

end EveBuild
