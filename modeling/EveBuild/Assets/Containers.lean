import EveBuild.Assets.Model
import EveBuild.Data.Chains

/-!
# The place of an asset

`resolve_container_chain` follows the containers of an asset.  An id leads to another one
(`Inside`) if it is an asset of type `"item"`, so the chain of an id ends at an asset that is in
no container, whose location is the result, or at an id that is no asset, which is the result.

`walkChain_arrives` says where the loop stops: it ends with the chain, or at an id that it has
visited before, which then lies on a cycle.  `countChain_le` bounds its iterations.
-/

namespace EveBuild.Assets

open Relation

variable {byItemId : Dict ℤ AssetEntry}

/-- The loop of `resolve_container_chain` with the number of its iterations. -/
def walkCounting (byItemId : Dict ℤ AssetEntry) (current : ℤ) (visited : Finset ℤ) : ℤ × ℕ :=
  if _hnew : current ∈ byItemId.keys ∧ current ∉ visited then
    match byItemId.get? current with
    | some asset =>
        if asset.locationType ≠ "item" then (asset.locationId, 1)
        else
          let (place, iterations) := walkCounting byItemId asset.locationId (insert current visited)
          (place, iterations + 1)
    | none => (current, 1)
  else (current, 0)
termination_by (byItemId.keys.toFinset \ visited).card
decreasing_by exact card_unvisited_lt _hnew.1 _hnew.2

theorem walkCounting_fst (current : ℤ) (visited : Finset ℤ) :
    (walkCounting byItemId current visited).1 = walkChain byItemId current visited := by
  induction current, visited using walkChain.induct byItemId with
  | case1 current visited hnew asset hasset hoften =>
      rw [walkCounting, walkChain]
      simp [hnew, hasset, hoften]
  | case2 current visited hnew asset hasset hitem ih =>
      rw [walkCounting, walkChain]
      simpa [hnew, hasset, hitem] using ih
  | case3 current visited hnew hnone =>
      rw [walkCounting, walkChain]
      simp [hnew, hnone]
  | case4 current visited hold =>
      rw [walkCounting, walkChain]
      simp [hold]

/-- Each iteration visits a key that no other visits. -/
theorem walkCounting_snd_le (current : ℤ) (visited : Finset ℤ) :
    (walkCounting byItemId current visited).2 ≤ (byItemId.keys.toFinset \ visited).card := by
  induction current, visited using walkChain.induct byItemId with
  | case1 current visited hnew asset hasset hoften =>
      have hlt := card_unvisited_lt hnew.1 hnew.2
      rw [walkCounting]
      simp only [hnew, hasset, hoften, not_false_eq_true, and_self, ↓reduceDIte, ↓reduceIte, ne_eq]
      omega
  | case2 current visited hnew asset hasset hitem ih =>
      have hlt := card_unvisited_lt hnew.1 hnew.2
      rw [walkCounting]
      simp only [hnew, hasset, hitem, not_false_eq_true, and_self, ↓reduceDIte, ↓reduceIte]
      omega
  | case3 current visited hnew hnone =>
      have hlt := card_unvisited_lt hnew.1 hnew.2
      rw [walkCounting]
      simp only [hnew, hnone, not_false_eq_true, and_self, ↓reduceDIte]
      omega
  | case4 current visited hold =>
      rw [walkCounting]
      simp [hold]

/-! ## Where the loop stops -/

/-- The asset `itemId` is inside the item `containerId`. -/
def Inside (byItemId : Dict ℤ AssetEntry) (itemId containerId : ℤ) : Prop :=
  ∃ asset, byItemId.get? itemId = some asset ∧ asset.locationType = "item" ∧
    asset.locationId = containerId

theorem inside_unique : Relator.RightUnique (Inside byItemId) := by
  rintro itemId first second ⟨asset, hasset, -, rfl⟩ ⟨other, hother, -, rfl⟩
  rw [hasset] at hother
  cases hother
  rfl

/-- What the loop makes of the last id of a chain. -/
def placeOf (byItemId : Dict ℤ AssetEntry) (last : ℤ) : ℤ :=
  match byItemId.get? last with
  | some asset => asset.locationId
  | none => last

theorem placeOf_of_notMem {last : ℤ} (hlast : last ∉ byItemId.keys) :
    placeOf byItemId last = last := by
  unfold placeOf
  rw [Dict.get?_eq_none_iff.mpr hlast]

theorem placeOf_of_get? {last : ℤ} {asset : AssetEntry} (hlast : byItemId.get? last = some asset) :
    placeOf byItemId last = asset.locationId := by
  unfold placeOf
  rw [hlast]

/-- The loop ends with the chain, or at an id that it has visited.  Each visited id leads to the
current one, so the id at which it stops is then on a cycle. -/
theorem walkChain_arrives (current : ℤ) (visited : Finset ℤ)
    (hvisited : ∀ id ∈ visited, TransGen (Inside byItemId) id current) :
    (∃ last, Ends (Inside byItemId) current last ∧
      walkChain byItemId current visited = placeOf byItemId last) ∨
    ∃ again, ReflTransGen (Inside byItemId) current again ∧
      TransGen (Inside byItemId) again again ∧ walkChain byItemId current visited = again := by
  induction current, visited using walkChain.induct byItemId with
  | case1 current visited hnew asset hasset hoften =>
      refine .inl ⟨current, ⟨.refl, ?_⟩, ?_⟩
      · rintro further ⟨other, hother, hitem, -⟩
        rw [hasset] at hother
        cases hother
        exact hoften hitem
      · rw [walkChain, placeOf_of_get? hasset]
        simp [hnew, hasset, hoften]
  | case2 current visited hnew asset hasset hitem ih =>
      have hinside : Inside byItemId current asset.locationId :=
        ⟨asset, hasset, not_not.mp hitem, rfl⟩
      have hwalk : walkChain byItemId current visited =
          walkChain byItemId asset.locationId (insert current visited) := by
        rw [walkChain]
        simp [hnew, hasset, hitem]
      -- every visited id leads on to the next one
      have hall : ∀ id ∈ insert current visited,
          TransGen (Inside byItemId) id asset.locationId := by
        intro id hid
        rcases Finset.mem_insert.mp hid with rfl | hold
        · exact .single hinside
        · exact (hvisited id hold).tail hinside
      rw [hwalk]
      rcases ih hall with ⟨last, hends, heq⟩ | ⟨again, hpath, hcycle, heq⟩
      · exact .inl ⟨last, hends.of_next hinside, heq⟩
      · exact .inr ⟨again, hpath.head hinside, hcycle, heq⟩
  | case3 current visited hnew hnone =>
      exact absurd hnew.1 (Dict.get?_eq_none_iff.mp hnone)
  | case4 current visited hold =>
      have hwalk : walkChain byItemId current visited = current := by
        rw [walkChain]
        simp [hold]
      by_cases hkey : current ∈ byItemId.keys
      · -- the id has been visited
        have hagain : current ∈ visited := not_not.mp fun hnew => hold ⟨hkey, hnew⟩
        exact .inr ⟨current, .refl, hvisited current hagain, hwalk⟩
      · refine .inl ⟨current, ⟨.refl, ?_⟩, by rw [hwalk, placeOf_of_notMem hkey]⟩
        rintro further ⟨asset, hasset, -⟩
        exact hkey (Dict.mem_keys_iff.mpr ⟨asset, hasset⟩)

theorem resolveContainerChain_of_ends {start last : ℤ} (hends : Ends (Inside byItemId) start last) :
    resolveContainerChain start byItemId = placeOf byItemId last := by
  unfold resolveContainerChain
  rcases walkChain_arrives start ∅ (by simp) with ⟨other, hother, heq⟩ | ⟨again, hpath, hcycle, -⟩
  · rw [heq, ends_unique inside_unique hends hother]
  · exact absurd ⟨again, hpath, hcycle⟩ (not_circles_of_ends inside_unique hends)

theorem ends_of_not_circles {start : ℤ} (hstraight : ¬ Circles (Inside byItemId) start) :
    ∃ last, Ends (Inside byItemId) start last := by
  have hvisited : ∀ id ∈ (∅ : Finset ℤ), TransGen (Inside byItemId) id start := by simp
  rcases walkChain_arrives start ∅ hvisited with ⟨last, hends, -⟩ | ⟨again, hpath, hcycle, -⟩
  · exact ⟨last, hends⟩
  · exact absurd ⟨again, hpath, hcycle⟩ hstraight

/-- The last id of a chain is an asset in no other, or no asset. -/
theorem placeOf_of_ends {start last : ℤ} (hends : Ends (Inside byItemId) start last) :
    (∃ asset, byItemId.get? last = some asset ∧ asset.locationType ≠ "item" ∧
      placeOf byItemId last = asset.locationId) ∨
    (last ∉ byItemId.keys ∧ placeOf byItemId last = last) := by
  cases hlast : byItemId.get? last with
  | some asset =>
      refine .inl ⟨asset, rfl, fun hitem => ?_, placeOf_of_get? hlast⟩
      exact hends.2 asset.locationId ⟨asset, hlast, hitem, rfl⟩
  | none =>
      have hkey := Dict.get?_eq_none_iff.mp hlast
      exact .inr ⟨hkey, placeOf_of_notMem hkey⟩

/-- What is inside a container is where the container is. -/
theorem resolveContainerChain_inside {itemId containerId : ℤ}
    (hinside : Inside byItemId itemId containerId)
    (hstraight : ¬ Circles (Inside byItemId) itemId) :
    resolveContainerChain itemId byItemId = resolveContainerChain containerId byItemId := by
  have hcontainer : ¬ Circles (Inside byItemId) containerId := fun hcircles =>
    hstraight (hcircles.of_next hinside)
  obtain ⟨last, hends⟩ := ends_of_not_circles hcontainer
  rw [resolveContainerChain_of_ends hends, resolveContainerChain_of_ends (hends.of_next hinside)]

/-- `resolve_container_chain` ends and finds the outermost place: it makes no more iterations
than there are assets; if the chain of containers does not come back to an id, the result is
the location of the asset at its end, or the id at its end, and it is that of the container of
the asset; otherwise the result is an id of the cycle. -/
theorem resolveContainerChain_outermost (byItemId : Dict ℤ AssetEntry) (start : ℤ) :
    ((walkCounting byItemId start ∅).1 = resolveContainerChain start byItemId ∧
      (walkCounting byItemId start ∅).2 ≤ byItemId.entries.length) ∧
    (¬ Circles (Inside byItemId) start →
      (∃ last, Ends (Inside byItemId) start last ∧
        ((∃ asset, byItemId.get? last = some asset ∧ asset.locationType ≠ "item" ∧
            resolveContainerChain start byItemId = asset.locationId) ∨
          (last ∉ byItemId.keys ∧ resolveContainerChain start byItemId = last))) ∧
      ∀ asset, byItemId.get? start = some asset → asset.locationType = "item" →
        resolveContainerChain start byItemId =
          resolveContainerChain asset.locationId byItemId) ∧
    (Circles (Inside byItemId) start →
      ReflTransGen (Inside byItemId) start (resolveContainerChain start byItemId) ∧
        TransGen (Inside byItemId) (resolveContainerChain start byItemId)
          (resolveContainerChain start byItemId)) := by
  refine ⟨⟨walkCounting_fst start ∅, ?_⟩, fun hstraight => ⟨?_, ?_⟩, fun hcircles => ?_⟩
  · -- an iteration visits an id that is new
    calc (walkCounting byItemId start ∅).2
        ≤ (byItemId.keys.toFinset \ ∅).card := walkCounting_snd_le start ∅
      _ = byItemId.keys.toFinset.card := by rw [Finset.sdiff_empty]
      _ ≤ byItemId.keys.length := List.toFinset_card_le _
      _ = byItemId.entries.length := List.length_map ..
  · obtain ⟨last, hends⟩ := ends_of_not_circles hstraight
    rw [resolveContainerChain_of_ends hends]
    exact ⟨last, hends, placeOf_of_ends hends⟩
  · intro asset hasset hitem
    exact resolveContainerChain_inside ⟨asset, hasset, hitem, rfl⟩ hstraight
  · unfold resolveContainerChain
    rcases walkChain_arrives start ∅ (by simp) with ⟨last, hends, -⟩ | ⟨again, hpath, hcycle, heq⟩
    · exact absurd hcircles (not_circles_of_ends inside_unique hends)
    · rw [heq]
      exact ⟨hpath, hcycle⟩

end EveBuild.Assets
