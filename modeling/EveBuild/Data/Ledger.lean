import Mathlib.Data.Multiset.UnionInter

/-!
# Keys and their owners

Things with keys are passed around between owners.  A ledger says which keys each
owner has; it is `Separate` when no key is there twice, with one owner or with two.
It stays so when owners drop keys (`Separate.mono`), when one owner passes keys to
another (`Separate.transfer`), and when an owner gets keys that are `Fresh`
(`Separate.add`).
-/

namespace EveBuild

variable {Owner Key : Type*}

/-- No key is with two owners, or with one owner twice. -/
structure Separate (holdings : Owner → Multiset Key) : Prop where
  nodup : ∀ owner, (holdings owner).Nodup
  disjoint : ∀ first second, first ≠ second → Disjoint (holdings first) (holdings second)

/-- The keys are different, and no owner has one of them. -/
structure Fresh (holdings : Owner → Multiset Key) (keys : Multiset Key) : Prop where
  nodup : keys.Nodup
  disjoint : ∀ owner, Disjoint (holdings owner) keys

namespace Separate

variable {holdings later : Owner → Multiset Key}

theorem mono (hseparate : Separate holdings) (hle : ∀ owner, later owner ≤ holdings owner) :
    Separate later where
  nodup := fun owner => Multiset.nodup_of_le (hle owner) (hseparate.nodup owner)
  disjoint := fun first second hne =>
    (hseparate.disjoint first second hne).mono (hle first) (hle second)

/-- **Passing on.**  Keys go from one owner to another. -/
theorem transfer (hseparate : Separate holdings) {giver taker : Owner} (hne : giver ≠ taker)
    (hsum : later giver + later taker ≤ holdings giver + holdings taker)
    (hothers : ∀ owner, owner ≠ giver → owner ≠ taker → later owner ≤ holdings owner) :
    Separate later := by
  have htogether : (holdings giver + holdings taker).Nodup :=
    Multiset.nodup_add.mpr
      ⟨hseparate.nodup giver, hseparate.nodup taker, hseparate.disjoint giver taker hne⟩
  obtain ⟨hgiver, htaker, hboth⟩ := Multiset.nodup_add.mp (Multiset.nodup_of_le hsum htogether)
  -- what a third owner has, neither of the two had before
  have hthird : ∀ owner, owner ≠ giver → owner ≠ taker →
      Disjoint (later owner) (later giver + later taker) := by
    intro owner hownerGiver hownerTaker
    have hold : Disjoint (holdings owner) (holdings giver + holdings taker) :=
      Multiset.disjoint_add_right.mpr
        ⟨hseparate.disjoint owner giver hownerGiver, hseparate.disjoint owner taker hownerTaker⟩
    exact hold.mono (hothers owner hownerGiver hownerTaker) hsum
  refine ⟨fun owner => ?_, fun first second hfirst => ?_⟩
  · by_cases hownerGiver : owner = giver
    · exact hownerGiver ▸ hgiver
    · by_cases hownerTaker : owner = taker
      · exact hownerTaker ▸ htaker
      · exact Multiset.nodup_of_le (hothers owner hownerGiver hownerTaker) (hseparate.nodup owner)
  · by_cases hfirstTwo : first = giver ∨ first = taker
    · by_cases hsecondTwo : second = giver ∨ second = taker
      · rcases hfirstTwo with rfl | rfl <;> rcases hsecondTwo with rfl | rfl
        · exact absurd rfl hfirst
        · exact hboth
        · exact hboth.symm
        · exact absurd rfl hfirst
      · obtain ⟨hsecondGiver, hsecondTaker⟩ := not_or.mp hsecondTwo
        obtain ⟨hdisjGiver, hdisjTaker⟩ :=
          Multiset.disjoint_add_right.mp (hthird second hsecondGiver hsecondTaker)
        rcases hfirstTwo with rfl | rfl
        · exact hdisjGiver.symm
        · exact hdisjTaker.symm
    · obtain ⟨hfirstGiver, hfirstTaker⟩ := not_or.mp hfirstTwo
      obtain ⟨hdisjGiver, hdisjTaker⟩ :=
        Multiset.disjoint_add_right.mp (hthird first hfirstGiver hfirstTaker)
      by_cases hsecondGiver : second = giver
      · exact hsecondGiver ▸ hdisjGiver
      · by_cases hsecondTaker : second = taker
        · exact hsecondTaker ▸ hdisjTaker
        · exact (hseparate.disjoint first second hfirst).mono
            (hothers first hfirstGiver hfirstTaker) (hothers second hsecondGiver hsecondTaker)

/-- **New keys.**  An owner gets keys that nobody has. -/
theorem add (hseparate : Separate holdings) {keys : Multiset Key} (hfresh : Fresh holdings keys)
    {taker : Owner} (htaker : later taker ≤ holdings taker + keys)
    (hothers : ∀ owner, owner ≠ taker → later owner ≤ holdings owner) : Separate later := by
  have htakerNodup : (holdings taker + keys).Nodup :=
    Multiset.nodup_add.mpr ⟨hseparate.nodup taker, hfresh.nodup, hfresh.disjoint taker⟩
  have hother : ∀ owner, owner ≠ taker → Disjoint (later owner) (later taker) := by
    intro owner hne
    have hold : Disjoint (holdings owner) (holdings taker + keys) :=
      Multiset.disjoint_add_right.mpr ⟨hseparate.disjoint owner taker hne, hfresh.disjoint owner⟩
    exact hold.mono (hothers owner hne) htaker
  refine ⟨fun owner => ?_, fun first second hne => ?_⟩
  · by_cases howner : owner = taker
    · exact howner ▸ Multiset.nodup_of_le htaker htakerNodup
    · exact Multiset.nodup_of_le (hothers owner howner) (hseparate.nodup owner)
  · by_cases hfirst : first = taker
    · exact hfirst ▸ (hother second fun hsecond => hne (hfirst.trans hsecond.symm)).symm
    · by_cases hsecond : second = taker
      · exact hsecond ▸ hother first hfirst
      · exact (hseparate.disjoint first second hne).mono (hothers first hfirst)
          (hothers second hsecond)

end Separate

end EveBuild
