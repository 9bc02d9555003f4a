import EveBuild.Planets.Model
import Mathlib.Algebra.BigOperators.Group.List.Basic
import Mathlib.Algebra.Order.Group.Int
import Mathlib.Tactic.Ring

/-!
# How the planet pages classify pins

On each page every pin is counted once.  The detail page counts a pin as an extractor if it
has details at all, and as a factory if it has none and its schematic is known
(`counts_pinCards`).  The list takes empty details for none and any schematic for a known
one, so the numbers are the same exactly when no pin has empty details and the schematics of
all other pins are known (`pin_counts_agree_iff`).
-/

namespace EveBuild.Planets

open Migrations (SchematicDocument appendTo)

/-- Both pages take the pin for the same. -/
structure ClassifiedAlike (byId : Dict ℤ SchematicDocument) (pin : Pin) : Prop where
  details : ∀ details, pin.extractorDetails = some details → details.entries ≠ []
  schematic : pin.extractorDetails = none →
    ∀ schematicId, pin.schematicId = some schematicId → schematicId ∈ byId.keys

/-! ## Counting -/

/-- If all that is counted once is counted the other time, the counts are the same when
nothing else is. -/
theorem countP_eq_iff {α : Type*} {p q : α → Bool} {items : List α}
    (himp : ∀ item ∈ items, p item = true → q item = true) :
    items.countP p = items.countP q ↔ ∀ item ∈ items, q item = true → p item = true := by
  constructor
  · intro heq
    induction items with
    | nil => simp
    | cons item rest ih =>
        obtain ⟨hitem, hrest⟩ := List.forall_mem_cons.mp himp
        have hle := List.countP_mono_left hrest
        rw [List.countP_cons, List.countP_cons] at heq
        refine List.forall_mem_cons.mpr ⟨fun hq => ?_, ih hrest ?_⟩
        · by_contra hp
          rw [if_neg hp, if_pos hq] at heq
          omega
        · split at heq
          · rename_i hp
            rw [if_pos (hitem hp)] at heq
            omega
          · split at heq
            · omega
            · exact heq
  · intro hback
    exact List.countP_congr fun item hitem => ⟨himp item hitem, hback item hitem⟩

variable {byId : Dict ℤ SchematicDocument}

/-- The detail page counts the pin as a factory. -/
def Pin.isFactory (byId : Dict ℤ SchematicDocument) (pin : Pin) : Bool :=
  pin.extractorDetails.isNone && (pin.schematicId.bind byId.get?).isSome

section Cards

variable {Card : Type} (extractorCard storageCard : Pin → Card)
  (factoryCard : Pin → SchematicDocument → Card)

/-- One more card of a type is one more card. -/
theorem sum_lengths_appendTo (lists : Dict ℤ (List Card)) (key : ℤ) (card : Card) :
    ((appendTo lists key card).values.map fun cards => (cards.length : ℤ)).sum =
      (lists.values.map fun cards => (cards.length : ℤ)).sum + 1 := by
  have hsum := lists.sum_set key (lists.getD key [] ++ [card]) fun cards => (cards.length : ℤ)
  have hold : (lists.get? key).elim 0 (fun cards => (cards.length : ℤ)) =
      (lists.getD key []).length := by
    rw [Dict.getD]
    cases lists.get? key <;> rfl
  rw [hold, List.length_append, List.length_singleton] at hsum
  unfold appendTo
  push_cast at hsum
  omega

/-- **Each pin makes one card**, of the kind that its fields say. -/
theorem counts_placePin (cards : PinCards Card) (pin : Pin) :
    (placePin byId extractorCard storageCard factoryCard cards pin).counts =
      { extractors := cards.counts.extractors + if pin.extractorDetails.isSome then 1 else 0
        factories := cards.counts.factories + if pin.isFactory byId then 1 else 0
        storage := cards.counts.storage +
          if pin.extractorDetails.isSome || pin.isFactory byId then 0 else 1 } := by
  unfold placePin Pin.isFactory
  cases pin.extractorDetails with
  | some details => simp [PinCards.counts]
  | none =>
      cases pin.schematicId.bind byId.get? with
      | some schematic => simp [PinCards.counts, sum_lengths_appendTo]
      | none => simp [PinCards.counts]

/-- **The numbers of the detail page.** -/
theorem counts_pinCards (pins : List Pin) :
    (pinCards byId extractorCard storageCard factoryCard pins).counts =
      { extractors := pins.countP fun pin => pin.extractorDetails.isSome
        factories := pins.countP fun pin => pin.isFactory byId
        storage := pins.countP fun pin =>
          !(pin.extractorDetails.isSome || pin.isFactory byId) } := by
  -- a pin adds to one of the three numbers
  have hfold : ∀ (pins : List Pin) (cards : PinCards Card),
      (pins.foldl (placePin byId extractorCard storageCard factoryCard) cards).counts =
        { extractors := cards.counts.extractors +
            pins.countP fun pin => pin.extractorDetails.isSome
          factories := cards.counts.factories + pins.countP fun pin => pin.isFactory byId
          storage := cards.counts.storage + pins.countP fun pin =>
            !(pin.extractorDetails.isSome || pin.isFactory byId) } := by
    intro pins
    induction pins with
    | nil => simp
    | cons pin rest ih =>
        intro cards
        rw [List.foldl_cons, ih, counts_placePin]
        simp only [List.countP_cons, Nat.cast_add, Nat.cast_ite, Nat.cast_one, Nat.cast_zero,
          Bool.not_eq_true', PinCounts.mk.injEq]
        refine ⟨by ring, by ring, ?_⟩
        cases pin.extractorDetails.isSome || pin.isFactory byId with
        | true => simp
        | false =>
            simp
            ring
  rw [pinCards, hfold]
  simp [PinCards.counts, Dict.values]

/-! ## Comparing the pages -/

/-- **The totals.**  On each page the three numbers add up to the number of pins. -/
theorem total_listCounts (pins : List Pin) : (listCounts pins).total = pins.length := by
  unfold listCounts PinCounts.total
  ring

theorem total_pinCards (pins : List Pin) :
    (pinCards byId extractorCard storageCard factoryCard pins).counts.total = pins.length := by
  rw [counts_pinCards, PinCounts.total]
  induction pins with
  | nil => rfl
  | cons pin rest ih =>
      -- a pin without details that is no factory is storage, and one with details is no factory
      have hfactory : pin.extractorDetails.isSome = true → pin.isFactory byId = false := by
        intro hdetails
        unfold Pin.isFactory
        rw [Option.isNone_eq_false_iff.mpr hdetails, Bool.false_and]
      simp only [List.countP_cons, List.length_cons, Nat.cast_add, Nat.cast_ite, Nat.cast_one,
        Nat.cast_zero, Bool.not_eq_true'] at ih ⊢
      cases hdetails : pin.extractorDetails.isSome with
      | true =>
          rw [hfactory hdetails]
          simp only [Bool.true_or, Bool.true_eq_false, Bool.false_eq_true, if_true, if_false]
          omega
      | false =>
          cases pin.isFactory byId <;> simp only [Bool.or_false, Bool.or_true, Bool.true_eq_false,
            Bool.false_eq_true, if_true, if_false] <;> omega

/-- An object with entries is a condition that holds, one without is not. -/
theorem hasDetails_iff (pin : Pin) :
    pin.hasDetails = true ↔ ∃ details, pin.extractorDetails = some details ∧
      details.entries ≠ [] := by
  unfold Pin.hasDetails
  cases pin.extractorDetails <;> simp

theorem isSome_of_hasDetails {pin : Pin} (h : pin.hasDetails = true) :
    pin.extractorDetails.isSome = true := by
  obtain ⟨details, hdetails, -⟩ := (hasDetails_iff pin).mp h
  rw [hdetails]
  rfl

/-- The detail page counts as factories the pins without details whose schematic is known. -/
theorem isFactory_iff (pin : Pin) :
    pin.isFactory byId = true ↔ pin.extractorDetails = none ∧
      ∃ schematicId ∈ pin.schematicId, schematicId ∈ byId.keys := by
  unfold Pin.isFactory
  cases pin.extractorDetails with
  | some details => simp
  | none =>
      cases pin.schematicId with
      | none => simp
      | some schematicId => simp [Dict.mem_keys_iff, Option.isSome_iff_exists]

/-- **The factories.**  Where no pin has empty details, the pages count the same factories
exactly when the schematic of each pin without details is known. -/
theorem countP_isFactory_eq_iff {pins : List Pin}
    (hdetails : ∀ pin ∈ pins, pin.extractorDetails.isSome = true → pin.hasDetails = true) :
    pins.countP (fun pin => pin.isFactory byId) =
        pins.countP (fun pin => pin.schematicId.isSome && !pin.hasDetails) ↔
      ∀ pin ∈ pins, pin.extractorDetails = none →
        ∀ schematicId, pin.schematicId = some schematicId → schematicId ∈ byId.keys := by
  have hlisted : ∀ pin : Pin, (pin.schematicId.isSome && !pin.hasDetails) = true ↔
      pin.hasDetails = false ∧ ∃ schematicId, pin.schematicId = some schematicId := by
    intro pin
    rw [Bool.and_eq_true, Bool.not_eq_true', Option.isSome_iff_exists, and_comm]
  have hnone : ∀ pin ∈ pins, pin.hasDetails = false → pin.extractorDetails = none := by
    intro pin hpin hno
    cases hsome : pin.extractorDetails.isSome with
    | true => rw [hdetails pin hpin hsome] at hno; contradiction
    | false => exact Option.not_isSome_iff_eq_none.mp (by rw [hsome]; decide)
  -- a factory of the detail page is one of the list
  have himp : ∀ pin ∈ pins, pin.isFactory byId = true →
      (pin.schematicId.isSome && !pin.hasDetails) = true := by
    intro pin _ hfactory
    obtain ⟨habsent, schematicId, hschematic, -⟩ := (isFactory_iff pin).mp hfactory
    refine (hlisted pin).mpr ⟨?_, schematicId, hschematic⟩
    unfold Pin.hasDetails
    rw [habsent]
  rw [countP_eq_iff himp]
  constructor
  · intro hback pin hpin habsent schematicId hschematic
    have hno : pin.hasDetails = false := by
      unfold Pin.hasDetails
      rw [habsent]
    obtain ⟨-, found, hfound, hknown⟩ :=
      (isFactory_iff pin).mp (hback pin hpin ((hlisted pin).mpr ⟨hno, schematicId, hschematic⟩))
    cases hschematic.symm.trans hfound
    exact hknown
  · intro hknown pin hpin hlist
    obtain ⟨hno, schematicId, hschematic⟩ := (hlisted pin).mp hlist
    have habsent := hnone pin hpin hno
    exact (isFactory_iff pin).mpr
      ⟨habsent, schematicId, hschematic, hknown pin hpin habsent schematicId hschematic⟩

/-- **When the pages agree.**  The two pages show the same numbers for a colony exactly when
they classify each of its pins alike; the numbers of each page add up to the number of pins
in any case. -/
theorem pin_counts_agree_iff (schematics : List (ℤ × SchematicDocument)) (pins : List Pin) :
    (listCounts pins = (pinCards (schematicById schematics) extractorCard storageCard factoryCard
          pins).counts ∧
        (listCounts pins).total = pins.length ∧
        (pinCards (schematicById schematics) extractorCard storageCard factoryCard
          pins).counts.total = pins.length) ↔
      ∀ pin ∈ pins, ClassifiedAlike (schematicById schematics) pin := by
  have hextractors : (pins.countP fun pin => pin.hasDetails) =
        (pins.countP fun pin => pin.extractorDetails.isSome) ↔
      ∀ pin ∈ pins, pin.extractorDetails.isSome = true → pin.hasDetails = true :=
    countP_eq_iff fun pin _ => isSome_of_hasDetails
  set byId := schematicById schematics
  have hcards : (pinCards byId extractorCard storageCard factoryCard pins).counts = _ :=
    counts_pinCards extractorCard storageCard factoryCard pins
  constructor
  · rintro ⟨heq, -, -⟩ pin hpin
    rw [hcards] at heq
    have hdetails := hextractors.mp (Int.ofNat_inj.mp (congrArg PinCounts.extractors heq))
    have hfactories := (countP_isFactory_eq_iff hdetails).mp
      (Int.ofNat_inj.mp (congrArg PinCounts.factories heq).symm)
    refine ⟨fun details hsome => ?_, hfactories pin hpin⟩
    obtain ⟨_, hfound, hentries⟩ :=
      (hasDetails_iff pin).mp (hdetails pin hpin (by rw [hsome]; rfl))
    cases hsome.symm.trans hfound
    exact hentries
  · intro halike
    have hdetails : ∀ pin ∈ pins, pin.extractorDetails.isSome = true → pin.hasDetails = true := by
      intro pin hpin hsome
      obtain ⟨details, hdetails⟩ := Option.isSome_iff_exists.mp hsome
      exact (hasDetails_iff pin).mpr ⟨details, hdetails, (halike pin hpin).details _ hdetails⟩
    have hfactories := (countP_isFactory_eq_iff hdetails).mpr
      fun pin hpin => (halike pin hpin).schematic
    have htotal : (pinCards byId extractorCard storageCard factoryCard pins).counts.total =
        pins.length := total_pinCards extractorCard storageCard factoryCard pins
    refine ⟨?_, total_listCounts pins, htotal⟩
    -- two of the numbers are the same, and the sums are
    rw [hcards, ← hextractors.mpr hdetails, hfactories] at htotal ⊢
    unfold PinCounts.total at htotal
    unfold listCounts
    dsimp only at htotal ⊢
    rw [PinCounts.mk.injEq]
    omega

end Cards

/-- A factory whose schematic is not in the table: the list counts it as a factory, the
detail page as storage. -/
theorem unknown_schematic_listed_as_factory :
    listCounts [⟨2470, none, some 121, none, none⟩] = ⟨0, 1, 0⟩ ∧
      (pinCards (schematicById []) (fun _ => ()) (fun _ => ()) (fun _ _ => ())
        [⟨2470, none, some 121, none, none⟩]).counts = ⟨0, 0, 1⟩ ∧
      listCounts [⟨2470, none, some 121, none, none⟩] ≠
        (pinCards (schematicById []) (fun _ => ()) (fun _ => ()) (fun _ _ => ())
          [⟨2470, none, some 121, none, none⟩]).counts := by
  decide

end EveBuild.Planets
