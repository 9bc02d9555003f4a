import Mathlib.Data.List.Induction
import EveBuild.Pages.Planets

/-!
# The resource flow of a colony

`colony_detail` adds up what the pins of a colony take in and give out, and lists a type among
the imports or the exports by the truth of its two sums.  The sums are floats: a quantity that
cannot be added to one is an error, and then there is no page.

`sumOf_of_resourceFlow` says what the two sums of a type are.  What a sum is zero for has been
taken in or given out nonetheless, and `flowRight_iff` says exactly when the lists are wrong for
that reason, or are not made at all.
-/

namespace EveBuild.Pages

open Migrations (SchematicDocument)
open Planets (Pin schematicById)

/-! ## What a colony takes in and gives out -/

section Colony

variable (byId : Dict ℤ SchematicDocument) (pins : List Pin) (typeId : ℤ)

/-- A pin that runs a known schematic consumes the type. -/
def Consumed : Prop :=
  ∃ pin ∈ pins, ∃ schematic, factorySchematic? byId pin = some schematic ∧
    ∃ material ∈ schematic.inputs, material.typeId = typeId

/-- A pin produces the type, as an extractor or by its schematic. -/
def Produced : Prop :=
  ∃ pin ∈ pins, (∃ details, pin.extractorDetails = some details ∧
      intField details "product_type_id" = some typeId) ∨
    ∃ schematic, factorySchematic? byId pin = some schematic ∧ schematic.output.typeId = typeId

/-- The quantities of a type that the pins take in or give out, in the order of the pins. -/
def quantitiesOf (direction : Direction) : List Value :=
  ((pins.flatMap (flowCalls byId)).filter fun call =>
    call.typeId = typeId ∧ call.direction = direction).map FlowCall.quantity

/-- Their sum. -/
def sumOf (direction : Direction) : Except PageError FloatValue :=
  (quantitiesOf byId pins typeId direction).foldlM addQuantity (.finite 0)

end Colony

variable {byId : Dict ℤ SchematicDocument} {pins : List Pin} {typeId : ℤ} {services : Services}
  {methods : StringMethods}

theorem mem_flowCalls_into {pin : Pin} : (∃ call ∈ flowCalls byId pin,
      call.typeId = typeId ∧ call.direction = .into) ↔
    ∃ schematic, factorySchematic? byId pin = some schematic ∧
      ∃ material ∈ schematic.inputs, material.typeId = typeId := by
  unfold flowCalls factorySchematic?
  cases pin.extractorDetails with
  | some details => cases hproduct : intField details "product_type_id" <;> simp [hproduct]
  | none => cases pin.schematicId.bind byId.get? <;> simp

theorem mem_flowCalls_outOf {pin : Pin} : (∃ call ∈ flowCalls byId pin,
      call.typeId = typeId ∧ call.direction = .outOf) ↔
    (∃ details, pin.extractorDetails = some details ∧
      intField details "product_type_id" = some typeId) ∨
    ∃ schematic, factorySchematic? byId pin = some schematic ∧
      schematic.output.typeId = typeId := by
  unfold flowCalls factorySchematic?
  cases hdetails : pin.extractorDetails with
  | some details => cases hproduct : intField details "product_type_id" <;> simp [hproduct]
  | none => cases pin.schematicId.bind byId.get? <;> simp

theorem quantitiesOf_ne_nil_iff {direction : Direction} :
    quantitiesOf byId pins typeId direction ≠ [] ↔ ∃ pin ∈ pins, ∃ call ∈ flowCalls byId pin,
      call.typeId = typeId ∧ call.direction = direction := by
  unfold quantitiesOf
  simp only [ne_eq, List.map_eq_nil_iff, List.filter_eq_nil_iff, List.mem_flatMap,
    decide_eq_true_eq]
  grind

theorem consumed_iff : Consumed byId pins typeId ↔ quantitiesOf byId pins typeId .into ≠ [] := by
  rw [quantitiesOf_ne_nil_iff]
  simp only [mem_flowCalls_into]
  exact Iff.rfl

theorem produced_iff : Produced byId pins typeId ↔ quantitiesOf byId pins typeId .outOf ≠ [] := by
  rw [quantitiesOf_ne_nil_iff]
  simp only [mem_flowCalls_outOf]
  exact Iff.rfl

/-! ## What the sums are -/

/-- A quantity that can be added to a float: not an integer that is too large for one. -/
def IsAddable : Value → Prop
  | .number (.int quantity) => FloatValue.ofInt? quantity ≠ none
  | .number (.float _) | .bool _ => True
  | _ => False

theorem asFloat_ok_iff (quantity : Value) :
    (∃ value, asFloat quantity = .ok value) ↔ IsAddable quantity := by
  unfold asFloat IsAddable
  split
  · rename_i quantity
    show _ ↔ FloatValue.ofInt? quantity ≠ none
    cases FloatValue.ofInt? quantity <;>
      simp [throw, throwThe, MonadExceptOf.throw, pure, Except.pure]
  · simp [pure, Except.pure]
  · simp [pure, Except.pure]
  · simp [throw, throwThe, MonadExceptOf.throw]

theorem addQuantity_eq_ok {sum later : FloatValue} {quantity : Value} :
    addQuantity sum quantity = .ok later ↔
      ∃ value, asFloat quantity = .ok value ∧ sum.add value = later := by
  unfold addQuantity
  cases asFloat quantity <;> simp [Functor.map, Except.map]

/-- The page is made if all quantities are addable. -/
theorem resourceFlow_ok_iff :
    (∃ flows, resourceFlow byId pins = .ok flows) ↔
      ∀ call ∈ pins.flatMap (flowCalls byId), IsAddable call.quantity := by
  have hadd : ∀ (flows : Dict ℤ Flow) (call : FlowCall),
      (∃ later, addFlow flows call = .ok later) ↔ IsAddable call.quantity := by
    intro flows call
    rw [← asFloat_ok_iff]
    constructor
    · rintro ⟨later, hlater⟩
      obtain ⟨sum, hsum, -⟩ := bind_eq_ok.mp hlater
      obtain ⟨value, hvalue, -⟩ := addQuantity_eq_ok.mp hsum
      exact ⟨value, hvalue⟩
    · rintro ⟨value, hvalue⟩
      exact ⟨_, bind_eq_ok.mpr ⟨_, addQuantity_eq_ok.mpr ⟨value, hvalue, rfl⟩, rfl⟩⟩
  unfold resourceFlow
  generalize pins.flatMap (flowCalls byId) = calls
  generalize Dict.empty = flows
  induction calls generalizing flows with
  | nil => exact iff_of_true ⟨_, rfl⟩ (by simp)
  | cons call rest ih =>
      rw [List.forall_mem_cons, List.foldlM_cons, ← hadd flows call]
      constructor
      · rintro ⟨last, hlast⟩
        obtain ⟨later, hlater, hrest⟩ := bind_eq_ok.mp hlast
        exact ⟨⟨later, hlater⟩, (ih later).mp ⟨last, hrest⟩⟩
      · rintro ⟨⟨later, hlater⟩, hall⟩
        obtain ⟨last, hrest⟩ := (ih later).mpr hall
        exact ⟨last, bind_eq_ok.mpr ⟨later, hlater, hrest⟩⟩

/-- The two sums of each type. -/
def cellsOf (flows : Dict ℤ Flow) (cell : ℤ × Direction) : FloatValue :=
  (flows.getD cell.1 .zero).sum cell.2

@[simp] theorem sum_setSum (entry : Flow) (direction other : Direction) (sum : FloatValue) :
    (entry.setSum direction sum).sum other =
      if other = direction then sum else entry.sum other := by
  cases direction <;> cases other <;> rfl

/-- A call adds to one of the sums of one type. -/
theorem map_addFlow (flows : Dict ℤ Flow) (call : FlowCall) :
    (addFlow flows call).map cellsOf =
      accumulate addQuantity (cellsOf flows) ((call.typeId, call.direction), call.quantity) := by
  unfold addFlow accumulate cellsOf
  cases hsum : addQuantity ((flows.getD call.typeId .zero).sum call.direction) call.quantity with
  | error error => simp [hsum, bind, Except.bind, Except.map]
  | ok sum =>
      simp only [hsum, bind, Except.bind, pure, Except.pure, Except.map, Except.ok.injEq]
      funext cell
      obtain ⟨typeId, direction⟩ := cell
      simp only [Dict.getD_set, Function.update_apply, Prod.mk.injEq]
      by_cases htypeId : typeId = call.typeId
      · subst htypeId
        simp
      · simp [htypeId]

/-- **The sums of a type** are those of its quantities. -/
theorem sumOf_of_resourceFlow {flows : Dict ℤ Flow} (hflows : resourceFlow byId pins = .ok flows)
    (typeId : ℤ) (direction : Direction) :
    sumOf byId pins typeId direction = .ok ((flows.getD typeId .zero).sum direction) := by
  have hcells := @map_foldlM _ _ _ _ addFlow (fun cells call => accumulate addQuantity cells
    ((call.typeId, call.direction), call.quantity)) cellsOf map_addFlow
      (pins.flatMap (flowCalls byId)) .empty
  rw [← resourceFlow, hflows, Except.map, ← @List.foldlM_map _ _ _ _ _
    (fun call : FlowCall => ((call.typeId, call.direction), call.quantity))] at hcells
  have hsum := foldlM_accumulate_eq_ok.mp hcells.symm (typeId, direction)
  rw [List.filter_map, List.map_map] at hsum
  have hzero : cellsOf .empty (typeId, direction) = .finite 0 := by cases direction <;> rfl
  rw [hzero] at hsum
  simpa [sumOf, quantitiesOf, Function.comp_def, cellsOf] using hsum

/-! ## Which types are listed -/

/-- A type is listed by the truth of its sums; one without an entry has none that is true. -/
theorem mem_filter_resourceNames (flows : Dict ℤ Flow) (shown hidden : Direction) :
    typeId ∈ (resourceNames services methods flows).filter (fun typeId =>
        ((flows.getD typeId .zero).sum shown).isTrue &&
          !((flows.getD typeId .zero).sum hidden).isTrue) ↔
      ((flows.getD typeId .zero).sum shown).isTrue = true ∧
        ((flows.getD typeId .zero).sum hidden).isTrue = false := by
  rw [List.mem_filter, resourceNames, mem_sortedBy, Bool.and_eq_true, Bool.not_eq_true',
    and_iff_right_iff_imp]
  rintro ⟨hshown, -⟩
  by_contra hkey
  rw [Dict.getD, Dict.get?_eq_none_iff.mpr hkey] at hshown
  cases shown <;> exact absurd hshown (by decide)

theorem mem_importTypeIds {flows : Dict ℤ Flow} :
    typeId ∈ importTypeIds services methods flows ↔
      (flows.getD typeId .zero).into.isTrue = true ∧
        (flows.getD typeId .zero).outOf.isTrue = false :=
  mem_filter_resourceNames flows .into .outOf

theorem mem_exportTypeIds {flows : Dict ℤ Flow} :
    typeId ∈ exportTypeIds services methods flows ↔
      (flows.getD typeId .zero).outOf.isTrue = true ∧
        (flows.getD typeId .zero).into.isTrue = false :=
  mem_filter_resourceNames flows .outOf .into

theorem nodup_eraseDups : ∀ typeIds : List ℤ, typeIds.eraseDups.Nodup := by
  intro typeIds
  induction hlength : typeIds.length using Nat.strong_induction_on generalizing typeIds with
  | _ length ih =>
      cases typeIds with
      | nil => exact List.nodup_nil
      | cons first rest =>
          have hshorter : (rest.filter fun other => !other == first).length < length := by
            rw [← hlength, List.length_cons, Nat.lt_succ_iff]
            exact List.length_filter_le ..
          rw [List.eraseDups_cons, List.nodup_cons, List.mem_eraseDups]
          exact ⟨by simp, ih _ hshorter _ rfl⟩

/-- "Produces" shows what the pins produce. -/
theorem mem_producedTypeIds {colony : ColonyRecord} :
    typeId ∈ producedTypeIds byId colony ↔ Produced byId colony.pins typeId := by
  unfold producedTypeIds Produced
  rw [List.mem_eraseDups, List.mem_filterMap]
  refine exists_congr fun pin => and_congr_right fun _ => ?_
  unfold factorySchematic?
  cases pin.extractorDetails with
  | some details => simp
  | none =>
      show Option.map _ _ = some typeId ↔ _
      rw [Option.map_eq_some_iff]
      simp

/-- The lists of a colony are those of its net resource flow, and "Produces" shows what it
produces. -/
structure ListsRight (byId : Dict ℤ SchematicDocument) (colony : ColonyRecord)
    (importTypeIds exportTypeIds : List ℤ) : Prop where
  imports : ∀ typeId, typeId ∈ importTypeIds ↔
    Consumed byId colony.pins typeId ∧ ¬ Produced byId colony.pins typeId
  exports : ∀ typeId, typeId ∈ exportTypeIds ↔
    Produced byId colony.pins typeId ∧ ¬ Consumed byId colony.pins typeId
  neither : ∀ typeId, Consumed byId colony.pins typeId → Produced byId colony.pins typeId →
    typeId ∉ importTypeIds ∧ typeId ∉ exportTypeIds
  produces : ∀ typeId, typeId ∈ producedTypeIds byId colony ↔ Produced byId colony.pins typeId
  once : (producedTypeIds byId colony).Nodup
  among : ∀ typeId ∈ exportTypeIds, typeId ∈ producedTypeIds byId colony

/-- The lists are made, and are right. -/
def FlowRight (services : Services) (methods : StringMethods) (colony : ColonyRecord) : Prop :=
  ∃ flows, resourceFlow (schematicById services.planetSchematics) colony.pins = .ok flows ∧
    ListsRight (schematicById services.planetSchematics) colony
      (importTypeIds services methods flows) (exportTypeIds services methods flows)

/-- All quantities can be added up, every sum has the truth value that says whether there is
something to add up, and the two sums of an intermediate have the same one. -/
structure SumsTell (byId : Dict ℤ SchematicDocument) (pins : List Pin) : Prop where
  addable : ∀ call ∈ pins.flatMap (flowCalls byId), IsAddable call.quantity
  consumed : ∀ typeId, Consumed byId pins typeId → ¬ Produced byId pins typeId →
    ∀ sum, sumOf byId pins typeId .into = .ok sum → sum.isTrue = true
  produced : ∀ typeId, Produced byId pins typeId → ¬ Consumed byId pins typeId →
    ∀ sum, sumOf byId pins typeId .outOf = .ok sum → sum.isTrue = true
  both : ∀ typeId, Consumed byId pins typeId → Produced byId pins typeId →
    ∀ into outOf, sumOf byId pins typeId .into = .ok into →
      sumOf byId pins typeId .outOf = .ok outOf → (into.isTrue = true ↔ outOf.isTrue = true)

section Sums

variable {flows : Dict ℤ Flow} (hflows : resourceFlow byId pins = .ok flows)

include hflows

theorem into_eq_of_not_consumed (hnot : ¬ Consumed byId pins typeId) :
    (flows.getD typeId .zero).into = .finite 0 := by
  rw [consumed_iff, not_not] at hnot
  have hsum := sumOf_of_resourceFlow hflows typeId .into
  rw [sumOf, hnot] at hsum
  exact (Except.ok.inj hsum).symm

theorem outOf_eq_of_not_produced (hnot : ¬ Produced byId pins typeId) :
    (flows.getD typeId .zero).outOf = .finite 0 := by
  rw [produced_iff, not_not] at hnot
  have hsum := sumOf_of_resourceFlow hflows typeId .outOf
  rw [sumOf, hnot] at hsum
  exact (Except.ok.inj hsum).symm

theorem SumsTell.mem_importTypeIds (htell : SumsTell byId pins) :
    typeId ∈ importTypeIds services methods flows ↔
      Consumed byId pins typeId ∧ ¬ Produced byId pins typeId := by
  rw [Pages.mem_importTypeIds]
  constructor
  · rintro ⟨hinto, houtOf⟩
    have hconsumed : Consumed byId pins typeId := not_not.mp fun hnot => by
      rw [into_eq_of_not_consumed hflows hnot] at hinto
      exact absurd hinto (by decide)
    refine ⟨hconsumed, fun hproduced => ?_⟩
    have hsame := htell.both typeId hconsumed hproduced _ _
      (sumOf_of_resourceFlow hflows typeId .into) (sumOf_of_resourceFlow hflows typeId .outOf)
    exact Bool.false_ne_true (houtOf.symm.trans (hsame.mp hinto))
  · rintro ⟨hconsumed, hnot⟩
    refine ⟨htell.consumed typeId hconsumed hnot _ (sumOf_of_resourceFlow hflows typeId .into), ?_⟩
    rw [outOf_eq_of_not_produced hflows hnot]
    rfl

theorem SumsTell.mem_exportTypeIds (htell : SumsTell byId pins) :
    typeId ∈ exportTypeIds services methods flows ↔
      Produced byId pins typeId ∧ ¬ Consumed byId pins typeId := by
  rw [Pages.mem_exportTypeIds]
  constructor
  · rintro ⟨houtOf, hinto⟩
    have hproduced : Produced byId pins typeId := not_not.mp fun hnot => by
      rw [outOf_eq_of_not_produced hflows hnot] at houtOf
      exact absurd houtOf (by decide)
    refine ⟨hproduced, fun hconsumed => ?_⟩
    have hsame := htell.both typeId hconsumed hproduced _ _
      (sumOf_of_resourceFlow hflows typeId .into) (sumOf_of_resourceFlow hflows typeId .outOf)
    exact Bool.false_ne_true (hinto.symm.trans (hsame.mpr houtOf))
  · rintro ⟨hproduced, hnot⟩
    refine ⟨htell.produced typeId hproduced hnot _ (sumOf_of_resourceFlow hflows typeId .outOf), ?_⟩
    rw [into_eq_of_not_consumed hflows hnot]
    rfl

/-- Lists that are right come from sums that tell. -/
theorem ListsRight.sumsTell {colony : ColonyRecord} (hpins : colony.pins = pins)
    (hright : ListsRight byId colony (importTypeIds services methods flows)
      (exportTypeIds services methods flows)) : SumsTell byId pins := by
  subst hpins
  have hsums : ∀ typeId direction sum, sumOf byId colony.pins typeId direction = .ok sum →
      sum = (flows.getD typeId .zero).sum direction := by
    intro typeId direction sum hsum
    rw [sumOf_of_resourceFlow hflows] at hsum
    exact (Except.ok.inj hsum).symm
  refine ⟨resourceFlow_ok_iff.mp ⟨flows, hflows⟩, fun typeId hconsumed hnot sum hsum => ?_,
    fun typeId hproduced hnot sum hsum => ?_,
    fun typeId hconsumed hproduced into outOf hinto houtOf => ?_⟩
  · rw [hsums typeId .into sum hsum]
    exact (Pages.mem_importTypeIds.mp ((hright.imports typeId).mpr ⟨hconsumed, hnot⟩)).1
  · rw [hsums typeId .outOf sum hsum]
    exact (Pages.mem_exportTypeIds.mp ((hright.exports typeId).mpr ⟨hproduced, hnot⟩)).1
  · -- where only one of the sums is true, an intermediate is listed
    obtain ⟨himport, hexport⟩ := hright.neither typeId hconsumed hproduced
    rw [Pages.mem_importTypeIds] at himport
    rw [Pages.mem_exportTypeIds] at hexport
    rw [hsums typeId .into into hinto, hsums typeId .outOf outOf houtOf]
    simp only [Flow.sum]
    grind

end Sums

/-- **When the lists of a colony are right**: if and only if all quantities can be added up, and no
sum of them hides that a type is consumed or produced. -/
theorem flowRight_iff (services : Services) (methods : StringMethods) (colony : ColonyRecord) :
    FlowRight services methods colony ↔
      SumsTell (schematicById services.planetSchematics) colony.pins := by
  constructor
  · rintro ⟨flows, hflows, hright⟩
    exact hright.sumsTell hflows rfl
  · intro htell
    obtain ⟨flows, hflows⟩ := resourceFlow_ok_iff.mpr htell.addable
    refine ⟨flows, hflows, fun _ => htell.mem_importTypeIds hflows,
      fun _ => htell.mem_exportTypeIds hflows,
      fun typeId hconsumed hproduced => ⟨?_, ?_⟩, fun _ => mem_producedTypeIds,
      nodup_eraseDups _, fun typeId hexport => ?_⟩
    · exact fun himport => ((htell.mem_importTypeIds hflows).mp himport).2 hproduced
    · exact fun hexport => ((htell.mem_exportTypeIds hflows).mp hexport).2 hconsumed
    · exact mem_producedTypeIds.mpr ((htell.mem_exportTypeIds hflows).mp hexport).1

/-- An extractor that has not said how much it gives out in a cycle. -/
def silentExtractor : ColonyRecord :=
  { planetId := 40009082, solarSystemId := 30000142, planetType := "barren", upgradeLevel := 3
    numPins := 1
    pins := [⟨2848, some (.single "product_type_id" (.int 2268)), none, none, none⟩] }

/-- Services that know nothing. -/
def noServices : Services where
  typeDocs _ := none
  blueprintDocs _ := none
  marketPrices _ := none
  locationInfo _ := none
  planetNames _ := none
  systemNames _ := none
  planetSchematics := []
  secondsUntil _ := none

/-- What the extractor produces is no export. -/
theorem not_flowRight_silentExtractor :
    ¬ ∀ (services : Services) (methods : StringMethods) (colony : ColonyRecord),
      FlowRight services methods colony := by
  intro hright
  have hproduced : Produced .empty silentExtractor.pins 2268 := by
    refine ⟨_, List.mem_singleton.mpr rfl, .inl ⟨_, rfl, ?_⟩⟩
    decide
  have hnot : ¬ Consumed .empty silentExtractor.pins 2268 := by
    rw [consumed_iff, not_not]
    decide
  have hsum : sumOf .empty silentExtractor.pins 2268 .outOf = .ok (.finite 0) := by
    decide +kernel
  have htell := (flowRight_iff _ _ _).mp (hright noServices ⟨id, id, id⟩ silentExtractor)
  exact absurd (htell.produced 2268 hproduced hnot _ hsum) (by decide)

/-! ## Positive quantities -/

/-- A positive number that can be added to a float. -/
def IsPositiveQuantity : Value → Prop
  | .number (.int quantity) => 0 < quantity ∧ FloatValue.ofInt? quantity ≠ none
  | .number (.float bits) => (FloatValue.ofBits bits).IsPositive
  | .bool quantity => quantity = true
  | _ => False

theorem IsPositiveQuantity.isAddable {quantity : Value} (hpositive : IsPositiveQuantity quantity) :
    IsAddable quantity := by
  cases quantity with
  | number number =>
      cases number with
      | int quantity => exact hpositive.2
      | float bits => trivial
  | bool quantity => trivial
  | _ => cases hpositive

theorem isPositive_of_asFloat {quantity : Value} {value : FloatValue}
    (hpositive : IsPositiveQuantity quantity) (hvalue : asFloat quantity = .ok value) :
    value.IsPositive := by
  unfold asFloat at hvalue
  split at hvalue
  · rename_i quantity
    cases hfloat : FloatValue.ofInt? quantity with
    | none => exact absurd hfloat hpositive.2
    | some float =>
        rw [hfloat] at hvalue
        obtain rfl : float = value := Except.ok.inj hvalue
        exact FloatValue.isPositive_of_ofInt? hpositive.1 hfloat
  · exact Except.ok.inj hvalue ▸ hpositive
  · obtain rfl : _ = true := hpositive
    exact Except.ok.inj hvalue ▸ zero_lt_one (α := ℚ)
  · cases hvalue

theorem isPositive_of_addQuantity {sum later : FloatValue} {quantity : Value}
    (hsum : sum = .finite 0 ∨ sum.IsPositive) (hpositive : IsPositiveQuantity quantity)
    (hadd : addQuantity sum quantity = .ok later) : later.IsPositive := by
  obtain ⟨value, hvalue, rfl⟩ := addQuantity_eq_ok.mp hadd
  exact .add hsum (isPositive_of_asFloat hpositive hvalue)

/-- What is added up from positive quantities is positive. -/
theorem isPositive_of_foldlM {quantities : List Value} {start sum : FloatValue}
    (hquantities : ∀ quantity ∈ quantities, IsPositiveQuantity quantity)
    (hstart : start = .finite 0 ∧ quantities ≠ [] ∨ start.IsPositive)
    (hsum : quantities.foldlM addQuantity start = .ok sum) : sum.IsPositive := by
  induction quantities generalizing start with
  | nil =>
      obtain rfl := Except.ok.inj hsum
      exact hstart.resolve_left fun hnil => hnil.2 rfl
  | cons quantity rest ih =>
      obtain ⟨hquantity, hrest⟩ := List.forall_mem_cons.mp hquantities
      rw [List.foldlM_cons] at hsum
      obtain ⟨later, hlater, hsum⟩ := bind_eq_ok.mp hsum
      exact ih hrest (.inr (isPositive_of_addQuantity (hstart.imp_left And.left) hquantity hlater))
        hsum

/-- **The lists are right** for a colony whose quantities are all positive. -/
theorem flowRight_of_positive (services : Services) (methods : StringMethods)
    (colony : ColonyRecord)
    (hpositive : ∀ call ∈ colony.pins.flatMap (flowCalls (schematicById services.planetSchematics)),
      IsPositiveQuantity call.quantity) :
    FlowRight services methods colony := by
  have htrue : ∀ typeId direction sum,
      quantitiesOf (schematicById services.planetSchematics) colony.pins typeId direction ≠ [] →
      sumOf (schematicById services.planetSchematics) colony.pins typeId direction = .ok sum →
      sum.isTrue = true := by
    intro typeId direction sum hsome hsum
    refine (isPositive_of_foldlM (fun quantity hquantity => ?_) (.inl ⟨rfl, hsome⟩) hsum).isTrue
    obtain ⟨call, hcall, rfl⟩ := List.mem_map.mp hquantity
    exact hpositive call (List.mem_of_mem_filter hcall)
  refine (flowRight_iff services methods colony).mpr
    ⟨fun call hcall => (hpositive call hcall).isAddable, ?_, ?_, ?_⟩
  · exact fun typeId hconsumed _ sum => htrue typeId .into sum (consumed_iff.mp hconsumed)
  · exact fun typeId hproduced _ sum => htrue typeId .outOf sum (produced_iff.mp hproduced)
  · intro typeId hconsumed hproduced into outOf hinto houtOf
    exact iff_of_true (htrue typeId .into into (consumed_iff.mp hconsumed) hinto)
      (htrue typeId .outOf outOf (produced_iff.mp hproduced) houtOf)

end EveBuild.Pages
