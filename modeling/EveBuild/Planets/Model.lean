import EveBuild.Data.Value
import EveBuild.Startup.Dumps

/-!
# The planet pages

The pins of a colony as `list_colonies` and `colony_detail` of `app/routes/pi.py` go through
them.  A pin is a JSON object that ESI sends.  A field of it that the object does not have and
one that is `null` read the same, as does `product_type_id` of the details of an extractor; the
other fields have the types of ESI's schema, so that identifiers are integers, and times are
strings.  `qty_per_cycle` of the details is read with a default, which `null` is not replaced by:
the details are kept as the object that they are.

The first page counts the pins of each kind, the second one makes a card of every pin and
shows how many cards of a kind it has made.  What is on a card is a parameter here.
-/

namespace EveBuild.Planets

open Migrations (SchematicDocument appendTo)

structure Content where
  typeId : ℤ
  amount : ℤ
deriving DecidableEq

structure Pin where
  typeId : ℤ
  extractorDetails : Option Document
  schematicId : Option ℤ
  contents : Option (List Content)
  expiryTime : Option String

/-- The three numbers that a page shows for a colony. -/
structure PinCounts where
  extractors : ℤ
  factories : ℤ
  storage : ℤ
deriving DecidableEq

/-- The sum of the three numbers. -/
def PinCounts.total (counts : PinCounts) : ℤ :=
  counts.extractors + counts.factories + counts.storage

/-- `schematic_by_id`. -/
def schematicById (schematics : List (ℤ × SchematicDocument)) : Dict ℤ SchematicDocument :=
  schematics.foldl (fun byId entry => byId.set entry.1 entry.2) .empty

/-! ## The list of colonies -/

/-- `pin.get("extractor_details")` as a condition, which an empty object does not meet. -/
def Pin.hasDetails (pin : Pin) : Bool :=
  match pin.extractorDetails with
  | none => false
  | some details => !details.entries.isEmpty

/-- `extractor_count`, `factory_count` and `storage_count` of `list_colonies`. -/
def listCounts (pins : List Pin) : PinCounts :=
  let extractorCount : ℤ := pins.countP fun pin => pin.hasDetails
  let factoryCount : ℤ := pins.countP fun pin => pin.schematicId.isSome && !pin.hasDetails
  { extractors := extractorCount
    factories := factoryCount
    storage := pins.length - extractorCount - factoryCount }

/-! ## The detail page -/

/-- The cards that `colony_detail` has made. -/
structure PinCards (Card : Type) where
  extractorCards : List Card
  factoryCardsByType : Dict ℤ (List Card)
  storageCards : List Card

section Cards

variable {Card : Type} (byId : Dict ℤ SchematicDocument) (extractorCard storageCard : Pin → Card)
  (factoryCard : Pin → SchematicDocument → Card)

/-- The body of `for pin in colony.pins`. -/
def placePin (cards : PinCards Card) (pin : Pin) : PinCards Card :=
  match pin.extractorDetails with
  | some _ => { cards with extractorCards := cards.extractorCards ++ [extractorCard pin] }
  | none =>
      match pin.schematicId.bind byId.get? with
      | some schematic => { cards with
          factoryCardsByType :=
            appendTo cards.factoryCardsByType pin.typeId (factoryCard pin schematic) }
      | none => { cards with storageCards := cards.storageCards ++ [storageCard pin] }

/-- All cards of a colony. -/
def pinCards (pins : List Pin) : PinCards Card :=
  pins.foldl (placePin byId extractorCard storageCard factoryCard) ⟨[], .empty, []⟩

end Cards

/-- The numbers of `summary_html`. -/
def PinCards.counts {Card : Type} (cards : PinCards Card) : PinCounts where
  extractors := cards.extractorCards.length
  factories := (cards.factoryCardsByType.values.map fun cards => (cards.length : ℤ)).sum
  storage := cards.storageCards.length

end EveBuild.Planets
