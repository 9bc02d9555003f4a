import EveBuild.Data.Json.Values
import EveBuild.Market.Delivery

/-!
# The payloads of the messages

The bodies of the messages are values in `Market.Model`.  What the queues carry are their JSON
texts: `encode_scrape_job` and `encode_orders_chunk` of `app/db/rabbitmq.py` write them, and the
two decoders read them.  A text is printable ASCII, so that UTF-8 makes one byte of each of its
characters, and `json.loads` of these bytes takes them for UTF-8.

`payloads_carry` says that nothing is changed on the way: a worker that is given a payload does
what it does with the value.
-/

namespace EveBuild.Market

open Json

variable (format : FloatFormat)

/-- What a decoder raises. -/
inductive PayloadError
  | json (error : JsonError)
  | message (error : MarketError)

/-- `encode_scrape_job`. -/
def scrapeJobPayload (message : ScrapeJobMessage) : Except JsonError (List Char) :=
  dumps format (encodeScrapeJob message)

/-- `encode_orders_chunk`. -/
def ordersChunkPayload (message : OrdersChunkMessage) : Except JsonError (List Char) :=
  dumps format (encodeOrdersChunk message)

/-- `decode_scrape_job`. -/
def readScrapeJob (payload : List Char) : Except PayloadError ScrapeJobMessage := do
  let value ← (loads format payload).mapError .json
  (decodeScrapeJob value).mapError .message

/-- `decode_orders_chunk`. -/
def readOrdersChunk (payload : List Char) : Except PayloadError OrdersChunkMessage := do
  let value ← (loads format payload).mapError .json
  (decodeOrdersChunk value).mapError .message

/-- The message that carries a chunk. -/
def chunkMessage (job : ScrapeJobMessage) (chunk : List MarketOrderEntry) : OrdersChunkMessage where
  regionId := job.regionId
  scrapeRunId := job.scrapeRunId
  orders := chunk.map MarketOrderEntry.asdict

/-- The integers of the order are ones that `str` renders, and its price is a number. -/
structure MarketOrderEntry.Plain (entry : MarketOrderEntry) : Prop where
  integers : ∀ value ∈ [entry.orderId, entry.typeId, entry.locationId, entry.volumeRemain,
    entry.volumeTotal, entry.minVolume, entry.duration], Numerals.Short value
  price : IsPython (.number entry.price) ∧ IsWritable (.number entry.price)

variable {format}

/-- An order of ESI can be written and read back. -/
theorem MarketOrderEntry.Plain.asdict {entry : MarketOrderEntry} (hplain : entry.Plain) :
    IsPython entry.asdict.toValue ∧ IsWritable entry.asdict.toValue := by
  obtain ⟨hintegers, hprice, hpriceWritable⟩ := hplain
  simp only [List.forall_mem_cons] at hintegers
  obtain ⟨horder, htype, hlocation, hremain, htotal, hmin, hduration, -⟩ := hintegers
  refine ⟨⟨entry.asdict.nodup_keys, ?_⟩, ?_⟩
  · exact ⟨trivial, trivial, trivial, trivial, hprice, trivial, trivial, trivial, trivial, trivial,
      trivial, trivial⟩
  · exact ⟨horder, htype, hlocation, trivial, hpriceWritable, hremain, htotal, hmin, hduration,
      trivial, trivial, trivial⟩

theorem isPython_encodeOrdersChunk {message : OrdersChunkMessage}
    (horders : ∀ order ∈ message.orders, IsPython order.toValue) :
    IsPython (encodeOrdersChunk message) := by
  refine ⟨by simp, trivial, trivial, arePython_iff.mpr fun value hvalue => ?_, trivial⟩
  obtain ⟨order, horder, rfl⟩ := List.mem_map.mp hvalue
  exact horders order horder

theorem isWritable_encodeOrdersChunk {message : OrdersChunkMessage} :
    IsWritable (encodeOrdersChunk message) ↔
      Numerals.Short message.regionId ∧ ∀ order ∈ message.orders, IsWritable order.toValue := by
  have hitems : AreWritable (message.orders.map Document.toValue) ↔
      ∀ order ∈ message.orders, IsWritable order.toValue := by
    rw [areWritable_iff, List.forall_mem_map]
  constructor
  · rintro ⟨hregion, -, horders, -⟩
    exact ⟨hregion, hitems.mp horders⟩
  · rintro ⟨hregion, horders⟩
    exact ⟨hregion, trivial, hitems.mpr horders, trivial⟩

/-- The payload stands for the message: it is printable ASCII, it is read back as the message,
and a worker that is given it does what it does with the value. -/
structure Carries (format : FloatFormat) {Message : Type} (payload : List Char) (value : Value)
    (message : Message) (read : List Char → Except PayloadError Message) : Prop where
  printable : Printable payload
  loaded : loads format payload = .ok value
  read : read payload = .ok message

theorem carries_of_dumps (hformat : format.Faithful) {Message : Type} {value : Value}
    {message : Message} {decode : Value → Except MarketError Message} {payload : List Char}
    (hpython : IsPython value) (hdecode : decode value = .ok message)
    (hpayload : dumps format value = .ok payload) :
    Carries format payload value message fun payload => do
      let value ← (loads format payload).mapError .json
      (decode value).mapError PayloadError.message where
  printable := printable_dumps hformat value hpayload
  loaded := loads_dumps hformat hpython hpayload
  read := by
    rw [loads_dumps hformat hpython hpayload]
    show (decode value).mapError PayloadError.message = _
    rw [hdecode]
    rfl

/-- **The payloads carry the messages.**  A job has a payload if and only if its region is a
number that can be rendered, a chunk of orders if and only if all numbers in it are; and every
payload stands for its message. -/
theorem payloads_carry (hformat : format.Faithful) :
    (∀ job : ScrapeJobMessage,
      ((∃ payload, scrapeJobPayload format job = .ok payload) ↔ Numerals.Short job.regionId) ∧
      ∀ payload, scrapeJobPayload format job = .ok payload →
        Carries format payload (encodeScrapeJob job) job (readScrapeJob format)) ∧
    (∀ message : OrdersChunkMessage,
      ((∃ payload, ordersChunkPayload format message = .ok payload) ↔
        Numerals.Short message.regionId ∧ ∀ order ∈ message.orders, IsWritable order.toValue) ∧
      ((∀ order ∈ message.orders, IsPython order.toValue) →
        ∀ payload, ordersChunkPayload format message = .ok payload →
          Carries format payload (encodeOrdersChunk message) message (readOrdersChunk format))) ∧
    ∀ (job : ScrapeJobMessage) (chunk : List MarketOrderEntry), Numerals.Short job.regionId →
      (∀ entry ∈ chunk, entry.Plain) →
        ∃ payload, ordersChunkPayload format (chunkMessage job chunk) = .ok payload ∧
          Carries format payload (chunkBody job chunk) (chunkMessage job chunk)
            (readOrdersChunk format) := by
  refine ⟨fun job => ⟨?_, fun payload hpayload => ?_⟩, fun message => ⟨?_, ?_⟩,
    fun job chunk hregion hchunk => ?_⟩
  · rw [scrapeJobPayload, exists_dumps_iff]
    exact ⟨fun hwritable => hwritable.1, fun hregion => ⟨hregion, trivial, trivial⟩⟩
  · exact carries_of_dumps hformat ⟨by simp, trivial, trivial, trivial⟩
      (decode_encodeScrapeJob job) hpayload
  · rw [ordersChunkPayload, exists_dumps_iff, isWritable_encodeOrdersChunk]
  · intro horders payload hpayload
    exact carries_of_dumps hformat (isPython_encodeOrdersChunk horders)
      (decode_encodeOrdersChunk message) hpayload
  · -- the chunks that are published are made of orders of ESI
    have hwritable : IsWritable (chunkBody job chunk) := by
      refine isWritable_encodeOrdersChunk.mpr ⟨hregion, fun order horder => ?_⟩
      obtain ⟨entry, hentry, rfl⟩ := List.mem_map.mp horder
      exact (hchunk entry hentry).asdict.2
    have hpython : IsPython (chunkBody job chunk) := by
      refine isPython_encodeOrdersChunk fun order horder => ?_
      obtain ⟨entry, hentry, rfl⟩ := List.mem_map.mp horder
      exact (hchunk entry hentry).asdict.1
    obtain ⟨payload, hpayload⟩ := (@exists_dumps_iff format _).mpr hwritable
    exact ⟨payload, hpayload,
      carries_of_dumps hformat hpython (decode_encodeOrdersChunk (chunkMessage job chunk)) hpayload⟩

/-! ## A chunk of one order -/

theorem plain_sampleOrder : sampleOrder.Plain where
  integers := by
    simp only [List.forall_mem_cons, sampleOrder]
    refine ⟨?_, ?_, ?_, ?_, ?_, ?_, ?_, by simp⟩ <;> exact Numerals.short_of_natAbs_lt (by decide)
  price := ⟨.inr (.inr (.inr (by decide))), trivial⟩

theorem payloads_carry_sample :
    ∃ payload, ordersChunkPayload sampleFormat (chunkMessage sampleJob [sampleOrder]) =
      .ok payload ∧ Carries sampleFormat payload (chunkBody sampleJob [sampleOrder])
        (chunkMessage sampleJob [sampleOrder]) (readOrdersChunk sampleFormat) :=
  (payloads_carry sampleFormat_faithful).2.2 sampleJob [sampleOrder]
    (Numerals.short_of_natAbs_lt (by decide))
    fun _ hentry => List.mem_singleton.mp hentry ▸ plain_sampleOrder

end EveBuild.Market
