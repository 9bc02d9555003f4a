import EveBuild.Data.Value
import EveBuild.Effect.System

/-!
# Scraping market orders

The scraper of `app/services/market_orders.py` and its two workers.  A dispatch
enqueues one scrape job per region (`dispatchScrape`); a fetch worker takes a job,
fetches every page of the region's orders, publishes them in chunks and then
acknowledges the job (`fetchMessage`); a write worker takes a chunk, inserts its
orders into `market_orders` and then acknowledges the chunk (`writeMessage`).  The
messages are those of `app/db/rabbitmq.py`.

`market` runs any number of these programs against RabbitMQ, MongoDB and ESI.

* A worker's loop handles one message after the other and keeps nothing in
  between, so each message that is delivered to a worker is a program of its own.
* A queue delivers its messages in any order.  A message that is delivered stays
  with its program until it is acknowledged; the broker takes it back when the
  program crashes, and also when only the connection is lost, in which case the
  program goes on and its acknowledgement fails.
* A publish can fail with or without the message in the queue; an acknowledgement
  can be lost on the way; an insert of many documents attempts each of them,
  whatever happens to the others, unless the connection is lost.
* `json.dumps` and `json.loads` are inverse to each other on the values that the
  queues carry, so the body of a message is that value.
* Timestamps are in milliseconds.  Log lines and metrics are left out, and so is
  `market_orders_write_prefetch`: how many messages are delivered ahead.
-/

namespace EveBuild.Market

open Effect

/-! ## Messages -/

/-- `ScrapeJobMessage`. -/
structure ScrapeJobMessage where
  regionId : ℤ
  scrapeRunId : String
deriving DecidableEq

/-- `OrdersChunkMessage`. -/
structure OrdersChunkMessage where
  regionId : ℤ
  scrapeRunId : String
  orders : List Document

/-- `esi.MarketOrderEntry`. -/
structure MarketOrderEntry where
  orderId : ℤ
  typeId : ℤ
  locationId : ℤ
  isBuyOrder : Bool
  price : Number
  volumeRemain : ℤ
  volumeTotal : ℤ
  minVolume : ℤ
  duration : ℤ
  issued : String
  range : String
deriving DecidableEq

/-- `asdict(entry)`. -/
def MarketOrderEntry.asdict (entry : MarketOrderEntry) : Document where
  entries :=
    [("order_id", .int entry.orderId),
     ("type_id", .int entry.typeId),
     ("location_id", .int entry.locationId),
     ("is_buy_order", .bool entry.isBuyOrder),
     ("price", .number entry.price),
     ("volume_remain", .int entry.volumeRemain),
     ("volume_total", .int entry.volumeTotal),
     ("min_volume", .int entry.minVolume),
     ("duration", .int entry.duration),
     ("issued", .string entry.issued),
     ("range", .string entry.range)]
  nodup_keys := by
    simp only [List.map_cons, List.map_nil]
    decide

/-- What can be raised.  `writeErrors` are the codes of a `BulkWriteError`. -/
inductive MarketError
  | httpStatus (statusCode : ℕ)
  | connection
  | bulkWrite (writeErrors : List ℕ)
  | typeError
  | valueError
  | channelClosed
deriving DecidableEq

/-- `encode_scrape_job`. -/
def encodeScrapeJob (message : ScrapeJobMessage) : Value :=
  .object [("region_id", .int message.regionId), ("scrape_run_id", .string message.scrapeRunId)]

/-- `decode_scrape_job`: an object that has just the fields of the message, in any order.  A field
of another type, which the class takes without a check, is refused here; no payload that
`encode_scrape_job` makes has one. -/
def decodeScrapeJob : Value → Except MarketError ScrapeJobMessage
  | .object members =>
      match members.lookup "region_id", members.lookup "scrape_run_id", members.length with
      | some (.number (.int regionId)), some (.string scrapeRunId), 2 =>
          .ok { regionId, scrapeRunId }
      | _, _, _ => .error .typeError
  | _ => .error .typeError

/-- `encode_orders_chunk`. -/
def encodeOrdersChunk (message : OrdersChunkMessage) : Value :=
  .object [("region_id", .int message.regionId), ("scrape_run_id", .string message.scrapeRunId),
    ("orders", .array (message.orders.map Document.toValue))]

/-- `decode_orders_chunk`. -/
def decodeOrdersChunk : Value → Except MarketError OrdersChunkMessage
  | .object members =>
      match members.lookup "region_id", members.lookup "scrape_run_id", members.lookup "orders",
        members.length with
      | some (.number (.int regionId)), some (.string scrapeRunId), some (.array items), 3 =>
          match items.mapM Document.ofValue? with
          | some orders => .ok { regionId, scrapeRunId, orders }
          | none => .error .typeError
      | _, _, _, _ => .error .typeError
  | _ => .error .typeError

@[simp] theorem decode_encodeScrapeJob (message : ScrapeJobMessage) :
    decodeScrapeJob (encodeScrapeJob message) = .ok message := rfl

@[simp] theorem decode_encodeOrdersChunk (message : OrdersChunkMessage) :
    decodeOrdersChunk (encodeOrdersChunk message) = .ok message := by
  have hitems : (message.orders.map Document.toValue).mapM Document.ofValue? =
      some message.orders := by
    induction message.orders with
    | nil => rfl
    | cons order rest ih => simp [List.mapM_cons, ih]
  show (match (message.orders.map Document.toValue).mapM Document.ofValue? with
    | some orders => (Except.ok { message with orders } : Except MarketError OrdersChunkMessage)
    | none => .error .typeError) = _
  rw [hitems]

/-! ## Calls -/

inductive QueueName
  | scrapeJobs
  | results
deriving DecidableEq

/-- A page of `/markets/{region_id}/orders/`, with its `X-Pages` header. -/
structure OrdersPage where
  entries : List MarketOrderEntry
  xPages? : Option ℤ

/-- What the programs await.  `page` is `_get_with_retry` for one page: its last
response. -/
inductive Op
  | regionIds
  | uuid4
  | page (regionId page : ℤ)
  | publish (queue : QueueName) (body : Value)
  | ack (queue : QueueName)
  | utcnow
  | insertMany (documents : List Document)

/-- What each of them answers. -/
abbrev Op.Answer : Op → Type
  | regionIds => List ℤ
  | uuid4 => String
  | page .. => OrdersPage
  | publish .. => Unit
  | ack _ => Unit
  | utcnow => ℤ
  | insertMany _ => Unit

abbrev signature : Signature := ⟨Op, Op.Answer⟩

abbrev Code := Program signature MarketError

def await (op : Op) : Code op.Answer := Program.perform (S := signature) op

/-! ## Programs -/

/-- `for region_id in region_ids`: one job for each region. -/
def publishJobs (scrapeRunId : String) : List ℤ → Code PUnit
  | [] => return
  | regionId :: regionIds => do
      await (.publish .scrapeJobs (encodeScrapeJob { regionId, scrapeRunId }))
      publishJobs scrapeRunId regionIds

/-- `dispatch_scrape`. -/
def dispatchScrape : Code String := do
  let scrapeRunId ← await .uuid4
  let regionIds ← await .regionIds
  publishJobs scrapeRunId regionIds
  return scrapeRunId

/-- `get_market_orders_page`: a region without a market answers 404. -/
def getMarketOrdersPage (regionId page : ℤ) : Code (List MarketOrderEntry × ℤ) :=
  tryCatch
    (do
      let response ← await (.page regionId page)
      return (response.entries, response.xPages?.getD 1))
    fun error => if error = .httpStatus 404 then return ([], 0) else throw error

/-- `range(2, total_pages + 1)`. -/
def otherPages (totalPages : ℤ) : List ℤ :=
  (List.range (totalPages - 1).toNat).map fun index => (index : ℤ) + 2

/-- `orders[start : start + size] for start in range(0, len(orders), size)`. -/
def chunksOf (size : ℕ) (orders : List MarketOrderEntry) : List (List MarketOrderEntry) :=
  (List.range ((orders.length + size - 1) / size)).map fun index =>
    (orders.drop (size * index)).take size

/-- The body of the message that carries a chunk. -/
def chunkBody (job : ScrapeJobMessage) (chunk : List MarketOrderEntry) : Value :=
  encodeOrdersChunk {
    regionId := job.regionId
    scrapeRunId := job.scrapeRunId
    orders := chunk.map MarketOrderEntry.asdict }

/-- `for page in range(2, total_pages + 1)`. -/
def fetchPages (regionId : ℤ) : List ℤ → List MarketOrderEntry → Code (List MarketOrderEntry)
  | [], orders => return orders
  | page :: pages, orders => do
      let (pageOrders, _) ← getMarketOrdersPage regionId page
      fetchPages regionId pages (orders ++ pageOrders)

/-- `for start in range(0, len(orders), size)`: one message for each chunk. -/
def publishChunks (job : ScrapeJobMessage) : List (List MarketOrderEntry) → Code PUnit
  | [] => return
  | chunk :: chunks => do
      await (.publish .results (chunkBody job chunk))
      publishChunks job chunks

/-- `run_fetch_job`, with `market_orders_chunk_size`. -/
def runFetchJob (chunkSize : ℕ) (job : ScrapeJobMessage) : Code PUnit := do
  let (firstPage, totalPages) ← getMarketOrdersPage job.regionId 1
  let orders ← fetchPages job.regionId (otherPages totalPages) firstPage
  if chunkSize = 0 then throw .valueError
  publishChunks job (chunksOf chunkSize orders)

/-- `{**order, "region_id": …, "scrape_run_id": …, "scraped_at": now}`. -/
def orderRow (regionId : ℤ) (scrapeRunId : String) (now : ℤ) (order : Document) : Document :=
  ((order.set "region_id" (.int regionId)).set "scrape_run_id" (.string scrapeRunId)).set
    "scraped_at" (.date now)

/-- The code of a duplicate key. -/
def duplicateKey : ℕ := 11000

/-- `except pymongo.errors.BulkWriteError`: duplicate keys are ignored. -/
def ignoreDuplicates : MarketError → Code Unit
  | .bulkWrite writeErrors =>
      if writeErrors.any (· ≠ duplicateKey) then throw (.bulkWrite writeErrors) else return ()
  | error => throw error

/-- `apply_orders_chunk`. -/
def applyOrdersChunk (message : OrdersChunkMessage) : Code ℕ := do
  let now ← await .utcnow
  let documents := message.orders.map (orderRow message.regionId message.scrapeRunId now)
  if documents ≠ [] then
    tryCatch (await (.insertMany documents)) ignoreDuplicates
  return message.orders.length

/-- What a fetch worker does with a message. -/
def fetchMessage (chunkSize : ℕ) (body : Value) : Code PUnit := do
  let job ← .ofExcept (decodeScrapeJob body)
  runFetchJob chunkSize job
  await (.ack .scrapeJobs)

/-- What a write worker does with a message. -/
def writeMessage (body : Value) : Code PUnit := do
  let message ← .ofExcept (decodeOrdersChunk body)
  let _ ← applyOrdersChunk message
  await (.ack .results)

/-! ## RabbitMQ and MongoDB -/

/-- The messages of a queue that are ready, and those that are delivered and not
yet acknowledged, with the program that has them. -/
structure BrokerQueue where
  ready : List Value
  unacked : List (ℕ × Value)

namespace BrokerQueue

def empty : BrokerQueue := ⟨[], []⟩

def publish (queue : BrokerQueue) (body : Value) : BrokerQueue :=
  { queue with ready := queue.ready ++ [body] }

/-- A ready message goes to a program. -/
def deliver (queue : BrokerQueue) (thread : ℕ) (body : Value) : BrokerQueue :=
  ⟨queue.ready.erase body, (thread, body) :: queue.unacked⟩

/-- The messages that a program has. -/
def heldBy (queue : BrokerQueue) (thread : ℕ) : List (ℕ × Value) :=
  queue.unacked.filter fun held => held.1 = thread

/-- The messages that a program does not have. -/
def heldByOthers (queue : BrokerQueue) (thread : ℕ) : List (ℕ × Value) :=
  queue.unacked.filter fun held => held.1 ≠ thread

/-- What a program has is acknowledged. -/
def ack (queue : BrokerQueue) (thread : ℕ) : BrokerQueue :=
  { queue with unacked := queue.heldByOthers thread }

/-- What a program has is ready again. -/
def requeue (queue : BrokerQueue) (thread : ℕ) : BrokerQueue :=
  ⟨queue.ready ++ (queue.heldBy thread).map Prod.snd, queue.heldByOthers thread⟩

end BrokerQueue

/-- The two queues, the rows of `market_orders` and the keys of its unique indexes. -/
structure World where
  scrapeJobs : BrokerQueue
  results : BrokerQueue
  rows : List Document
  uniqueIndexes : List (List String)

/-- The named queue. -/
def World.queue (world : World) : QueueName → BrokerQueue
  | .scrapeJobs => world.scrapeJobs
  | .results => world.results

def World.setQueue (world : World) (name : QueueName) (queue : BrokerQueue) : World :=
  match name with
  | .scrapeJobs => { world with scrapeJobs := queue }
  | .results => { world with results := queue }

/-- Empty queues, and some rows. -/
def World.idle (rows : List Document) (uniqueIndexes : List (List String)) : World :=
  ⟨.empty, .empty, rows, uniqueIndexes⟩

/-- The values of a document under the keys of an index. -/
def indexKey (keys : List String) (document : Document) : List Value := keys.map document.field

/-- A row has the document's values under the keys of a unique index. -/
def Violates (uniqueIndexes : List (List String)) (rows : List Document) (document : Document) :
    Prop :=
  ∃ keys ∈ uniqueIndexes, ∃ row ∈ rows, indexKey keys row = indexKey keys document

instance (uniqueIndexes : List (List String)) (rows : List Document) (document : Document) :
    Decidable (Violates uniqueIndexes rows document) :=
  inferInstanceAs (Decidable (∃ keys ∈ uniqueIndexes, ∃ row ∈ rows, _))

/-- What becomes of a document of a bulk insert: the server attempts it, fails it
for a reason of its own, or never gets it. -/
inductive Attempt
  | attempted
  | failed (code : ℕ)
  | skipped
deriving DecidableEq

/-- `insert_many(documents, ordered=False)`: the rows afterwards, and the codes of
the documents that were rejected. -/
def insertMany (uniqueIndexes : List (List String)) :
    List Document → List (Document × Attempt) → List Document × List ℕ
  | rows, [] => (rows, [])
  | rows, (document, .attempted) :: rest =>
      if Violates uniqueIndexes rows document then
        let (rows, writeErrors) := insertMany uniqueIndexes rows rest
        (rows, duplicateKey :: writeErrors)
      else insertMany uniqueIndexes (rows ++ [document]) rest
  | rows, (_, .failed code) :: rest =>
      let (rows, writeErrors) := insertMany uniqueIndexes rows rest
      (rows, code :: writeErrors)
  | rows, (_, .skipped) :: rest => insertMany uniqueIndexes rows rest

/-! ## All programs together -/

/-- A program that can be started: a dispatch, or the handling of a message. -/
inductive Start
  | dispatch
  | fetch (body : Value)
  | write (body : Value)

/-- What the services decide.  `publish` and `ack` say whether the broker gets the
frame, `publish` also whether the client learns so. -/
inductive Choice
  | regionIds (answer : Except MarketError (List ℤ))
  | uuid4 (uuid : String)
  | page (answer : Except MarketError OrdersPage)
  | publish (arrives confirmed : Bool)
  | ack (arrives : Bool)
  | utcnow (now : ℤ)
  | insertMany (attempts : List Attempt) (lost : Bool)

/-- The broker loses the connection on which a program has its messages. -/
inductive Tick
  | redeliver (thread : ℕ)

/-- A message can be handled once a queue delivers it. -/
def enter (thread : ℕ) (start : Start) (world : World) : Option World :=
  match start with
  | .dispatch => some world
  | .fetch body =>
      if body ∈ world.scrapeJobs.ready then
        some { world with scrapeJobs := world.scrapeJobs.deliver thread body }
      else none
  | .write body =>
      if body ∈ world.results.ready then
        some { world with results := world.results.deliver thread body }
      else none

/-- What the services answer. -/
def respond (thread : ℕ) (op : Op) (choice : Choice) (world : World) :
    Option (Except MarketError op.Answer × World) :=
  match op, choice with
  | .regionIds, .regionIds answer => some (answer, world)
  | .uuid4, .uuid4 uuid => some (.ok uuid, world)
  | .page .., .page answer => some (answer, world)
  | .publish name body, .publish arrives confirmed =>
      if confirmed ∧ ¬ arrives then none
      else some (if confirmed then .ok () else .error .connection,
        if arrives then world.setQueue name ((world.queue name).publish body) else world)
  | .ack name, .ack arrives =>
      if ¬ arrives then some (.ok (), world)
      else if (world.queue name).heldBy thread = [] then some (.error .channelClosed, world)
      else some (.ok (), world.setQueue name ((world.queue name).ack thread))
  | .utcnow, .utcnow now => some (.ok now, world)
  | .insertMany documents, .insertMany attempts lost =>
      if attempts.length ≠ documents.length ∨ .failed duplicateKey ∈ attempts ∨
          (¬ lost ∧ .skipped ∈ attempts) then none
      else
        let (rows, writeErrors) :=
          insertMany world.uniqueIndexes world.rows (documents.zip attempts)
        let answer :=
          if lost then .error .connection
          else if writeErrors = [] then .ok ()
          else .error (.bulkWrite writeErrors)
        some (answer, { world with rows })
  | _, _ => none

/-- The messages of a program are ready again. -/
def requeue (thread : ℕ) (world : World) : World :=
  { world with
    scrapeJobs := world.scrapeJobs.requeue thread
    results := world.results.requeue thread }

/-- Any number of dispatches, fetch workers and write workers. -/
def market (chunkSize : ℕ) : System signature MarketError PUnit World Start Choice Tick where
  body
    | .dispatch => do
        let _ ← dispatchScrape
    | .fetch body => fetchMessage chunkSize body
    | .write body => writeMessage body
  enter := enter
  respond := respond
  crash := requeue
  tick
    | .redeliver thread, world => some (requeue thread world)

end EveBuild.Market
