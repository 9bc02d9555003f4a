import EveBuild.Market.Origins

/-!
# No market order is lost

A chunk that has been published is in the results queue, with a write worker, or
stored: for each of its orders `market_orders` has a row with the order's id, the
run and the region.  A write worker has its chunk until it acknowledges it, which
it does only after a settled insert, and then every document of the chunk is in the
collection or a row with the same key is.  `Delivery` is this as an invariant.

The conflicting row is a row of the same order, run and region because of what is
unique: every unique index has the order's id and the run among its keys, and also
the region, or else ESI never lists one order in two regions (`oneRegion`).  There
is nothing to suppose where the collection has no unique index.

So once the queues are drained (`no_order_lost`), every order of a job that has been
acknowledged has a row.
-/

namespace EveBuild.Market

open Effect

/-! ## Chunks of a list -/

theorem flatten_chunks (size : ℕ) (orders : List MarketOrderEntry) (count : ℕ) :
    ((List.range count).map fun index => (orders.drop (size * index)).take size).flatten =
      orders.take (size * count) := by
  induction count with
  | zero => simp
  | succ count ih =>
      rw [List.range_succ, List.map_append, List.flatten_append, ih, List.map_singleton,
        List.flatten_singleton, Nat.mul_succ, List.take_add]

/-- The chunks hold the orders, in order. -/
theorem flatten_chunksOf {size : ℕ} (hsize : 1 ≤ size) (orders : List MarketOrderEntry) :
    (chunksOf size orders).flatten = orders := by
  rw [chunksOf, flatten_chunks]
  refine List.take_of_length_le ?_
  have hdiv := Nat.div_add_mod (orders.length + size - 1) size
  have hmod := Nat.mod_lt (orders.length + size - 1) (show 0 < size by omega)
  omega

/-- No order is listed in two regions. -/
def OneRegion (moment : MarketMoment) : Prop :=
  ∀ first second, ∀ page ∈ answers (moment.logOf first), ∀ other ∈ answers (moment.logOf second),
    ∀ entry ∈ page.entries, ∀ copy ∈ other.entries, entry.orderId = copy.orderId →
      page.regionId = other.regionId

theorem answers_answer_of_none {moment : MarketMoment} {thread : ℕ} {call : MarketCall}
    {world : World} (hcall : pageAnswer? call = none) (other : ℕ) :
    answers ((moment.answer thread call world).logOf other) = answers (moment.logOf other) := by
  rw [Moment.answer_logOf]
  split
  · exact answers_of_none hcall _
  · rfl

theorem OneRegion.answer {moment : MarketMoment} (hone : OneRegion moment) {thread : ℕ}
    {call : MarketCall} {world : World} (hcall : pageAnswer? call = none) :
    OneRegion (moment.answer thread call world) := by
  intro first second
  rw [answers_answer_of_none hcall, answers_answer_of_none hcall]
  exact hone first second

/-! ## Rows for orders -/

/-- There is a row with the document's order, run and region.  If it was there from
the start, nothing is said of its region. -/
def HasRow (initialRows rows : List Document) (document : Document) : Prop :=
  ∃ row ∈ rows, row.field "order_id" = document.field "order_id" ∧
    row.field "scrape_run_id" = document.field "scrape_run_id" ∧
    (row ∈ initialRows ∨ row.field "region_id" = document.field "region_id")

/-- There is a row for each order of the chunk. -/
def StoredChunk (initialRows rows : List Document) (message : OrdersChunkMessage) : Prop :=
  ∃ now, ∀ document ∈ chunkRows message now, HasRow initialRows rows document

theorem HasRow.mono {initialRows rows later : List Document} {document : Document}
    (hsubset : rows ⊆ later) (hhas : HasRow initialRows rows document) :
    HasRow initialRows later document := by
  obtain ⟨row, hrow, hkeys⟩ := hhas
  exact ⟨row, hsubset hrow, hkeys⟩

theorem StoredChunk.mono {initialRows rows later : List Document} {message : OrdersChunkMessage}
    (hsubset : rows ⊆ later) (hstored : StoredChunk initialRows rows message) :
    StoredChunk initialRows later message := by
  obtain ⟨now, hrows⟩ := hstored
  exact ⟨now, fun document hdocument => (hrows document hdocument).mono hsubset⟩

@[simp] theorem field_orderRow_scrapeRunId (regionId : ℤ) (scrapeRunId : String) (now : ℤ)
    (order : Document) :
    (orderRow regionId scrapeRunId now order).field "scrape_run_id" = .string scrapeRunId := by
  simp [Document.field, orderRow, Dict.getD_set]

@[simp] theorem field_orderRow_regionId (regionId : ℤ) (scrapeRunId : String) (now : ℤ)
    (order : Document) :
    (orderRow regionId scrapeRunId now order).field "region_id" = .int regionId := by
  simp [Document.field, orderRow, Dict.getD_set]

@[simp] theorem field_orderRow_orderId (regionId : ℤ) (scrapeRunId : String) (now : ℤ)
    (order : Document) :
    (orderRow regionId scrapeRunId now order).field "order_id" = order.field "order_id" := by
  simp [Document.field, orderRow, Dict.getD_set]

@[simp] theorem field_asdict_orderId (entry : MarketOrderEntry) :
    entry.asdict.field "order_id" = .int entry.orderId := rfl

theorem field_eq_of_indexKey {keys : List String} {row document : Document}
    (hkey : indexKey keys row = indexKey keys document) {name : String} (hname : name ∈ keys) :
    row.field name = document.field name :=
  List.map_inj_left.mp hkey name hname

/-! ## The invariant -/

/-- Every unique index has the order's id and the run among its keys. -/
def IndexesIdentifyOrders (uniqueIndexes : List (List String)) : Prop :=
  ∀ keys ∈ uniqueIndexes, "order_id" ∈ keys ∧ "scrape_run_id" ∈ keys

/-- Every unique index has the region among its keys. -/
def IndexesHaveRegion (uniqueIndexes : List (List String)) : Prop :=
  ∀ keys ∈ uniqueIndexes, "region_id" ∈ keys

/-- Every unique index has the region among its keys, or no order of the page has been
listed in another region. -/
def NotElsewhere (uniqueIndexes : List (List String)) (moment : MarketMoment) (regionId : ℤ)
    (response : OrdersPage) : Prop :=
  IndexesHaveRegion uniqueIndexes ∨
    ∀ thread, ∀ page ∈ answers (moment.logOf thread), ∀ copy ∈ page.entries,
      ∀ entry ∈ response.entries, copy.orderId = entry.orderId → page.regionId = regionId

/-- ESI does not list an order that it has listed in another region, unless this does
not matter. -/
def oneRegion (uniqueIndexes : List (List String)) :
    Policy signature MarketError World Start Choice Tick :=
  let free : Policy signature MarketError World Start Choice Tick := .free
  { free with
    call := fun _ op choice moment =>
      match op, choice with
      | .page regionId _, .page (.ok response) =>
          NotElsewhere uniqueIndexes moment regionId response
      | _, _ => True }

/-- Where every unique index has the region among its keys, as where there is none,
every step meets the condition. -/
theorem meets_oneRegion {uniqueIndexes : List (List String)}
    (hregion : IndexesHaveRegion uniqueIndexes)
    (config : Config signature MarketError PUnit World Start) (event : Event Start Choice Tick) :
    (oneRegion uniqueIndexes).Meets config event := by
  cases event with
  | call thread choice =>
      intro op next _
      cases op with
      | page regionId page =>
          cases choice with
          | page answer =>
              cases answer with
              | ok response => exact Or.inl hregion
              | error error => trivial
          | _ => trivial
      | _ => trivial
  | _ => trivial

/-- A published chunk is on its way or stored. -/
structure Delivery (uniqueIndexes : List (List String)) (initialRows : List Document)
    (moment : MarketMoment) : Prop where
  indexes : moment.world.uniqueIndexes = uniqueIndexes
  oneRegion : IndexesHaveRegion uniqueIndexes ∨ OneRegion moment
  published : ∀ thread message,
    ⟨.publish .results (encodeOrdersChunk message), .ok ()⟩ ∈ moment.logOf thread →
    encodeOrdersChunk message ∈ moment.world.results.ready ∨
      (∃ holder, (holder, encodeOrdersChunk message) ∈ moment.world.results.unacked) ∨
      StoredChunk initialRows moment.world.rows message
  inserted : ∀ thread documents answer,
    ⟨.insertMany documents, answer⟩ ∈ moment.logOf thread → Settled answer →
    ∀ document ∈ documents, HasRow initialRows moment.world.rows document

section Steps

variable {chunkSize : ℕ} {uniqueIndexes : List (List String)} {initialRows : List Document}
  {moment later : MarketMoment}

theorem Delivery.initial :
    Delivery uniqueIndexes initialRows
      (Config.initial signature MarketError PUnit Start
        (World.idle initialRows uniqueIndexes)).moment where
  indexes := rfl
  oneRegion := Or.inr (by simp [OneRegion, Config.initial, Moment.logOf, answers])
  published := by simp [Config.initial, Moment.logOf]
  inserted := by simp [Config.initial, Moment.logOf]

/-- Where the queue of results and the rows stay and no page, chunk or insert comes
to the history, nothing changes. -/
theorem Delivery.frame (hdelivery : Delivery uniqueIndexes initialRows moment)
    (hindexes : later.world.uniqueIndexes = moment.world.uniqueIndexes)
    (hresults : later.world.results = moment.world.results)
    (hrows : later.world.rows = moment.world.rows)
    (honeRegion : IndexesHaveRegion uniqueIndexes ∨ OneRegion later)
    (hpublished : ∀ thread body, ⟨.publish .results body, .ok ()⟩ ∈ later.logOf thread →
      ⟨.publish .results body, .ok ()⟩ ∈ moment.logOf thread)
    (hinserted : ∀ thread documents answer,
      ⟨.insertMany documents, answer⟩ ∈ later.logOf thread →
      ⟨.insertMany documents, answer⟩ ∈ moment.logOf thread) :
    Delivery uniqueIndexes initialRows later where
  indexes := hindexes.trans hdelivery.indexes
  oneRegion := honeRegion
  published := by
    rw [hresults, hrows]
    exact fun thread message hcall => hdelivery.published thread message (hpublished _ _ hcall)
  inserted := by
    rw [hrows]
    exact fun thread documents answer hcall =>
      hdelivery.inserted thread documents answer (hinserted _ _ _ hcall)

/-- A write worker gets a chunk. -/
theorem Delivery.deliver (hdelivery : Delivery uniqueIndexes initialRows moment) (body : Value) :
    Delivery uniqueIndexes initialRows (moment.enter (.write body) { moment.world with
      results := moment.world.results.deliver moment.starts.length body }) := by
  refine ⟨hdelivery.indexes, hdelivery.oneRegion, fun thread message hcall => ?_,
    hdelivery.inserted⟩
  -- the chunk that is delivered goes from the queue to the worker, the others stay
  rcases hdelivery.published thread message hcall with hmem | ⟨holder, hholder⟩ | hstored
  · by_cases heq : encodeOrdersChunk message = body
    · exact Or.inr (Or.inl ⟨moment.starts.length, heq ▸ List.mem_cons_self ..⟩)
    · exact Or.inl ((List.mem_erase_of_ne heq).mpr hmem)
  · exact Or.inr (Or.inl ⟨holder, List.mem_cons_of_mem _ hholder⟩)
  · exact Or.inr (Or.inr hstored)

/-- The broker takes the messages of a program back. -/
theorem Delivery.requeue (hdelivery : Delivery uniqueIndexes initialRows moment) (thread : ℕ) :
    Delivery uniqueIndexes initialRows (moment.put (requeue thread moment.world)) := by
  refine ⟨hdelivery.indexes, hdelivery.oneRegion, fun other message hcall => ?_,
    hdelivery.inserted⟩
  rcases hdelivery.published other message hcall with hmem | ⟨holder, hholder⟩ | hstored
  · exact Or.inl (List.mem_append_left _ hmem)
  · by_cases heq : holder = thread
    · refine Or.inl (List.mem_append_right _ ?_)
      exact List.mem_map.mpr
        ⟨(holder, _), List.mem_filter.mpr ⟨hholder, by simpa using heq⟩, rfl⟩
    · exact Or.inr (Or.inl ⟨holder, List.mem_filter.mpr ⟨hholder, by simpa using heq⟩⟩)
  · exact Or.inr (Or.inr hstored)

/-- A chunk is published. -/
theorem Delivery.publish (hdelivery : Delivery uniqueIndexes initialRows moment) {thread : ℕ}
    {body : Value} {answer : Except MarketError Unit} {world : World}
    (hworld : world = moment.world.setQueue .results (moment.world.results.publish body)) :
    Delivery uniqueIndexes initialRows
      (moment.answer thread ⟨.publish .results body, answer⟩ world) := by
  subst hworld
  refine ⟨hdelivery.indexes, hdelivery.oneRegion.imp_right (·.answer rfl),
    fun other message hcall => ?_, fun other documents answer hcall hsettled => ?_⟩
  · rcases Moment.mem_answer_logOf hcall with hcall | ⟨_, hcall⟩
    · rcases hdelivery.published other message hcall with hmem | hholder | hstored
      · exact Or.inl (List.mem_append_left _ hmem)
      · exact Or.inr (Or.inl hholder)
      · exact Or.inr (Or.inr hstored)
    · -- the message has been published now, and is ready
      obtain ⟨_, rfl⟩ := Op.publish.inj (congrArg Call.op hcall)
      exact Or.inl (List.mem_append_right _ (List.mem_singleton_self _))
  · have hold := Moment.mem_logOf_of_ne hcall fun heq => by cases congrArg Call.op heq
    exact hdelivery.inserted other documents answer hold hsettled

/-- A write worker acknowledges a chunk that is stored. -/
theorem Delivery.ack (horigins : Origins initialRows moment)
    (hdelivery : Delivery uniqueIndexes initialRows moment) {thread : ℕ}
    {answer : Except MarketError Unit} {world : World}
    (hstored : ∀ message, moment.starts[thread]? = some (.write (encodeOrdersChunk message)) →
      StoredChunk initialRows moment.world.rows message)
    (hworld : world = moment.world.setQueue .results (moment.world.results.ack thread)) :
    Delivery uniqueIndexes initialRows (moment.answer thread ⟨.ack .results, answer⟩ world) := by
  subst hworld
  refine ⟨hdelivery.indexes, hdelivery.oneRegion.imp_right (·.answer rfl),
    fun other message hcall => ?_, fun other documents answer hcall hsettled => ?_⟩
  · have hold := Moment.mem_logOf_of_ne hcall fun heq => by cases congrArg Call.op heq
    rcases hdelivery.published other message hold with hmem | ⟨holder, hholder⟩ | hstored'
    · exact Or.inl hmem
    · -- the worker only acknowledges what it holds, and has stored it
      by_cases heq : holder = thread
      · exact Or.inr (Or.inr (hstored message (heq ▸ horigins.held _ hholder)))
      · exact Or.inr (Or.inl ⟨holder, List.mem_filter.mpr ⟨hholder, by simpa using heq⟩⟩)
    · exact Or.inr (Or.inr hstored')
  · have hold := Moment.mem_logOf_of_ne hcall fun heq => by cases congrArg Call.op heq
    exact hdelivery.inserted other documents answer hold hsettled

/-- A document of fetched orders that is in the collection, or stands behind a row
there, has a row. -/
theorem Delivery.hasRow_of_present (hindexes : IndexesIdentifyOrders uniqueIndexes)
    (honeRegion : IndexesHaveRegion uniqueIndexes ∨ OneRegion moment) {rows : List Document}
    (hrows : ∀ row ∈ rows, row ∈ initialRows ∨ HoldsFetched moment row) {document : Document}
    (hdocument : HoldsFetched moment document) (hpresent : Present uniqueIndexes rows document) :
    HasRow initialRows rows document := by
  rcases hpresent with hmem | ⟨keys, hkeys, row, hrow, hkey⟩
  · exact ⟨document, hmem, rfl, rfl, Or.inr rfl⟩
  · obtain ⟨horderKey, hrunKey⟩ := hindexes keys hkeys
    have horder := field_eq_of_indexKey hkey horderKey
    refine ⟨row, hrow, horder, field_eq_of_indexKey hkey hrunKey, ?_⟩
    rcases honeRegion with hregion | hone
    · exact Or.inr (field_eq_of_indexKey hkey (hregion keys hkeys))
    · rcases hrows row hrow with hinitial | ⟨job, entry, now, rfl, _, _, page, hpage, hjob, hentry⟩
      · exact Or.inl hinitial
      · obtain ⟨job', entry', now', rfl, _, _, page', hpage', hjob', hentry'⟩ := hdocument
        simp only [field_orderRow_orderId, field_asdict_orderId, Value.number.injEq,
          Number.int.injEq] at horder
        refine Or.inr ?_
        rw [field_orderRow_regionId, field_orderRow_regionId, ← hjob, ← hjob',
          hone _ _ page hpage page' hpage' entry hentry entry' hentry' horder]

/-- A write worker inserts fetched orders. -/
theorem Delivery.insert (hindexes : IndexesIdentifyOrders uniqueIndexes)
    (horigins : Origins initialRows moment)
    (hdelivery : Delivery uniqueIndexes initialRows moment) {thread : ℕ}
    {documents : List Document} {attempts : List Attempt} {answer : Except MarketError Unit}
    {world : World} (hdocuments : ∀ document ∈ documents, HoldsFetched moment document)
    (hlength : attempts.length = documents.length) (hfailed : .failed duplicateKey ∉ attempts)
    (hsettled : Settled answer → .skipped ∉ attempts ∧ ∀ code ∈
      (insertMany moment.world.uniqueIndexes moment.world.rows (documents.zip attempts)).2,
        code = duplicateKey)
    (hworld : world = { moment.world with
      rows := (insertMany moment.world.uniqueIndexes moment.world.rows
        (documents.zip attempts)).1 }) :
    Delivery uniqueIndexes initialRows
      (moment.answer thread ⟨.insertMany documents, answer⟩ world) := by
  have hsubset : moment.world.rows ⊆ world.rows := hworld ▸ subset_insertMany _ _
  refine ⟨by rw [hworld]; exact hdelivery.indexes, hdelivery.oneRegion.imp_right (·.answer rfl),
    fun other message hcall => ?_, fun other documents' answer' hcall hsettled' => ?_⟩
  · have hold := Moment.mem_logOf_of_ne hcall fun heq => by cases congrArg Call.op heq
    rcases hdelivery.published other message hold with hmem | hholder | hstored
    · exact Or.inl (by rwa [hworld])
    · exact Or.inr (Or.inl (by rwa [hworld]))
    · exact Or.inr (Or.inr (hstored.mono hsubset))
  · rcases Moment.mem_answer_logOf hcall with hcall | ⟨_, hcall⟩
    · intro document hdocument
      have hrow := hdelivery.inserted other documents' answer' hcall hsettled' document hdocument
      exact hrow.mono hsubset
    · -- the documents are inserted now
      cases hcall
      obtain ⟨hskipped, hcodes⟩ := hsettled hsettled'
      subst hworld
      intro document hdocument
      refine Delivery.hasRow_of_present hindexes hdelivery.oneRegion
        (fun row hrow => horigins.mem_insertMany hdocuments hrow)
        (hdocuments document hdocument) ?_
      obtain ⟨index, hindex, rfl⟩ := List.getElem_of_mem hdocument
      have hitem : (documents[index], attempts[index]) ∈ documents.zip attempts := by
        rw [← List.getElem_zip (h := by simp; omega)]
        exact List.getElem_mem _
      have hpresent := present_insertMany
        (fun item hitem heq => hskipped (heq ▸ (List.of_mem_zip hitem).2))
        (fun item hitem heq => hfailed (heq ▸ (List.of_mem_zip hitem).2)) hcodes _ hitem
      rw [hdelivery.indexes] at hpresent ⊢
      exact hpresent

/-- A call that gets no page, publishes no chunk and inserts nothing. -/
theorem Delivery.other (hdelivery : Delivery uniqueIndexes initialRows moment) {thread : ℕ}
    {call : MarketCall} {world : World}
    (hindexes : world.uniqueIndexes = moment.world.uniqueIndexes)
    (hresults : world.results = moment.world.results) (hrows : world.rows = moment.world.rows)
    (honeRegion : IndexesHaveRegion uniqueIndexes ∨
      OneRegion (moment.answer thread call world))
    (hpublish : ∀ body, call ≠ ⟨.publish .results body, .ok ()⟩)
    (hinsert : ∀ documents answer, call ≠ ⟨.insertMany documents, answer⟩) :
    Delivery uniqueIndexes initialRows (moment.answer thread call world) := by
  refine hdelivery.frame hindexes hresults hrows honeRegion
    (fun other body hcall => ?_) fun other documents answer hcall => ?_
  · exact Moment.mem_logOf_of_ne hcall fun heq => hpublish body heq.symm
  · exact Moment.mem_logOf_of_ne hcall fun heq => hinsert documents answer heq.symm

/-- A page of a region where no order of another region is listed. -/
theorem OneRegion.page (hone : OneRegion moment) {thread : ℕ} {regionId page : ℤ}
    {answer : Except MarketError OrdersPage}
    (hpolicy : ∀ response, answer = .ok response → ∀ thread, ∀ page ∈ answers (moment.logOf thread),
      ∀ copy ∈ page.entries, ∀ entry ∈ response.entries, copy.orderId = entry.orderId →
        page.regionId = regionId) :
    OneRegion (moment.answer thread ⟨.page regionId page, answer⟩ moment.world) := by
  -- a page in a log is an old one, or the new one
  have hpages : ∀ other, ∀ found ∈ answers
      ((moment.answer thread ⟨.page regionId page, answer⟩ moment.world).logOf other),
      found ∈ answers (moment.logOf other) ∨ found.regionId = regionId ∧
        ∀ entry ∈ found.entries, ∃ response, answer = .ok response ∧ entry ∈ response.entries := by
    intro other found hfound
    rw [Moment.answer_logOf] at hfound
    split at hfound
    · rw [answers_cons] at hfound
      rcases List.mem_append.mp hfound with hold | hnew
      · exact Or.inl hold
      · exact Or.inr (pageAnswer?_page (Option.mem_toList.mp hnew))
    · exact Or.inl hfound
  intro first second found hfound found' hfound' entry hentry copy hcopy horder
  rcases hpages first found hfound with hold | ⟨hregion, hnew⟩ <;>
    rcases hpages second found' hfound' with hold' | ⟨hregion', hnew'⟩
  · exact hone first second found hold found' hold' entry hentry copy hcopy horder
  · obtain ⟨response, hresponse, hmem⟩ := hnew' copy hcopy
    exact hregion' ▸ hpolicy response hresponse first found hold entry hentry copy hmem horder
  · obtain ⟨response, hresponse, hmem⟩ := hnew entry hentry
    have heq := hpolicy response hresponse second found' hold' copy hcopy entry hmem horder.symm
    rw [hregion, heq]
  · rw [hregion, hregion']

/-- A call loses nothing. -/
theorem Delivery.call (hindexes : IndexesIdentifyOrders uniqueIndexes)
    (horigins : Origins initialRows moment)
    (hdelivery : Delivery uniqueIndexes initialRows moment) {thread : ℕ} {op : Op}
    {answer : Except MarketError op.Answer} {world : World} {start : Start}
    (hstart : moment.starts[thread]? = some start)
    (hlog : marketLog chunkSize start (⟨op, answer⟩ :: moment.logOf thread))
    (hpage : ∀ regionId page response, (⟨op, answer⟩ : MarketCall) =
      ⟨.page regionId page, .ok response⟩ → NotElsewhere uniqueIndexes moment regionId response)
    (hresponded : Responded thread moment.world op answer world) :
    Delivery uniqueIndexes initialRows (moment.answer thread ⟨op, answer⟩ world) := by
  cases hresponded with
  | page regionId page answer =>
      refine hdelivery.other rfl rfl rfl ?_ (by simp) (by simp)
      rcases hdelivery.oneRegion with hregion | hone
      · exact Or.inl hregion
      · by_cases hregion : IndexesHaveRegion uniqueIndexes
        · exact Or.inl hregion
        · refine Or.inr (hone.page fun response hresponse => ?_)
          exact (hpage regionId page response (hresponse ▸ rfl)).resolve_left hregion
  | published name body answer =>
      cases name with
      | scrapeJobs =>
          exact hdelivery.other rfl rfl rfl (hdelivery.oneRegion.imp_right (·.answer rfl)) (by simp)
            (by simp)
      | results => exact hdelivery.publish rfl
  | acked name =>
      cases name with
      | scrapeJobs =>
          exact hdelivery.other rfl rfl rfl (hdelivery.oneRegion.imp_right (·.answer rfl)) (by simp)
            (by simp)
      | results =>
          -- only a write worker acknowledges results, and it has settled the insertion before
          obtain ⟨body, message, rfl, hdecode, hwrite⟩ :=
            writeLog_of_call hlog (List.mem_cons_self ..) (Or.inr rfl)
          refine hdelivery.ack horigins (fun message' hmessage => ?_) rfl
          obtain rfl : encodeOrdersChunk message' = body :=
            Start.write.inj (Option.some_inj.mp (hmessage.symm.trans hstart))
          rw [decode_encodeOrdersChunk] at hdecode
          obtain rfl := Except.ok.inj hdecode
          rcases hwrite.settled ⟨_, List.mem_cons_self .., rfl⟩ with
            hnil | ⟨now, inserted, hinserted, hsettled⟩
          · exact ⟨0, by simp [chunkRows, hnil]⟩
          · rcases List.mem_cons.mp hinserted with heq | hinserted
            · cases congrArg Call.op heq
            · exact ⟨now, hdelivery.inserted thread _ _ hinserted hsettled⟩
  | inserted documents attempts answer hlength hfailed hsettled =>
      exact hdelivery.insert hindexes horigins (horigins.holdsFetched_of_insertMany hstart hlog)
        hlength hfailed hsettled rfl
  | _ =>
      -- no page, no chunk and no row
      exact hdelivery.other rfl rfl rfl (hdelivery.oneRegion.imp_right (·.answer rfl)) (by simp)
        (by simp)

/-- **A step loses nothing.** -/
theorem Delivery.steps (hindexes : IndexesIdentifyOrders uniqueIndexes)
    {before after : Config signature MarketError PUnit World Start}
    {event : Event Start Choice Tick} (horigins : Origins initialRows before.moment)
    (hdelivery : Delivery uniqueIndexes initialRows before.moment)
    (hlogged : System.Logged (marketLog chunkSize) (fun _ _ _ => True) after)
    (hmeets : (Market.oneRegion uniqueIndexes).Meets before event)
    (hstep : (market chunkSize).Steps before event after) :
    Delivery uniqueIndexes initialRows after.moment := by
  cases hstep with
  | start henter =>
      cases entered_of_enter henter with
      | dispatch =>
          exact hdelivery.frame rfl rfl rfl hdelivery.oneRegion (fun _ _ => id) fun _ _ _ => id
      | fetch body hready =>
          exact hdelivery.frame rfl rfl rfl hdelivery.oneRegion (fun _ _ => id) fun _ _ _ => id
      -- only a write worker takes something from the queue of results
      | write body hready => exact hdelivery.deliver body
  | @call thread choice op next answer world hthread hrespond =>
      have hmem : (⟨op, answer⟩ : MarketCall) ∈
          (before.moment.answer thread ⟨op, answer⟩ world).logOf thread := by simp
      obtain ⟨start, hstart, hlog⟩ := hlogged.start_of_mem hmem
      rw [Moment.answer_logOf_self] at hlog
      refine hdelivery.call hindexes horigins hstart hlog ?_ (responded_of_respond hrespond)
      intro regionId page response heq
      cases heq
      have hpolicy := hmeets _ _ hthread
      cases choice <;> simp only [market, respond, Option.some.injEq, Prod.mk.injEq, reduceCtorEq]
        at hrespond
      obtain ⟨rfl, _⟩ := hrespond
      exact hpolicy
  | @crash thread program hthread =>
      exact (hdelivery.requeue thread).frame rfl rfl rfl hdelivery.oneRegion (fun _ _ => id)
        fun _ _ _ => id
  | @tick tick world htick =>
      cases tick with
      | redeliver thread =>
          obtain rfl := Option.some_inj.mp htick
          exact hdelivery.requeue thread

/-- **A run loses nothing.** -/
theorem Delivery.reaches (hindexes : IndexesIdentifyOrders uniqueIndexes)
    {config : Config signature MarketError PUnit World Start}
    (hreaches : (market chunkSize).Reaches (Market.oneRegion uniqueIndexes)
      (Config.initial _ _ _ _ (World.idle initialRows uniqueIndexes)) config) :
    Delivery uniqueIndexes initialRows config.moment := by
  refine (hreaches.invariant
    (motive := fun config => System.Logged (marketLog chunkSize) (fun _ _ _ => True) config ∧
      Origins initialRows config.moment ∧ Delivery uniqueIndexes initialRows config.moment)
    ⟨.initial, .initial, .initial⟩ ?_).2.2
  intro before event after ⟨hlogged, horigins, hdelivery⟩ hmeets hstep
  have hlogged' := hstep.logged (marketLog_body chunkSize) hlogged
  exact ⟨hlogged', horigins.steps hlogged' hstep,
    hdelivery.steps hindexes horigins hlogged' hmeets hstep⟩

end Steps

/-! ## Once the queues are drained -/

/-- No message is ready or delivered. -/
def World.Drained (world : World) : Prop :=
  world.scrapeJobs = .empty ∧ world.results = .empty

/-- A fetch worker's job is in the collection: all pages were answered; the chunks that
it published, decoded and put together, are the orders on them; and each order has a
row with the job's region and run and the fields of a fetched copy. -/
structure JobStored (moment : MarketMoment) (thread : ℕ) (job : ScrapeJobMessage) : Prop where
  pages : AllPages (answers (moment.logOf thread))
  regions : ∀ page ∈ answers (moment.logOf thread), page.regionId = job.regionId
  chunks : ∃ messages : List OrdersChunkMessage,
    (publishedChunks (moment.logOf thread)).map decodeOrdersChunk = messages.map .ok ∧
    (∀ message ∈ messages,
      message.regionId = job.regionId ∧ message.scrapeRunId = job.scrapeRunId) ∧
    messages.flatMap OrdersChunkMessage.orders =
      (fetchedOrders (moment.logOf thread)).map MarketOrderEntry.asdict
  rows : ∀ entry ∈ fetchedOrders (moment.logOf thread), ∃ row ∈ moment.world.rows, ∃ copy now,
    row = orderRow job.regionId job.scrapeRunId now copy.asdict ∧
    copy.orderId = entry.orderId ∧ Fetched moment job copy

theorem decode_chunkBodies {chunkSize : ℕ} (hsize : 1 ≤ chunkSize) (job : ScrapeJobMessage)
    (orders : List MarketOrderEntry) :
    ∃ messages : List OrdersChunkMessage,
      (chunkBodies chunkSize job orders).map decodeOrdersChunk = messages.map .ok ∧
      (∀ message ∈ messages,
        message.regionId = job.regionId ∧ message.scrapeRunId = job.scrapeRunId) ∧
      messages.flatMap OrdersChunkMessage.orders = orders.map MarketOrderEntry.asdict := by
  refine ⟨(chunksOf chunkSize orders).map fun chunk =>
    ⟨job.regionId, job.scrapeRunId, chunk.map MarketOrderEntry.asdict⟩, ?_, ?_, ?_⟩
  · rw [chunkBodies, List.map_map, List.map_map]
    exact List.map_congr_left fun chunk _ => decode_encodeOrdersChunk _
  · intro message hmessage
    obtain ⟨chunk, _, rfl⟩ := List.mem_map.mp hmessage
    exact ⟨rfl, rfl⟩
  · rw [List.flatMap_map, ← List.map_flatMap, List.flatMap_id', flatten_chunksOf hsize]

/-- **No market order is lost.**  In every run, with any crashes, redeliveries and
failing calls, once the queues are drained, every job that has been acknowledged is in
the collection. -/
theorem no_order_lost {chunkSize : ℕ} (hsize : 1 ≤ chunkSize) {uniqueIndexes : List (List String)}
    (hindexes : IndexesIdentifyOrders uniqueIndexes) {initialRows : List Document}
    {config : Config signature MarketError PUnit World Start}
    (hreaches : (market chunkSize).Reaches (oneRegion uniqueIndexes)
      (Config.initial _ _ _ _ (World.idle initialRows uniqueIndexes)) config)
    (hdrained : config.moment.world.Drained) {thread : ℕ} {job : ScrapeJobMessage}
    (hjob : Fetches config.moment thread job)
    (hacked : Acked .scrapeJobs (config.moment.logOf thread))
    (hrun : ∀ row ∈ initialRows, row.field "scrape_run_id" ≠ .string job.scrapeRunId) :
    JobStored config.moment thread job := by
  obtain ⟨hlogged, horigins⟩ := Origins.reaches hreaches
  have hdelivery := Delivery.reaches hindexes hreaches
  obtain ⟨body, hstart, hdecode⟩ := hjob
  have hlog := hlogged.logs thread _ hstart
  simp only [marketLog, hdecode] at hlog
  have hpublished := hlog.acked hacked
  refine ⟨hlog.pages (Or.inr hacked), fun page hpage => hlog.regionId_of_mem hpage, ?_,
    fun entry hentry => ?_⟩
  · rw [hpublished]
    exact decode_chunkBodies hsize job _
  · rw [← flatten_chunksOf hsize (fetchedOrders _)] at hentry
    obtain ⟨chunk, hchunk, hmem⟩ := List.mem_flatten.mp hentry
    have hbody : chunkBody job chunk ∈ publishedChunks (config.moment.logOf thread) :=
      hpublished ▸ List.mem_map_of_mem hchunk
    have hcall := mem_of_mem_publishedChunks hbody
    -- the queues are drained, so that what has been published is stored
    rcases hdelivery.published thread _ hcall with hready | ⟨holder, hheld⟩ | ⟨now, hstored⟩
    · rw [hdrained.2] at hready
      cases hready
    · rw [hdrained.2] at hheld
      cases hheld
    · obtain ⟨row, hrow, horder, hrunId, hregion⟩ := hstored
        (orderRow job.regionId job.scrapeRunId now entry.asdict)
        (List.mem_map_of_mem (List.mem_map_of_mem hmem))
      rw [field_orderRow_scrapeRunId] at hrunId
      -- no row of the run was there before, so that the row comes from this job
      have hnew : row ∉ initialRows := fun hold => hrun row hold hrunId
      obtain ⟨job', copy, now', rfl, hfetched⟩ := (horigins.rows row hrow).resolve_left hnew
      have hregion := hregion.resolve_left hnew
      simp only [field_orderRow_orderId, field_orderRow_scrapeRunId, field_orderRow_regionId,
        field_asdict_orderId, Value.number.injEq, Number.int.injEq, Value.string.injEq]
        at horder hrunId hregion
      obtain rfl : job' = job := by
        cases job
        cases job'
        rw [ScrapeJobMessage.mk.injEq]
        exact ⟨hregion, hrunId⟩
      exact ⟨_, hrow, copy, now', rfl, horder, hfetched⟩

/-! ## A run of one order -/

/-- An order of region 7. -/
def sampleOrder : MarketOrderEntry where
  orderId := 1
  typeId := 34
  locationId := 60003760
  isBuyOrder := false
  price := .float 0x4016000000000000
  volumeRemain := 10
  volumeTotal := 10
  minVolume := 1
  duration := 90
  issued := "2026-01-01T00:00:00Z"
  range := "region"

def sampleJob : ScrapeJobMessage := ⟨7, "run"⟩

abbrev MarketEvent := Event Start Choice Tick

/-- A dispatch of one region. -/
def dispatchEvents : List MarketEvent :=
  [.start .dispatch, .call 0 (.uuid4 "run"), .call 0 (.regionIds (.ok [7])),
    .call 0 (.publish true true)]

/-- The second program fetches the one page of the region and publishes its order. -/
def fetchEvents : List MarketEvent :=
  [.start (.fetch (encodeScrapeJob sampleJob)), .call 1 (.page (.ok ⟨[sampleOrder], some 1⟩)),
    .call 1 (.publish true true), .call 1 (.ack true)]

/-- A write worker inserts the chunk. -/
def writeEvents (thread : ℕ) : List MarketEvent :=
  [.start (.write (chunkBody sampleJob [sampleOrder])), .call thread (.utcnow 5),
    .call thread (.insertMany [.attempted] false)]

def sampleStart : Config signature MarketError PUnit World Start :=
  Config.initial _ _ _ _ (World.idle [] [])

/-- The whole run ends. -/
theorem isSome_run_sample :
    ((market 1000).run sampleStart
      (dispatchEvents ++ fetchEvents ++ writeEvents 2 ++ [.call 2 (.ack true)])).isSome := rfl

def sampleEnd : Config signature MarketError PUnit World Start :=
  ((market 1000).run sampleStart
    (dispatchEvents ++ fetchEvents ++ writeEvents 2 ++ [.call 2 (.ack true)])).get isSome_run_sample

theorem no_order_lost_sample :
    sampleEnd.moment.world.Drained ∧ JobStored sampleEnd.moment 1 sampleJob := by
  have hreaches : (market 1000).Reaches (oneRegion []) sampleStart sampleEnd :=
    System.reaches_of_run (Option.some_get isSome_run_sample).symm fun event _ config =>
      meets_oneRegion (by simp [IndexesHaveRegion]) config event
  have hdrained : sampleEnd.moment.world.Drained := ⟨rfl, rfl⟩
  exact ⟨hdrained, no_order_lost (by omega) (by simp [IndexesIdentifyOrders]) hreaches hdrained
    ⟨_, rfl, rfl⟩ (List.mem_cons_self ..) (by simp)⟩

end EveBuild.Market
