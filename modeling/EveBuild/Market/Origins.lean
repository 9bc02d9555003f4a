import EveBuild.Market.Services

/-!
# Where chunks and rows come from

The chunks in the results queue, those that write workers have, and the rows of `market_orders`
hold orders from pages that ESI has answered to a fetch worker with the job.  `Origins` is this
as an invariant; it holds of every run, whatever is unique in the collection.
-/

namespace EveBuild.Market

open Effect

abbrev MarketMoment := Moment signature MarketError World Start

/-- The program is a fetch worker with the job. -/
def Fetches (moment : MarketMoment) (thread : ℕ) (job : ScrapeJobMessage) : Prop :=
  ∃ body, moment.starts[thread]? = some (.fetch body) ∧ decodeScrapeJob body = .ok job

/-- The order is on a page of the region that a fetch worker has got for the job. -/
def Fetched (moment : MarketMoment) (job : ScrapeJobMessage) (entry : MarketOrderEntry) : Prop :=
  ∃ thread, Fetches moment thread job ∧ ∃ page ∈ answers (moment.logOf thread),
    page.regionId = job.regionId ∧ entry ∈ page.entries

/-- The message carries orders that have been fetched for its region and run. -/
def CarriesFetched (moment : MarketMoment) (body : Value) : Prop :=
  ∃ job chunk, body = chunkBody job chunk ∧ ∀ entry ∈ chunk, Fetched moment job entry

/-- The row holds an order that has been fetched for its region and run. -/
def HoldsFetched (moment : MarketMoment) (row : Document) : Prop :=
  ∃ job entry now, row = orderRow job.regionId job.scrapeRunId now entry.asdict ∧
    Fetched moment job entry

theorem mem_answers_of_extends {earlier later : MarketMoment} (hextends : earlier.Extends later)
    {thread : ℕ} {page : PageAnswer} (hpage : page ∈ answers (earlier.logOf thread)) :
    page ∈ answers (later.logOf thread) := by
  obtain ⟨newer, hnewer⟩ := hextends.logOf thread
  rw [← hnewer]
  simp only [answers, List.filterMap_append, List.reverse_append, List.mem_append] at hpage ⊢
  exact Or.inl hpage

theorem Fetched.extends {earlier later : MarketMoment} (hextends : earlier.Extends later)
    {job : ScrapeJobMessage} {entry : MarketOrderEntry} (hfetched : Fetched earlier job entry) :
    Fetched later job entry := by
  obtain ⟨thread, ⟨body, hstart, hdecode⟩, page, hpage, hentry⟩ := hfetched
  exact ⟨thread, ⟨body, hextends.getElem?_starts hstart, hdecode⟩, page,
    mem_answers_of_extends hextends hpage, hentry⟩

theorem CarriesFetched.extends {earlier later : MarketMoment} (hextends : earlier.Extends later)
    {body : Value} (hcarries : CarriesFetched earlier body) : CarriesFetched later body := by
  obtain ⟨job, chunk, rfl, hchunk⟩ := hcarries
  exact ⟨job, chunk, rfl, fun entry hentry => (hchunk entry hentry).extends hextends⟩

theorem HoldsFetched.extends {earlier later : MarketMoment} (hextends : earlier.Extends later)
    {row : Document} (hholds : HoldsFetched earlier row) : HoldsFetched later row := by
  obtain ⟨job, entry, now, rfl, hfetched⟩ := hholds
  exact ⟨job, entry, now, rfl, hfetched.extends hextends⟩

/-! ## The invariant -/

/-- Chunks and rows come from pages. -/
structure Origins (initialRows : List Document) (moment : MarketMoment) : Prop where
  held : ∀ held ∈ moment.world.results.unacked, moment.starts[held.1]? = some (.write held.2)
  ready : ∀ body ∈ moment.world.results.ready, CarriesFetched moment body
  writes : ∀ body, .write body ∈ moment.starts → CarriesFetched moment body
  rows : ∀ row ∈ moment.world.rows, row ∈ initialRows ∨ HoldsFetched moment row

section Steps

variable {chunkSize : ℕ} {initialRows : List Document} {moment later : MarketMoment}

theorem Origins.initial {uniqueIndexes : List (List String)} :
    Origins initialRows (Config.initial signature MarketError PUnit Start
      (World.idle initialRows uniqueIndexes)).moment where
  held := by simp [Config.initial, World.idle, BrokerQueue.empty]
  ready := by simp [Config.initial, World.idle, BrokerQueue.empty]
  writes := by simp [Config.initial]
  rows := fun row hrow => Or.inl hrow

/-- Where the queue of results and the rows stay, nothing changes. -/
theorem Origins.frame (horigins : Origins initialRows moment) (hextends : moment.Extends later)
    (hresults : later.world.results = moment.world.results)
    (hrows : later.world.rows = moment.world.rows)
    (hwrites : ∀ body, .write body ∈ later.starts → .write body ∈ moment.starts) :
    Origins initialRows later where
  held := by
    rw [hresults]
    exact fun held hheld => hextends.getElem?_starts (horigins.held held hheld)
  ready := by
    rw [hresults]
    exact fun body hbody => (horigins.ready body hbody).extends hextends
  writes := fun body hbody => (horigins.writes body (hwrites body hbody)).extends hextends
  rows := by
    rw [hrows]
    exact fun row hrow => (horigins.rows row hrow).imp_right (·.extends hextends)

/-- A call that leaves the queue of results and the rows alone. -/
theorem Origins.other (horigins : Origins initialRows moment) {thread : ℕ} {call : MarketCall}
    {world : World} (hresults : world.results = moment.world.results)
    (hrows : world.rows = moment.world.rows) :
    Origins initialRows (moment.answer thread call world) :=
  horigins.frame (Moment.extends_answer ..) hresults hrows fun _ => id

/-- A write worker gets a chunk. -/
theorem Origins.deliver (horigins : Origins initialRows moment) {body : Value}
    (hready : body ∈ moment.world.results.ready) :
    Origins initialRows (moment.enter (.write body) { moment.world with
      results := moment.world.results.deliver moment.starts.length body }) := by
  have hextends := Moment.extends_enter moment (.write body) { moment.world with
      results := moment.world.results.deliver moment.starts.length body }
  refine ⟨fun held hheld => ?_, fun other hother => ?_, fun other hother => ?_,
    fun row hrow => (horigins.rows row hrow).imp_right (·.extends hextends)⟩
  · rcases List.mem_cons.mp hheld with rfl | hheld
    · exact List.getElem?_concat_length
    · exact hextends.getElem?_starts (horigins.held held hheld)
  · exact (horigins.ready other (List.mem_of_mem_erase hother)).extends hextends
  · rcases List.mem_append.mp hother with hother | hother
    · exact (horigins.writes other hother).extends hextends
    · obtain rfl := Start.write.inj (List.mem_singleton.mp hother)
      exact (horigins.ready other hready).extends hextends

/-- The broker takes the messages of a program back. -/
theorem Origins.requeue (horigins : Origins initialRows moment) (thread : ℕ) :
    Origins initialRows (moment.put (requeue thread moment.world)) := by
  refine ⟨fun held hheld => ?_, fun body hbody => ?_, horigins.writes, horigins.rows⟩
  · exact horigins.held held (List.mem_of_mem_filter hheld)
  · rcases List.mem_append.mp hbody with hbody | hbody
    · exact horigins.ready body hbody
    · obtain ⟨held, hheld, rfl⟩ := List.mem_map.mp hbody
      have hstart := horigins.held held (List.mem_of_mem_filter hheld)
      exact horigins.writes held.2 (List.mem_of_getElem? hstart)

/-- A chunk of fetched orders is published. -/
theorem Origins.publish (horigins : Origins initialRows moment) {thread : ℕ} {body : Value}
    {answer : Except MarketError Unit} {world : World}
    (hcarries : CarriesFetched (moment.answer thread ⟨.publish .results body, answer⟩ world) body)
    (hworld : world = moment.world.setQueue .results (moment.world.results.publish body)) :
    Origins initialRows (moment.answer thread ⟨.publish .results body, answer⟩ world) := by
  subst hworld
  have hextends := Moment.extends_answer moment thread ⟨.publish .results body, answer⟩
    (moment.world.setQueue .results (moment.world.results.publish body))
  refine ⟨fun held hheld => horigins.held held hheld, fun other hother => ?_,
    fun other hother => (horigins.writes other hother).extends hextends,
    fun row hrow => (horigins.rows row hrow).imp_right (·.extends hextends)⟩
  -- the new body carries what has been fetched
  rcases List.mem_append.mp hother with hother | hother
  · exact (horigins.ready other hother).extends hextends
  · exact List.mem_singleton.mp hother ▸ hcarries

/-- A write worker acknowledges its chunk. -/
theorem Origins.ack (horigins : Origins initialRows moment) {thread : ℕ}
    {answer : Except MarketError Unit} {world : World}
    (hworld : world = moment.world.setQueue .results (moment.world.results.ack thread)) :
    Origins initialRows (moment.answer thread ⟨.ack .results, answer⟩ world) := by
  subst hworld
  have hextends := Moment.extends_answer moment thread ⟨.ack .results, answer⟩
    (moment.world.setQueue .results (moment.world.results.ack thread))
  exact ⟨fun held hheld => horigins.held held (List.mem_of_mem_filter hheld),
    fun other hother => (horigins.ready other hother).extends hextends,
    fun other hother => (horigins.writes other hother).extends hextends,
    fun row hrow => (horigins.rows row hrow).imp_right (·.extends hextends)⟩

/-- A row was there, or it is one of the documents that are inserted. -/
theorem Origins.mem_insertMany (horigins : Origins initialRows moment)
    {uniqueIndexes : List (List String)} {documents : List Document} {attempts : List Attempt}
    (hdocuments : ∀ document ∈ documents, HoldsFetched moment document) {row : Document}
    (hrow : row ∈ (insertMany uniqueIndexes moment.world.rows (documents.zip attempts)).1) :
    row ∈ initialRows ∨ HoldsFetched moment row := by
  rcases Market.mem_insertMany hrow with hold | hnew
  · exact horigins.rows row hold
  · obtain ⟨⟨document, attempt⟩, hitem, rfl⟩ := List.mem_map.mp hnew
    exact Or.inr (hdocuments document (List.of_mem_zip hitem).1)

/-- A write worker inserts fetched orders. -/
theorem Origins.insert (horigins : Origins initialRows moment) {thread : ℕ}
    {documents : List Document} {attempts : List Attempt} {answer : Except MarketError Unit}
    {world : World} (hdocuments : ∀ document ∈ documents, HoldsFetched moment document)
    (hworld : world = { moment.world with
      rows := (insertMany moment.world.uniqueIndexes moment.world.rows
        (documents.zip attempts)).1 }) :
    Origins initialRows (moment.answer thread ⟨.insertMany documents, answer⟩ world) := by
  subst hworld
  have hextends := Moment.extends_answer moment thread ⟨.insertMany documents, answer⟩
    { moment.world with
      rows := (insertMany moment.world.uniqueIndexes moment.world.rows
        (documents.zip attempts)).1 }
  exact ⟨horigins.held, fun body hbody => (horigins.ready body hbody).extends hextends,
    fun other hother => (horigins.writes other hother).extends hextends,
    fun row hrow => (horigins.mem_insertMany hdocuments hrow).imp_right (·.extends hextends)⟩

/-! ## What workers send and insert -/

theorem mem_of_mem_chunksOf {size : ℕ} {orders chunk : List MarketOrderEntry}
    (hchunk : chunk ∈ chunksOf size orders) {entry : MarketOrderEntry} (hentry : entry ∈ chunk) :
    entry ∈ orders := by
  obtain ⟨index, _, rfl⟩ := List.mem_map.mp hchunk
  exact List.mem_of_mem_drop (List.mem_of_mem_take hentry)

/-- A chunk that a fetch worker has sent carries orders that it has fetched. -/
theorem carriesFetched_of_sent {thread : ℕ} {body : Value} {job : ScrapeJobMessage}
    (hfetches : Fetches moment thread job)
    (hlog : FetchLog chunkSize job (moment.logOf thread))
    (hbody : body ∈ sentChunks (moment.logOf thread)) : CarriesFetched moment body := by
  obtain ⟨chunk, hchunk, rfl⟩ := List.mem_map.mp (hlog.sent.subset hbody)
  refine ⟨job, chunk, rfl, fun entry hentry => ⟨thread, hfetches, ?_⟩⟩
  obtain ⟨page, hpage, hmem⟩ := List.mem_flatMap.mp (mem_of_mem_chunksOf hchunk hentry)
  exact ⟨page, hpage, hlog.regionId_of_mem hpage, hmem⟩

/-- The rows of a chunk of fetched orders hold fetched orders. -/
theorem holdsFetched_of_chunkRows {body : Value} {message : OrdersChunkMessage}
    (hcarries : CarriesFetched moment body) (hdecode : decodeOrdersChunk body = .ok message)
    {now : ℤ} {document : Document} (hdocument : document ∈ chunkRows message now) :
    HoldsFetched moment document := by
  obtain ⟨job, chunk, rfl, hchunk⟩ := hcarries
  rw [chunkBody, decode_encodeOrdersChunk] at hdecode
  obtain rfl := Except.ok.inj hdecode
  obtain ⟨order, horder, rfl⟩ := List.mem_map.mp hdocument
  obtain ⟨entry, hentry, rfl⟩ := List.mem_map.mp horder
  exact ⟨job, entry, now, rfl, hchunk entry hentry⟩

/-- What a write worker inserts are fetched orders. -/
theorem Origins.holdsFetched_of_insertMany (horigins : Origins initialRows moment) {thread : ℕ}
    {documents : List Document} {answer : Except MarketError Unit} {start : Start}
    (hstart : moment.starts[thread]? = some start)
    (hlog : marketLog chunkSize start (⟨.insertMany documents, answer⟩ :: moment.logOf thread)) :
    ∀ document ∈ documents, HoldsFetched moment document := by
  obtain ⟨body, message, rfl, hdecode, hwrite⟩ :=
    writeLog_of_call hlog (List.mem_cons_self ..) (Or.inl ⟨documents, rfl⟩)
  have hcarries := horigins.writes body (List.mem_of_getElem? hstart)
  intro document hdocument
  rcases hwrite.calls _ (List.mem_cons_self ..) with hop | ⟨now, hop⟩ | hop
  · cases hop
  · obtain rfl := Op.insertMany.inj hop
    exact holdsFetched_of_chunkRows hcarries hdecode hdocument
  · cases hop

/-! ## Steps -/

theorem Origins.call (horigins : Origins initialRows moment) {thread : ℕ} {op : Op}
    {answer : Except MarketError op.Answer} {world : World} {start : Start}
    (hstart : moment.starts[thread]? = some start)
    (hlog : marketLog chunkSize start (⟨op, answer⟩ :: moment.logOf thread))
    (hresponded : Responded thread moment.world op answer world) :
    Origins initialRows (moment.answer thread ⟨op, answer⟩ world) := by
  cases hresponded with
  | published name body answer =>
      cases name with
      | scrapeJobs => exact horigins.other rfl rfl
      | results =>
          -- only a fetch worker publishes results, and its log says what it has sent
          obtain ⟨jobBody, job, rfl, hdecode, hfetch⟩ :=
            fetchLog_of_call hlog (List.mem_cons_self ..) (Or.inl ⟨body, rfl⟩)
          refine horigins.publish ?_ rfl
          rw [← Moment.answer_logOf_self moment] at hfetch
          refine carriesFetched_of_sent ⟨jobBody, hstart, hdecode⟩ hfetch ?_
          rw [Moment.answer_logOf_self, sentChunks_cons]
          exact List.mem_append_right _ (List.mem_singleton_self _)
  | acked name =>
      cases name with
      | scrapeJobs => exact horigins.other rfl rfl
      | results => exact horigins.ack rfl
  | inserted documents attempts answer hlength hfailed hsettled =>
      exact horigins.insert (horigins.holdsFetched_of_insertMany hstart hlog) rfl
  | _ => exact horigins.other rfl rfl

/-- **A step makes nothing up.** -/
theorem Origins.steps {before after : Config signature MarketError PUnit World Start}
    {event : Event Start Choice Tick} (horigins : Origins initialRows before.moment)
    (hlogged : System.Logged (marketLog chunkSize) (fun _ _ _ => True) after)
    (hstep : (market chunkSize).Steps before event after) : Origins initialRows after.moment := by
  cases hstep with
  | start henter =>
      cases entered_of_enter henter with
      | dispatch => exact horigins.frame (Moment.extends_enter ..) rfl rfl (by simp)
      | fetch body hready => exact horigins.frame (Moment.extends_enter ..) rfl rfl (by simp)
      -- only a write worker takes something from the queue of results
      | write body hready => exact horigins.deliver hready
  | @call thread choice op next answer world hthread hrespond =>
      have hmem : (⟨op, answer⟩ : MarketCall) ∈
          (before.moment.answer thread ⟨op, answer⟩ world).logOf thread := by simp
      obtain ⟨start, hstart, hlog⟩ := hlogged.start_of_mem hmem
      rw [Moment.answer_logOf_self] at hlog
      exact horigins.call hstart hlog (responded_of_respond hrespond)
  | @crash thread program hthread =>
      exact (horigins.requeue thread).frame (Moment.extends_crash _ thread _) rfl rfl
        fun _ => id
  | @tick tick world htick =>
      cases tick with
      | redeliver thread =>
          obtain rfl := Option.some_inj.mp htick
          exact horigins.requeue thread

/-- **A run makes nothing up.** -/
theorem Origins.reaches {policy : Policy signature MarketError World Start Choice Tick}
    {uniqueIndexes : List (List String)}
    {config : Config signature MarketError PUnit World Start}
    (hreaches : (market chunkSize).Reaches policy
      (Config.initial _ _ _ _ (World.idle initialRows uniqueIndexes)) config) :
    System.Logged (marketLog chunkSize) (fun _ _ _ => True) config ∧
      Origins initialRows config.moment := by
  refine hreaches.invariant
    (motive := fun config => System.Logged (marketLog chunkSize) (fun _ _ _ => True) config ∧
      Origins initialRows config.moment)
    ⟨.initial, .initial⟩ ?_
  intro before event after ⟨hlogged, horigins⟩ _ hstep
  have hlogged' := hstep.logged (marketLog_body chunkSize) hlogged
  exact ⟨hlogged', horigins.steps hlogged' hstep⟩

end Steps

end EveBuild.Market
