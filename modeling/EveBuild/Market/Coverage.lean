import EveBuild.Market.Delivery

/-!
# A dispatch is carried out

A job that a dispatch has published is in the queue of jobs, with a fetch worker, or finished:
a worker has acknowledged it.  A worker has its job until it acknowledges it, which it does only
once it has every page of the region and has published all chunks.  `Dispatching` is this as an
invariant, together with where jobs come from: each has been sent by a dispatch.

So once the queues are drained, every region of a dispatch that has come to its end is in
`market_orders` (`dispatch_covers`), and whatever is there has been listed by ESI on a page of a
region of a dispatch (`rows_traced`).
-/

namespace EveBuild.Market

open Effect

/-! ## The log of a dispatch -/

/-- The log has the run and the regions of the job. -/
def Dispatches (log : List MarketCall) (job : ScrapeJobMessage) : Prop :=
  ⟨.uuid4, .ok job.scrapeRunId⟩ ∈ log ∧
    ∃ regionIds, ⟨.regionIds, .ok regionIds⟩ ∈ log ∧ job.regionId ∈ regionIds

/-- Every job that is sent is one of the run, for one of the regions. -/
def DispatchLog (log : List MarketCall) : Prop :=
  ∀ body answer, ⟨.publish .scrapeJobs body, answer⟩ ∈ log →
    ∃ job, body = encodeScrapeJob job ∧ Dispatches log job

/-- The dispatch has published a job of its run for each of its regions. -/
def DispatchDone (log : List MarketCall) : Prop :=
  ∃ scrapeRunId regionIds, ⟨.uuid4, .ok scrapeRunId⟩ ∈ log ∧ ⟨.regionIds, .ok regionIds⟩ ∈ log ∧
    ∀ regionId ∈ regionIds,
      ⟨.publish .scrapeJobs (encodeScrapeJob { regionId, scrapeRunId }), .ok ()⟩ ∈ log

theorem Dispatches.cons {log : List MarketCall} {job : ScrapeJobMessage}
    (hdispatches : Dispatches log job) (call : MarketCall) : Dispatches (call :: log) job := by
  obtain ⟨huuid, regionIds, hregionIds, hregion⟩ := hdispatches
  exact ⟨List.mem_cons_of_mem _ huuid, regionIds, List.mem_cons_of_mem _ hregionIds, hregion⟩

/-- A call that sends no job, or one of the run and the regions. -/
theorem DispatchLog.cons {log : List MarketCall} (hlog : DispatchLog log) {call : MarketCall}
    (hcall : ∀ body, call.op = .publish .scrapeJobs body →
      ∃ job, body = encodeScrapeJob job ∧ Dispatches log job) : DispatchLog (call :: log) := by
  intro body answer hmem
  rcases List.mem_cons.mp hmem with heq | hmem
  · obtain ⟨job, hbody, hdispatches⟩ := hcall body (congrArg Call.op heq).symm
    exact ⟨job, hbody, hdispatches.cons call⟩
  · obtain ⟨job, hbody, hdispatches⟩ := hlog body answer hmem
    exact ⟨job, hbody, hdispatches.cons call⟩

/-- The loop over the regions, of which the first ones have been published. -/
theorem records_publishJobs {scrapeRunId : String} {regionIds : List ℤ} :
    ∀ (remaining published : List ℤ) (log : List MarketCall), regionIds = published ++ remaining →
      DispatchLog log → ⟨.uuid4, .ok scrapeRunId⟩ ∈ log → ⟨.regionIds, .ok regionIds⟩ ∈ log →
      (∀ regionId ∈ published,
        ⟨.publish .scrapeJobs (encodeScrapeJob { regionId, scrapeRunId }), .ok ()⟩ ∈ log) →
      (publishJobs scrapeRunId remaining).Records DispatchLog
        (fun outcome later => outcome = .ok ⟨⟩ → DispatchDone later) log := by
  intro remaining
  induction remaining with
  | nil =>
      intro published log hsplit hlog huuid hregionIds hpublished _
      rw [List.append_nil] at hsplit
      exact ⟨scrapeRunId, regionIds, huuid, hregionIds, hsplit ▸ hpublished⟩
  | cons regionId remaining ih =>
      intro published log hsplit hlog huuid hregionIds hpublished answer
      have hregion : regionId ∈ regionIds := hsplit ▸ by simp
      refine ⟨hlog.cons fun body hbody => ?_, ?_⟩
      · obtain ⟨-, rfl⟩ := Op.publish.inj hbody
        exact ⟨_, rfl, huuid, regionIds, hregionIds, hregion⟩
      cases answer with
      | error error =>
          intro houtcome
          cases houtcome
      | ok value =>
          refine ih (published ++ [regionId]) _ (by simp [hsplit]) (hlog.cons fun body hbody => ?_)
            (List.mem_cons_of_mem _ huuid) (List.mem_cons_of_mem _ hregionIds) ?_
          · obtain ⟨-, rfl⟩ := Op.publish.inj hbody
            exact ⟨_, rfl, huuid, regionIds, hregionIds, hregion⟩
          · intro other hother
            rcases List.mem_append.mp hother with hother | hother
            · exact List.mem_cons_of_mem _ (hpublished other hother)
            · obtain rfl := List.mem_singleton.mp hother
              exact List.mem_cons_self ..

/-- **The log of a dispatch.** -/
theorem records_dispatchScrape :
    dispatchScrape.Records DispatchLog
      (fun outcome later =>
        (∃ scrapeRunId, outcome = .ok scrapeRunId) → DispatchDone later) [] := by
  intro uuid
  have hfirst : DispatchLog [⟨.uuid4, uuid⟩] := by simp [DispatchLog]
  refine ⟨hfirst, ?_⟩
  cases uuid with
  | error error =>
      rintro ⟨_, houtcome⟩
      cases houtcome
  | ok scrapeRunId =>
      intro regions
      have hsecond : DispatchLog [⟨.regionIds, regions⟩, ⟨.uuid4, .ok scrapeRunId⟩] := by
        simp [DispatchLog]
      refine ⟨hsecond, ?_⟩
      cases regions with
      | error error =>
          rintro ⟨_, houtcome⟩
          cases houtcome
      | ok regionIds =>
          refine (records_publishJobs regionIds [] _ rfl hsecond (by simp) (by simp)
            (by simp)).bind ?_ ?_
          · intro value log hdone _
            exact hdone rfl
          · rintro error log _ ⟨_, houtcome⟩
            cases houtcome

/-- What the log of a program says of the jobs that it sends. -/
def jobLog : Start → List MarketCall → Prop
  | .dispatch, log => DispatchLog log
  | _, log => ∀ body answer, ⟨.publish .scrapeJobs body, answer⟩ ∉ log

/-- Workers send no jobs. -/
theorem jobLog_of_marketLog {chunkSize : ℕ} {start : Start} (hstart : start ≠ .dispatch)
    {log : List MarketCall} (hlog : marketLog chunkSize start log) : jobLog start log := by
  cases start with
  | dispatch => exact absurd rfl hstart
  | fetch body =>
      intro job answer hcall
      cases hdecode : decodeScrapeJob body with
      | ok message =>
          simp only [marketLog, hdecode] at hlog
          exact hlog.calls _ hcall
      | error error =>
          simp only [marketLog, hdecode] at hlog
          rw [hlog] at hcall
          cases hcall
  | write body =>
      intro job answer hcall
      cases hdecode : decodeOrdersChunk body with
      | ok message =>
          simp only [marketLog, hdecode] at hlog
          rcases hlog.calls _ hcall with hop | ⟨now, hop⟩ | hop <;> cases hop
      | error error =>
          simp only [marketLog, hdecode] at hlog
          rw [hlog] at hcall
          cases hcall

theorem jobLog_body (chunkSize : ℕ) (start : Start) :
    jobLog start [] ∧ ((market chunkSize).body start).Records (jobLog start)
      (fun outcome later => start = .dispatch → (∃ value, outcome = .ok value) →
        DispatchDone later) [] := by
  by_cases hstart : start = .dispatch
  · subst hstart
    refine ⟨by simp [jobLog, DispatchLog], ?_⟩
    refine records_dispatchScrape.bind ?_ ?_
    · intro scrapeRunId log hdone _ _
      exact hdone ⟨scrapeRunId, rfl⟩
    · rintro error log _ _ ⟨_, houtcome⟩
      cases houtcome
  · obtain ⟨hempty, hrecords⟩ := marketLog_body chunkSize start
    exact ⟨jobLog_of_marketLog hstart hempty,
      (hrecords.weaken fun log => jobLog_of_marketLog hstart).mono
        fun _ _ _ heq => absurd heq hstart⟩

/-! ## Jobs on their way -/

/-- A program has sent the message as a job. -/
def Sent (moment : MarketMoment) (body : Value) : Prop :=
  ∃ thread answer, ⟨.publish .scrapeJobs body, answer⟩ ∈ moment.logOf thread

/-- A fetch worker has acknowledged the job. -/
def Finished (moment : MarketMoment) (job : ScrapeJobMessage) : Prop :=
  ∃ worker, Fetches moment worker job ∧ Acked .scrapeJobs (moment.logOf worker)

/-- The job is in the queue, with a fetch worker, or finished. -/
def Pending (moment : MarketMoment) (job : ScrapeJobMessage) : Prop :=
  encodeScrapeJob job ∈ moment.world.scrapeJobs.ready ∨
    (∃ holder, (holder, encodeScrapeJob job) ∈ moment.world.scrapeJobs.unacked) ∨
    Finished moment job

/-- Jobs come from programs that have sent them, and a published job is on its way or
finished. -/
structure Dispatching (moment : MarketMoment) : Prop where
  held : ∀ held ∈ moment.world.scrapeJobs.unacked, moment.starts[held.1]? = some (.fetch held.2)
  ready : ∀ body ∈ moment.world.scrapeJobs.ready, Sent moment body
  fetches : ∀ body, .fetch body ∈ moment.starts → Sent moment body
  published : ∀ thread job,
    ⟨.publish .scrapeJobs (encodeScrapeJob job), .ok ()⟩ ∈ moment.logOf thread → Pending moment job

theorem Sent.extends {earlier later : MarketMoment} (hextends : earlier.Extends later)
    {body : Value} (hsent : Sent earlier body) : Sent later body := by
  obtain ⟨thread, answer, hcall⟩ := hsent
  exact ⟨thread, answer, (hextends.logOf thread).mem hcall⟩

theorem Finished.extends {earlier later : MarketMoment} (hextends : earlier.Extends later)
    {job : ScrapeJobMessage} (hfinished : Finished earlier job) : Finished later job := by
  obtain ⟨worker, ⟨body, hstart, hdecode⟩, hacked⟩ := hfinished
  exact ⟨worker, ⟨body, hextends.getElem?_starts hstart, hdecode⟩,
    (hextends.logOf worker).mem hacked⟩

section Steps

variable {chunkSize : ℕ} {moment later : MarketMoment}

theorem Dispatching.initial {initialRows : List Document} {uniqueIndexes : List (List String)} :
    Dispatching (Config.initial signature MarketError PUnit Start
      (World.idle initialRows uniqueIndexes)).moment where
  held := by simp [Config.initial, World.idle, BrokerQueue.empty]
  ready := by simp [Config.initial, World.idle, BrokerQueue.empty]
  fetches := by simp [Config.initial]
  published := by simp [Config.initial, Moment.logOf]

/-- Where the queue of jobs stays and no job comes to the history, nothing changes. -/
theorem Dispatching.frame (hdispatching : Dispatching moment) (hextends : moment.Extends later)
    (hjobs : later.world.scrapeJobs = moment.world.scrapeJobs)
    (hfetches : ∀ body, .fetch body ∈ later.starts → .fetch body ∈ moment.starts)
    (hpublished : ∀ thread body, ⟨.publish .scrapeJobs body, .ok ()⟩ ∈ later.logOf thread →
      ⟨.publish .scrapeJobs body, .ok ()⟩ ∈ moment.logOf thread) : Dispatching later where
  held := by
    rw [hjobs]
    exact fun held hheld => hextends.getElem?_starts (hdispatching.held held hheld)
  ready := by
    rw [hjobs]
    exact fun body hbody => (hdispatching.ready body hbody).extends hextends
  fetches := fun body hbody => (hdispatching.fetches body (hfetches body hbody)).extends hextends
  published := by
    intro thread job hcall
    rw [Pending, hjobs]
    exact (hdispatching.published thread job (hpublished _ _ hcall)).imp_right
      (Or.imp_right (·.extends hextends))

/-- A fetch worker gets a job. -/
theorem Dispatching.deliver (hdispatching : Dispatching moment) {body : Value}
    (hready : body ∈ moment.world.scrapeJobs.ready) :
    Dispatching (moment.enter (.fetch body) { moment.world with
      scrapeJobs := moment.world.scrapeJobs.deliver moment.starts.length body }) := by
  have hextends := Moment.extends_enter moment (.fetch body) { moment.world with
      scrapeJobs := moment.world.scrapeJobs.deliver moment.starts.length body }
  refine ⟨fun held hheld => ?_, fun other hother => ?_, fun other hother => ?_,
    fun thread job hcall => ?_⟩
  · rcases List.mem_cons.mp hheld with rfl | hheld
    · exact List.getElem?_concat_length
    · exact hextends.getElem?_starts (hdispatching.held held hheld)
  · exact (hdispatching.ready other (List.mem_of_mem_erase hother)).extends hextends
  · rcases List.mem_append.mp hother with hother | hother
    · exact (hdispatching.fetches other hother).extends hextends
    · obtain rfl := Start.fetch.inj (List.mem_singleton.mp hother)
      exact (hdispatching.ready other hready).extends hextends
  · -- the job that is delivered goes from the queue to the worker, the others stay
    rcases hdispatching.published thread job hcall with hmem | ⟨holder, hholder⟩ | hfinished
    · by_cases heq : encodeScrapeJob job = body
      · exact .inr (.inl ⟨moment.starts.length, heq ▸ List.mem_cons_self ..⟩)
      · exact .inl ((List.mem_erase_of_ne heq).mpr hmem)
    · exact .inr (.inl ⟨holder, List.mem_cons_of_mem _ hholder⟩)
    · exact .inr (.inr (hfinished.extends hextends))

/-- The broker takes the messages of a program back. -/
theorem Dispatching.requeue (hdispatching : Dispatching moment) (thread : ℕ) :
    Dispatching (moment.put (requeue thread moment.world)) := by
  refine ⟨fun held hheld => ?_, fun body hbody => ?_, hdispatching.fetches,
    fun other job hcall => ?_⟩
  · exact hdispatching.held held (List.mem_of_mem_filter hheld)
  · rcases List.mem_append.mp hbody with hbody | hbody
    · exact hdispatching.ready body hbody
    · obtain ⟨held, hheld, rfl⟩ := List.mem_map.mp hbody
      have hstart := hdispatching.held held (List.mem_of_mem_filter hheld)
      exact hdispatching.fetches held.2 (List.mem_of_getElem? hstart)
  · rcases hdispatching.published other job hcall with hmem | ⟨holder, hholder⟩ | hfinished
    · exact .inl (List.mem_append_left _ hmem)
    · by_cases heq : holder = thread
      · refine .inl (List.mem_append_right _ ?_)
        exact List.mem_map.mpr
          ⟨(holder, _), List.mem_filter.mpr ⟨hholder, by simpa using heq⟩, rfl⟩
      · exact .inr (.inl ⟨holder, List.mem_filter.mpr ⟨hholder, by simpa using heq⟩⟩)
    · exact .inr (.inr hfinished)

/-- A job is published. -/
theorem Dispatching.publish (hdispatching : Dispatching moment) {thread : ℕ} {body : Value}
    {answer : Except MarketError Unit} {world : World}
    (hworld : world = moment.world.setQueue .scrapeJobs (moment.world.scrapeJobs.publish body)) :
    Dispatching (moment.answer thread ⟨.publish .scrapeJobs body, answer⟩ world) := by
  subst hworld
  have hextends := Moment.extends_answer moment thread ⟨.publish .scrapeJobs body, answer⟩
    (moment.world.setQueue .scrapeJobs (moment.world.scrapeJobs.publish body))
  refine ⟨fun held hheld => hdispatching.held held hheld, fun other hother => ?_,
    fun other hother => (hdispatching.fetches other hother).extends hextends,
    fun other job hcall => ?_⟩
  · rcases List.mem_append.mp hother with hother | hother
    · exact (hdispatching.ready other hother).extends hextends
    · obtain rfl := List.mem_singleton.mp hother
      exact ⟨thread, answer, by simp⟩
  · rcases Moment.mem_answer_logOf hcall with hcall | ⟨-, hcall⟩
    · rcases hdispatching.published other job hcall with hmem | hholder | hfinished
      · exact .inl (List.mem_append_left _ hmem)
      · exact .inr (.inl hholder)
      · exact .inr (.inr (hfinished.extends hextends))
    · -- the job has been published now, and is ready
      obtain ⟨-, rfl⟩ := Op.publish.inj (congrArg Call.op hcall)
      exact .inl (List.mem_append_right _ (List.mem_singleton_self _))

/-- A fetch worker acknowledges its job. -/
theorem Dispatching.ack (hdispatching : Dispatching moment) {thread : ℕ} {world : World}
    (hworld : world = moment.world.setQueue .scrapeJobs (moment.world.scrapeJobs.ack thread)) :
    Dispatching (moment.answer thread ⟨.ack .scrapeJobs, .ok ()⟩ world) := by
  subst hworld
  have hextends := Moment.extends_answer moment thread ⟨.ack .scrapeJobs, .ok ()⟩
    (moment.world.setQueue .scrapeJobs (moment.world.scrapeJobs.ack thread))
  refine ⟨fun held hheld => hdispatching.held held (List.mem_of_mem_filter hheld),
    fun other hother => (hdispatching.ready other hother).extends hextends,
    fun other hother => (hdispatching.fetches other hother).extends hextends,
    fun other job hcall => ?_⟩
  have hold := Moment.mem_logOf_of_ne hcall fun heq => by cases congrArg Call.op heq
  rcases hdispatching.published other job hold with hmem | ⟨holder, hholder⟩ | hfinished
  · exact .inl hmem
  · by_cases heq : holder = thread
    · -- the worker is the one that has the job
      have hstart := hdispatching.held _ hholder
      refine .inr (.inr ⟨thread, ⟨_, heq ▸ hstart, decode_encodeScrapeJob job⟩, ?_⟩)
      rw [Moment.answer_logOf_self]
      exact List.mem_cons_self ..
    · exact .inr (.inl ⟨holder, List.mem_filter.mpr ⟨hholder, by simpa using heq⟩⟩)
  · exact .inr (.inr (hfinished.extends hextends))

/-- A call that leaves the queue of jobs alone. -/
theorem Dispatching.other (hdispatching : Dispatching moment) {thread : ℕ} {call : MarketCall}
    {world : World} (hjobs : world.scrapeJobs = moment.world.scrapeJobs)
    (hpublish : ∀ body, call ≠ ⟨.publish .scrapeJobs body, .ok ()⟩) :
    Dispatching (moment.answer thread call world) :=
  hdispatching.frame (Moment.extends_answer ..) hjobs (fun _ => id) fun _ body hcall =>
    Moment.mem_logOf_of_ne hcall fun heq => hpublish body heq.symm

theorem Dispatching.call (hdispatching : Dispatching moment) {thread : ℕ} {op : Op}
    {answer : Except MarketError op.Answer} {world : World}
    (hresponded : Responded thread moment.world op answer world) :
    Dispatching (moment.answer thread ⟨op, answer⟩ world) := by
  cases hresponded with
  | published name body answer =>
      cases name with
      | scrapeJobs => exact hdispatching.publish rfl
      | results => exact hdispatching.other rfl (by simp)
  | acked name =>
      cases name with
      | scrapeJobs => exact hdispatching.ack rfl
      | results => exact hdispatching.other rfl (by simp)
  | _ => exact hdispatching.other rfl (by simp)

/-- **A step drops no job.** -/
theorem Dispatching.steps {before after : Config signature MarketError PUnit World Start}
    {event : Event Start Choice Tick} (hdispatching : Dispatching before.moment)
    (hstep : (market chunkSize).Steps before event after) : Dispatching after.moment := by
  cases hstep with
  | start henter =>
      cases entered_of_enter henter with
      | dispatch =>
          exact hdispatching.frame (Moment.extends_enter ..) rfl (by simp) fun _ _ => id
      | fetch body hready => exact hdispatching.deliver hready
      | write body hready =>
          exact hdispatching.frame (Moment.extends_enter ..) rfl (by simp) fun _ _ => id
  | call hthread hrespond => exact hdispatching.call (responded_of_respond hrespond)
  | @crash thread program hthread =>
      exact (hdispatching.requeue thread).frame (Moment.extends_crash _ thread _) rfl
        (fun _ => id) fun _ _ => id
  | @tick tick world htick =>
      cases tick with
      | redeliver thread =>
          obtain rfl := Option.some_inj.mp htick
          exact hdispatching.requeue thread

/-- **A run drops no job.** -/
theorem Dispatching.reaches {policy : Policy signature MarketError World Start Choice Tick}
    {initialRows : List Document} {uniqueIndexes : List (List String)}
    {config : Config signature MarketError PUnit World Start}
    (hreaches : (market chunkSize).Reaches policy
      (Config.initial _ _ _ _ (World.idle initialRows uniqueIndexes)) config) :
    Dispatching config.moment :=
  hreaches.invariant (motive := fun config => Dispatching config.moment) .initial
    fun _ _ _ hbefore _ hstep => hbefore.steps hstep

end Steps

theorem jobLogged {chunkSize : ℕ} {policy : Policy signature MarketError World Start Choice Tick}
    {world : World} {config : Config signature MarketError PUnit World Start}
    (hreaches : (market chunkSize).Reaches policy (Config.initial _ _ _ _ world) config) :
    System.Logged jobLog (fun start outcome later => start = .dispatch →
      (∃ value, outcome = .ok value) → DispatchDone later) config :=
  hreaches.logged (jobLog_body chunkSize) .initial

/-! ## From a dispatch to the rows -/

/-- A worker has fetched all pages of the region for the run, and every order on them has a row
with its id, the run and, unless the row was there before, the region. -/
structure Covered (initialRows : List Document) (moment : MarketMoment) (worker : ℕ)
    (job : ScrapeJobMessage) : Prop where
  fetches : Fetches moment worker job
  pages : AllPages (answers (moment.logOf worker))
  regions : ∀ page ∈ answers (moment.logOf worker), page.regionId = job.regionId
  rows : ∀ entry ∈ fetchedOrders (moment.logOf worker), ∃ row ∈ moment.world.rows,
    row.field "order_id" = .int entry.orderId ∧
    row.field "scrape_run_id" = .string job.scrapeRunId ∧
    (row ∈ initialRows ∨ row.field "region_id" = .int job.regionId)

/-- A job that is finished when no chunk is on its way. -/
theorem covered_of_acked {chunkSize : ℕ} (hsize : 1 ≤ chunkSize)
    {uniqueIndexes : List (List String)} {initialRows : List Document}
    {config : Config signature MarketError PUnit World Start}
    (hlogged : System.Logged (marketLog chunkSize) (fun _ _ _ => True) config)
    (hdelivery : Delivery uniqueIndexes initialRows config.moment)
    (hresults : config.moment.world.results = .empty) {worker : ℕ} {job : ScrapeJobMessage}
    (hfetches : Fetches config.moment worker job)
    (hacked : Acked .scrapeJobs (config.moment.logOf worker)) :
    Covered initialRows config.moment worker job := by
  obtain ⟨body, hstart, hdecode⟩ := hfetches
  have hlog := hlogged.logs worker _ hstart
  simp only [marketLog, hdecode] at hlog
  refine ⟨⟨body, hstart, hdecode⟩, hlog.pages (.inr hacked),
    fun page hpage => hlog.regionId_of_mem hpage, fun entry hentry => ?_⟩
  rw [← flatten_chunksOf hsize (fetchedOrders _)] at hentry
  obtain ⟨chunk, hchunk, hmem⟩ := List.mem_flatten.mp hentry
  -- the chunk of the order has been published, and it is neither in the queue nor with a worker
  have hbody : chunkBody job chunk ∈ publishedChunks (config.moment.logOf worker) :=
    hlog.acked hacked ▸ List.mem_map_of_mem hchunk
  rcases hdelivery.published worker _ (mem_of_mem_publishedChunks hbody) with
    hready | ⟨holder, hheld⟩ | ⟨now, hstored⟩
  · rw [hresults] at hready
    cases hready
  · rw [hresults] at hheld
    cases hheld
  · obtain ⟨row, hrow, horder, hrun, hregion⟩ := hstored
      (orderRow job.regionId job.scrapeRunId now entry.asdict)
      (List.mem_map_of_mem (List.mem_map_of_mem hmem))
    rw [field_orderRow_orderId, field_asdict_orderId] at horder
    rw [field_orderRow_scrapeRunId] at hrun
    rw [field_orderRow_regionId] at hregion
    exact ⟨row, hrow, horder, hrun, hregion⟩

/-- **A dispatch is carried out.**  In every run, with any crashes, redeliveries and failing
calls, once the queues are drained, every region that a dispatch has found is covered, if the
dispatch has come to its end. -/
theorem dispatch_covers {chunkSize : ℕ} (hsize : 1 ≤ chunkSize)
    {uniqueIndexes : List (List String)} (hindexes : IndexesIdentifyOrders uniqueIndexes)
    {initialRows : List Document} {config : Config signature MarketError PUnit World Start}
    (hreaches : (market chunkSize).Reaches (oneRegion uniqueIndexes)
      (Config.initial _ _ _ _ (World.idle initialRows uniqueIndexes)) config)
    (hdrained : config.moment.world.Drained) {thread : ℕ}
    (hstart : config.moment.starts[thread]? = some .dispatch)
    (hended : config.threads thread = some (.ret ⟨⟩)) :
    ∃ scrapeRunId regionIds, ⟨.uuid4, .ok scrapeRunId⟩ ∈ config.moment.logOf thread ∧
      ⟨.regionIds, .ok regionIds⟩ ∈ config.moment.logOf thread ∧
      ∀ regionId ∈ regionIds, ∃ worker,
        Covered initialRows config.moment worker { regionId, scrapeRunId } := by
  obtain ⟨hlogged, -⟩ := Origins.reaches hreaches
  have hdelivery := Delivery.reaches hindexes hreaches
  obtain ⟨scrapeRunId, regionIds, huuid, hregionIds, hpublished⟩ :=
    (jobLogged hreaches).outcome hstart hended rfl rfl ⟨_, rfl⟩
  refine ⟨scrapeRunId, regionIds, huuid, hregionIds, fun regionId hregion => ?_⟩
  rcases (Dispatching.reaches hreaches).published thread _ (hpublished regionId hregion) with
    hready | ⟨holder, hheld⟩ | ⟨worker, hfetches, hacked⟩
  · rw [hdrained.1] at hready
    cases hready
  · rw [hdrained.1] at hheld
    cases hheld
  · exact ⟨worker, covered_of_acked hsize hlogged hdelivery hdrained.2 hfetches hacked⟩

/-- The dispatch of the run of one order is carried out. -/
theorem dispatch_covers_sample :
    ∃ scrapeRunId regionIds, ⟨.uuid4, .ok scrapeRunId⟩ ∈ sampleEnd.moment.logOf 0 ∧
      ⟨.regionIds, .ok regionIds⟩ ∈ sampleEnd.moment.logOf 0 ∧
      ∀ regionId ∈ regionIds, ∃ worker,
        Covered [] sampleEnd.moment worker { regionId, scrapeRunId } := by
  have hreaches : (market 1000).Reaches (oneRegion []) sampleStart sampleEnd :=
    System.reaches_of_run (Option.some_get isSome_run_sample).symm fun event _ config =>
      meets_oneRegion (by simp [IndexesHaveRegion]) config event
  exact dispatch_covers (by omega) (by simp [IndexesIdentifyOrders]) hreaches ⟨rfl, rfl⟩ rfl rfl

/-- **Nothing is made up.**  Every row that was not there before has the run and one of the
regions of a dispatch, and the fields of an order that ESI has listed on a page of that region
for a worker with that job. -/
theorem rows_traced {chunkSize : ℕ} {uniqueIndexes : List (List String)}
    {initialRows : List Document} {config : Config signature MarketError PUnit World Start}
    (hreaches : (market chunkSize).Reaches .free
      (Config.initial _ _ _ _ (World.idle initialRows uniqueIndexes)) config) :
    ∀ row ∈ config.moment.world.rows, row ∈ initialRows ∨ ∃ dispatch job entry now,
      config.moment.starts[dispatch]? = some .dispatch ∧
      Dispatches (config.moment.logOf dispatch) job ∧ Fetched config.moment job entry ∧
      row = orderRow job.regionId job.scrapeRunId now entry.asdict := by
  obtain ⟨-, horigins⟩ := Origins.reaches hreaches
  intro row hrow
  refine (horigins.rows row hrow).imp_right ?_
  rintro ⟨job, entry, now, rfl, hfetched⟩
  obtain ⟨worker, ⟨body, hstart, hdecode⟩, -⟩ := id hfetched
  -- the job of the worker has been sent, and only a dispatch sends jobs
  obtain ⟨dispatch, answer, hcall⟩ :=
    (Dispatching.reaches hreaches).fetches body (List.mem_of_getElem? hstart)
  obtain ⟨start, hdispatch, hlog⟩ := (jobLogged hreaches).start_of_mem hcall
  cases start with
  | dispatch =>
      obtain ⟨job', rfl, hdispatches⟩ := hlog body answer hcall
      rw [decode_encodeScrapeJob] at hdecode
      obtain rfl := Except.ok.inj hdecode
      exact ⟨dispatch, job', entry, now, hdispatch, hdispatches, hfetched, rfl⟩
  | fetch other => exact absurd hcall (hlog body answer)
  | write other => exact absurd hcall (hlog body answer)

/-- The row of the run of one order is traced. -/
theorem rows_traced_sample :
    ∃ row ∈ sampleEnd.moment.world.rows, ∃ dispatch job entry now,
      sampleEnd.moment.starts[dispatch]? = some .dispatch ∧
      Dispatches (sampleEnd.moment.logOf dispatch) job ∧ Fetched sampleEnd.moment job entry ∧
      row = orderRow job.regionId job.scrapeRunId now entry.asdict := by
  have hreaches : (market 1000).Reaches .free sampleStart sampleEnd :=
    System.reaches_of_run (Option.some_get isSome_run_sample).symm fun event _ config =>
      Policy.free_meets config event
  have hlength : sampleEnd.moment.world.rows.length = 1 := rfl
  obtain ⟨row, hrow⟩ := List.exists_mem_of_length_pos (hlength ▸ Nat.one_pos)
  have htraced := rows_traced hreaches row hrow
  exact ⟨row, hrow, htraced.resolve_left List.not_mem_nil⟩

end EveBuild.Market
