import EveBuild.Data.Ledger
import EveBuild.Market.Delivery
import EveBuild.Startup.IndexSync
import Mathlib.Algebra.Order.Group.Multiset

/-!
# Rows of the same order

The key of a row is its order and its run.  The shipped indexes do not make it
unique, so what keeps rows apart, if anything, is that no order of a run comes to a
write worker twice.  At any moment an order of a run is with one of: the rows, a
chunk that is ready, a write worker that has not inserted its chunk yet, a fetch
worker that has not published it yet (`holdings`).  The programs only pass orders on.
An order can come a second time from ESI, to the same fetch worker or to another one
that got the job again, and from the broker, which takes a chunk back from a write
worker that has inserted it already.  `unrepeated` is the condition that this does not
happen; then there is no key twice (`rows_distinct`).

With the unique index on the key that the tests create there would be no condition
(`rows_distinct_of_unique`).
-/

namespace EveBuild.Market

open Effect
open IndexSync (prepared)

/-! ## Keys -/

/-- An order and a run. -/
abbrev OrderKey := Value × Value

def rowKey (row : Document) : OrderKey := (row.field "order_id", row.field "scrape_run_id")

/-- No two rows have the same key. -/
def DistinctKeys (rows : List Document) : Prop := (rows.map rowKey).Nodup

instance (rows : List Document) : Decidable (DistinctKeys rows) :=
  inferInstanceAs (Decidable (rows.map rowKey).Nodup)

/-- The keys of rows. -/
def rowKeys (rows : List Document) : Multiset OrderKey := rows.map rowKey

/-- The keys of fetched orders. -/
def orderKeys (scrapeRunId : String) (entries : List MarketOrderEntry) : Multiset OrderKey :=
  entries.map fun entry => (Value.int entry.orderId, Value.string scrapeRunId)

/-- The keys of the rows that a chunk's message makes. -/
def bodyKeys (body : Value) : Multiset OrderKey :=
  match decodeOrdersChunk body with
  | .ok message => rowKeys (chunkRows message 0)
  | .error _ => 0

/-- The keys of several messages. -/
def bodiesKeys (bodies : List Value) : Multiset OrderKey := (bodies.map bodyKeys).sum

@[simp] theorem rowKeys_append (rows new : List Document) :
    rowKeys (rows ++ new) = rowKeys rows + rowKeys new := by
  simp [rowKeys]

@[simp] theorem orderKeys_append (scrapeRunId : String) (entries new : List MarketOrderEntry) :
    orderKeys scrapeRunId (entries ++ new) =
      orderKeys scrapeRunId entries + orderKeys scrapeRunId new := by
  simp [orderKeys]

@[simp] theorem bodiesKeys_append (bodies new : List Value) :
    bodiesKeys (bodies ++ new) = bodiesKeys bodies + bodiesKeys new := by
  simp [bodiesKeys]

@[simp] theorem bodiesKeys_singleton (body : Value) : bodiesKeys [body] = bodyKeys body := by
  simp [bodiesKeys]

theorem bodiesKeys_erase {bodies : List Value} {body : Value} (hbody : body ∈ bodies) :
    bodyKeys body + bodiesKeys (bodies.erase body) = bodiesKeys bodies := by
  have hperm := (List.perm_cons_erase hbody).map bodyKeys
  unfold bodiesKeys
  rw [hperm.sum_eq, List.map_cons, List.sum_cons]

theorem rowKeys_le_of_sublist {rows all : List Document} (hsublist : rows.Sublist all) :
    rowKeys rows ≤ rowKeys all :=
  Multiset.coe_le.mpr (hsublist.map rowKey).subperm

/-- When a chunk is inserted does not matter for its keys. -/
theorem rowKeys_chunkRows (message : OrdersChunkMessage) (now : ℤ) :
    rowKeys (chunkRows message now) = rowKeys (chunkRows message 0) := by
  simp only [rowKeys, chunkRows, List.map_map]
  refine congrArg _ (List.map_congr_left fun order _ => ?_)
  simp [rowKey]

/-- A chunk's message has the keys of its orders. -/
theorem bodyKeys_chunkBody (job : ScrapeJobMessage) (chunk : List MarketOrderEntry) :
    bodyKeys (chunkBody job chunk) = orderKeys job.scrapeRunId chunk := by
  rw [bodyKeys, chunkBody, decode_encodeOrdersChunk]
  simp only [rowKeys, chunkRows, orderKeys, List.map_map]
  refine congrArg _ (List.map_congr_left fun entry _ => ?_)
  simp [rowKey]

/-- A job's chunks have no keys but those of its orders. -/
theorem bodiesKeys_chunkBodies_le (chunkSize : ℕ) (job : ScrapeJobMessage)
    (orders : List MarketOrderEntry) :
    bodiesKeys (chunkBodies chunkSize job orders) ≤ orderKeys job.scrapeRunId orders := by
  have hchunks : ∀ chunks : List (List MarketOrderEntry),
      bodiesKeys (chunks.map (chunkBody job)) = orderKeys job.scrapeRunId chunks.flatten := by
    intro chunks
    induction chunks with
    | nil => rfl
    | cons chunk chunks ih =>
        rw [List.flatten_cons, orderKeys_append, ← ih, ← bodyKeys_chunkBody]
        rfl
  rw [chunkBodies, hchunks, chunksOf, flatten_chunks]
  exact Multiset.coe_le.mpr ((List.take_sublist ..).map _).subperm

/-! ## Where the orders of a run are -/

inductive Owner
  | rows
  | ready
  | worker (thread : ℕ)
deriving DecidableEq

/-- The keys that a worker is still to pass on: a fetch worker, those of the orders that
it has fetched and not sent; a write worker, those of its chunk until it has
attempted the insert. -/
def workerKeys (start : Option Start) (log : List MarketCall) : Multiset OrderKey :=
  match start with
  | some (.fetch body) =>
      match decodeScrapeJob body with
      | .ok job => orderKeys job.scrapeRunId (fetchedOrders log) - bodiesKeys (sentChunks log)
      | .error _ => 0
  | some (.write body) => if log.any isInsert then 0 else bodyKeys body
  | _ => 0

/-- **Where the orders of a run are.** -/
def holdings (moment : MarketMoment) : Owner → Multiset OrderKey
  | .rows => rowKeys moment.world.rows
  | .ready => bodiesKeys moment.world.results.ready
  | .worker thread =>
      if thread ∈ moment.crashed then 0
      else workerKeys moment.starts[thread]? (moment.logOf thread)

/-- A write worker has the chunk and has not acknowledged it. -/
def HoldsChunk (moment : MarketMoment) (thread : ℕ) (body : Value) : Prop :=
  (thread, body) ∈ moment.world.results.unacked

/-- No order of a run comes a second time: ESI lists only orders that are new to the
run, and a chunk that the broker takes back is one that nobody else has and no row is
there of, unless its worker goes down before the insert. -/
def unrepeated : Policy signature MarketError World Start Choice Tick :=
  let free : Policy signature MarketError World Start Choice Tick := .free
  { free with
    call := fun thread op choice moment =>
      match op, choice with
      | .page .., .page (.ok response) =>
          ∀ job, Fetches moment thread job →
            Fresh (holdings moment) (orderKeys job.scrapeRunId response.entries)
      | _, _ => True
    crash := fun thread moment =>
      ∀ body, HoldsChunk moment thread body → (moment.logOf thread).any isInsert →
        Fresh (holdings moment) (bodyKeys body)
    tick := fun
      | .redeliver thread, moment =>
          ∀ body, HoldsChunk moment thread body → Fresh (holdings moment) (bodyKeys body) }

/-- A write worker has one chunk, and the orders of a run are at one place each. -/
structure Unrepeated (moment : MarketMoment) : Prop where
  separate : Separate (holdings moment)
  held : ∀ held ∈ moment.world.results.unacked, moment.starts[held.1]? = some (.write held.2)
  holders : (moment.world.results.unacked.map Prod.fst).Nodup

section Steps

variable {chunkSize : ℕ} {moment : MarketMoment} {thread : ℕ}

@[simp] theorem holdings_rows (moment : MarketMoment) :
    holdings moment .rows = rowKeys moment.world.rows := rfl

@[simp] theorem holdings_ready (moment : MarketMoment) :
    holdings moment .ready = bodiesKeys moment.world.results.ready := rfl

theorem holdings_worker (hthread : thread ∉ moment.crashed) :
    holdings moment (.worker thread) =
      workerKeys moment.starts[thread]? (moment.logOf thread) := if_neg hthread

theorem holdings_answer_self {call : MarketCall} {world : World}
    (hthread : thread ∉ moment.crashed) :
    holdings (moment.answer thread call world) (.worker thread) =
      workerKeys moment.starts[thread]? (call :: moment.logOf thread) := by
  have hlater : thread ∉ (moment.answer thread call world).crashed := hthread
  rw [holdings_worker hlater, Moment.answer_logOf_self, Moment.answer_starts]

theorem workerKeys_fetch {body : Value} {job : ScrapeJobMessage}
    (hdecode : decodeScrapeJob body = .ok job) (log : List MarketCall) :
    workerKeys (some (.fetch body)) log =
      orderKeys job.scrapeRunId (fetchedOrders log) - bodiesKeys (sentChunks log) := by
  simp only [workerKeys, hdecode]

/-- A call that fetches no orders gives a worker nothing. -/
theorem workerKeys_cons_le {start : Option Start} {call : MarketCall} {log : List MarketCall}
    (horders : fetchedOrders (call :: log) = fetchedOrders log) :
    workerKeys start (call :: log) ≤ workerKeys start log := by
  cases start with
  | none => exact le_refl _
  | some start =>
      cases start with
      | dispatch => exact le_refl _
      | fetch body =>
          simp only [workerKeys]
          split
          · rw [horders, sentChunks_cons, bodiesKeys_append]
            exact tsub_le_tsub_left (Multiset.le_add_right _ _) _
          · exact le_refl _
      | write body =>
          simp only [workerKeys, List.any_cons, Bool.or_eq_true]
          split_ifs with hcons hlog hlog
          · exact le_refl _
          · exact Multiset.zero_le _
          · exact absurd (Or.inr hlog) hcons
          · exact le_refl _

/-- The others have what they had, as far as the call leaves rows and chunks alone. -/
theorem holdings_answer_other {call : MarketCall} {world : World} {owner : Owner}
    (howner : owner ≠ .worker thread)
    (hrows : owner = .rows → world.rows = moment.world.rows)
    (hready : owner = .ready → world.results.ready = moment.world.results.ready) :
    holdings (moment.answer thread call world) owner = holdings moment owner := by
  cases owner with
  | rows => exact congrArg rowKeys (hrows rfl)
  | ready => exact congrArg bodiesKeys (hready rfl)
  | worker other =>
      have hother : thread ≠ other := fun heq => howner (congrArg Owner.worker heq.symm)
      simp only [holdings, Moment.answer_crashed, Moment.answer_starts, Moment.answer_logOf,
        if_neg hother]

/-- A call after which the rows and the chunks that are ready are the same, and that
fetches no orders. -/
theorem Unrepeated.other (hunrepeated : Unrepeated moment) {call : MarketCall} {world : World}
    (hready : world.results.ready = moment.world.results.ready)
    (hunacked : world.results.unacked.Sublist moment.world.results.unacked)
    (hrows : world.rows = moment.world.rows)
    (horders : ∀ log, fetchedOrders (call :: log) = fetchedOrders log) :
    Unrepeated (moment.answer thread call world) where
  separate := by
    refine hunrepeated.separate.mono fun owner => ?_
    by_cases howner : owner = .worker thread
    · subst howner
      simp only [holdings, Moment.answer_crashed, Moment.answer_starts, Moment.answer_logOf_self]
      split
      · exact le_refl _
      · exact workerKeys_cons_le (horders _)
    · exact le_of_eq (holdings_answer_other howner (fun _ => hrows) fun _ => hready)
  held := fun held hheld => hunrepeated.held held (hunacked.subset hheld)
  holders := hunrepeated.holders.sublist (hunacked.map Prod.fst)

/-! ## What a step does -/

/-- A page that is not answered has no orders. -/
theorem fetchedOrders_page_error (regionId page : ℤ) (error : MarketError)
    (log : List MarketCall) :
    fetchedOrders (⟨.page regionId page, .error error⟩ :: log) = fetchedOrders log := by
  rw [fetchedOrders_cons]
  cases hfound : pageAnswer? ⟨.page regionId page, .error error⟩ with
  | none => exact List.append_nil _
  | some found =>
      have hnil : found.entries = [] := by
        refine List.eq_nil_iff_forall_not_mem.mpr fun entry hentry => ?_
        obtain ⟨response, hresponse, _⟩ := (pageAnswer?_page hfound).2 entry hentry
        cases hresponse
      rw [Option.toList_some, List.flatMap_singleton, hnil, List.append_nil]

/-- A fetch worker gets a page of orders that are new to the run. -/
theorem Unrepeated.page (hunrepeated : Unrepeated moment) {regionId page : ℤ}
    {response : OrdersPage} {body : Value} {job : ScrapeJobMessage}
    (hstart : moment.starts[thread]? = some (.fetch body))
    (hdecode : decodeScrapeJob body = .ok job)
    (hcrashed : thread ∉ moment.crashed)
    (hfresh : Fresh (holdings moment) (orderKeys job.scrapeRunId response.entries)) :
    Unrepeated (moment.answer thread ⟨.page regionId page, .ok response⟩ moment.world) where
  separate := by
    refine hunrepeated.separate.add hfresh (?_ : holdings _ (.worker thread) ≤ _)
      fun owner howner => ?_
    · rw [holdings_answer_self hcrashed, holdings_worker hcrashed, hstart, workerKeys_fetch hdecode,
        workerKeys_fetch hdecode, fetchedOrders_cons, sentChunks_of_none rfl]
      show orderKeys _ (_ ++ [PageAnswer.mk regionId page response.entries _].flatMap _) - _ ≤ _
      rw [List.flatMap_singleton, orderKeys_append, tsub_le_iff_right, add_right_comm]
      exact add_le_add_left le_tsub_add _
    · exact le_of_eq (holdings_answer_other howner (fun _ => rfl) fun _ => rfl)
  held := hunrepeated.held
  holders := hunrepeated.holders

/-- A fetch worker sends a chunk, and the broker gets it. -/
theorem Unrepeated.publish (hunrepeated : Unrepeated moment) {chunk body : Value}
    {job : ScrapeJobMessage} {answer : Except MarketError Unit}
    (hstart : moment.starts[thread]? = some (.fetch body))
    (hdecode : decodeScrapeJob body = .ok job)
    (hcrashed : thread ∉ moment.crashed)
    (hlog : FetchLog chunkSize job (⟨.publish .results chunk, answer⟩ :: moment.logOf thread)) :
    Unrepeated (moment.answer thread ⟨.publish .results chunk, answer⟩
      (moment.world.setQueue .results (moment.world.results.publish chunk))) where
  separate := by
    -- a worker sends no more than it has fetched, so that it has the chunk to give
    have hsent : bodiesKeys (sentChunks (moment.logOf thread)) + bodyKeys chunk ≤
        orderKeys job.scrapeRunId (fetchedOrders (moment.logOf thread)) := by
      obtain ⟨rest, hrest⟩ := hlog.sent
      have hle := bodiesKeys_chunkBodies_le chunkSize job (fetchedOrders (moment.logOf thread))
      rw [sentChunks_cons, fetchedOrders_of_none rfl] at hrest
      rw [← hrest, bodiesKeys_append, bodiesKeys_append] at hle
      rw [← bodiesKeys_singleton chunk]
      exact le_trans (Multiset.le_add_right _ _) hle
    refine hunrepeated.separate.transfer (nofun : Owner.worker thread ≠ .ready) ?_
      fun owner hgiver htaker => ?_
    · rw [holdings_answer_self hcrashed, holdings_worker hcrashed, hstart, workerKeys_fetch hdecode,
        workerKeys_fetch hdecode, fetchedOrders_of_none rfl, sentChunks_cons, bodiesKeys_append]
      show _ - (_ + bodiesKeys [chunk]) + bodiesKeys (_ ++ [chunk]) ≤ _
      rw [bodiesKeys_append, bodiesKeys_singleton, ← tsub_tsub, holdings_ready,
        add_comm (bodiesKeys _), ← add_assoc,
        Multiset.sub_add_cancel (le_tsub_of_add_le_left hsent)]
    · exact le_of_eq
        (holdings_answer_other hgiver (fun _ => rfl) fun hready => absurd hready htaker)
  held := hunrepeated.held
  holders := hunrepeated.holders

/-- A write worker attempts the insert of its chunk. -/
theorem Unrepeated.insert (hunrepeated : Unrepeated moment) {body : Value}
    {message : OrdersChunkMessage} {now : ℤ} {attempts : List Attempt}
    {answer : Except MarketError Unit}
    (hstart : moment.starts[thread]? = some (.write body))
    (hdecode : decodeOrdersChunk body = .ok message) (hcrashed : thread ∉ moment.crashed)
    (hfirst : (moment.logOf thread).any isInsert = false)
    (hlength : attempts.length = (chunkRows message now).length) :
    Unrepeated (moment.answer thread ⟨.insertMany (chunkRows message now), answer⟩
      { moment.world with
        rows := (insertMany moment.world.uniqueIndexes moment.world.rows
          ((chunkRows message now).zip attempts)).1 }) where
  separate := by
    refine hunrepeated.separate.transfer (nofun : Owner.worker thread ≠ .rows) ?_
      fun owner hgiver htaker => ?_
    · rw [holdings_answer_self hcrashed, holdings_worker hcrashed, hstart]
      -- what is inserted are documents of the chunk, each once
      obtain ⟨inserted, hrows, hsublist⟩ := @insertMany_eq_append moment.world.uniqueIndexes
        ((chunkRows message now).zip attempts) moment.world.rows
      rw [List.map_fst_zip (le_of_eq hlength.symm)] at hsublist
      have hkeys := rowKeys_le_of_sublist hsublist
      rw [rowKeys_chunkRows] at hkeys
      simp only [workerKeys, List.any_cons, hfirst, isInsert, Bool.true_or, if_true, zero_add,
        holdings_rows, Moment.answer_world, hrows, rowKeys_append, bodyKeys, hdecode,
        Bool.false_eq_true, if_false]
      rw [add_comm]
      exact add_le_add_left hkeys _
    · exact le_of_eq
        (holdings_answer_other hgiver (fun hrows => absurd hrows htaker) fun _ => rfl)
  held := hunrepeated.held
  holders := hunrepeated.holders

/-- What a program has is nothing, or one message. -/
theorem heldBy_eq {queue : BrokerQueue} (hholders : (queue.unacked.map Prod.fst).Nodup)
    (thread : ℕ) :
    queue.heldBy thread = [] ∨
      ∃ body, (thread, body) ∈ queue.unacked ∧ queue.heldBy thread = [(thread, body)] := by
  have hmem : ∀ held ∈ queue.heldBy thread, held ∈ queue.unacked ∧ held.1 = thread := by
    intro held hheld
    obtain ⟨hunacked, heq⟩ := List.mem_filter.mp hheld
    exact ⟨hunacked, of_decide_eq_true heq⟩
  have hnodup : ((queue.heldBy thread).map Prod.fst).Nodup :=
    hholders.sublist (List.filter_sublist.map Prod.fst)
  match heq : queue.heldBy thread with
  | [] => exact Or.inl rfl
  | [held] =>
      obtain ⟨hunacked, rfl⟩ := hmem held (heq ▸ List.mem_cons_self ..)
      exact Or.inr ⟨held.2, hunacked, rfl⟩
  | first :: second :: rest =>
      have hfirst := (hmem first (heq ▸ List.mem_cons_self ..)).2
      have hsecond := (hmem second (heq ▸ List.mem_cons_of_mem _ (List.mem_cons_self ..))).2
      rw [heq, List.map_cons, List.map_cons, hfirst, hsecond] at hnodup
      exact absurd (List.mem_cons_self ..) (List.nodup_cons.mp hnodup).1

/-- The other programs were started before. -/
theorem getElem?_concat_of_ne {starts : List Start} {start : Start} {other : ℕ}
    (hother : other ≠ starts.length) : (starts ++ [start])[other]? = starts[other]? := by
  rcases Nat.lt_or_gt_of_ne hother with hlt | hgt
  · exact List.getElem?_append_left hlt
  · rw [List.getElem?_eq_none (Nat.le_of_lt hgt), List.getElem?_eq_none]
    rw [List.length_append, List.length_singleton]
    omega

theorem holdings_enter_worker {start : Start} {world : World} {other : ℕ}
    (hother : other ≠ moment.starts.length) :
    holdings (moment.enter start world) (.worker other) = holdings moment (.worker other) := by
  simp only [holdings, Moment.enter_crashed, Moment.enter_starts, Moment.enter_logOf,
    getElem?_concat_of_ne hother]

theorem holdings_enter_self {start : Start} {world : World}
    (hcrashed : moment.starts.length ∉ moment.crashed)
    (hlog : moment.logOf moment.starts.length = []) :
    holdings (moment.enter start world) (.worker moment.starts.length) =
      workerKeys (some start) [] := by
  have hlater : moment.starts.length ∉ (moment.enter start world).crashed := hcrashed
  rw [holdings_worker hlater, Moment.enter_starts, Moment.enter_logOf,
    List.getElem?_concat_length, hlog]

/-- A program without a chunk is started. -/
theorem Unrepeated.enter (hunrepeated : Unrepeated moment) {start : Start} {world : World}
    (hcrashed : moment.starts.length ∉ moment.crashed)
    (hlog : moment.logOf moment.starts.length = []) (hkeys : workerKeys (some start) [] = 0)
    (hresults : world.results = moment.world.results) (hrows : world.rows = moment.world.rows) :
    Unrepeated (moment.enter start world) where
  separate := by
    refine hunrepeated.separate.mono fun owner => ?_
    cases owner with
    | rows => exact le_of_eq (congrArg rowKeys hrows)
    | ready =>
        exact le_of_eq (congrArg (fun queue : BrokerQueue => bodiesKeys queue.ready) hresults)
    | worker other =>
        by_cases hother : other = moment.starts.length
        · rw [hother, holdings_enter_self hcrashed hlog, hkeys]
          exact Multiset.zero_le _
        · exact le_of_eq (holdings_enter_worker hother)
  held := by
    rw [Moment.enter_world, hresults]
    exact fun held hheld =>
      (Moment.extends_enter moment start world).getElem?_starts (hunrepeated.held held hheld)
  holders := by
    rw [Moment.enter_world, hresults]
    exact hunrepeated.holders

/-- A write worker gets a chunk. -/
theorem Unrepeated.deliver (hunrepeated : Unrepeated moment) {body : Value}
    (hcrashed : moment.starts.length ∉ moment.crashed)
    (hlog : moment.logOf moment.starts.length = [])
    (hready : body ∈ moment.world.results.ready) :
    Unrepeated (moment.enter (.write body) { moment.world with
      results := moment.world.results.deliver moment.starts.length body }) where
  separate := by
    refine hunrepeated.separate.transfer (nofun : Owner.ready ≠ .worker moment.starts.length) ?_
      fun owner hgiver htaker => ?_
    · -- the keys of the body go over from the queue to the worker
      rw [holdings_enter_self hcrashed hlog, holdings_ready, holdings_ready,
        ← bodiesKeys_erase hready, add_comm]
      exact Multiset.le_add_right _ _
    · cases owner with
      | rows => exact le_refl _
      | ready => exact absurd rfl hgiver
      | worker other =>
          exact le_of_eq (holdings_enter_worker fun heq => htaker (congrArg Owner.worker heq))
  held := by
    intro held hheld
    rcases List.mem_cons.mp hheld with rfl | hheld
    · exact List.getElem?_concat_length
    · exact (Moment.extends_enter moment (.write body) _).getElem?_starts
        (hunrepeated.held held hheld)
  holders := by
    refine List.nodup_cons.mpr ⟨fun hmem => ?_, hunrepeated.holders⟩
    obtain ⟨held, hheld, heq⟩ := List.mem_map.mp hmem
    obtain ⟨hlt, _⟩ := List.getElem?_eq_some_iff.mp (hunrepeated.held held hheld)
    exact absurd heq (Nat.ne_of_lt hlt)

/-- What the broker takes back is ready again; the rows stay, and no worker has more. -/
theorem Unrepeated.requeue (hunrepeated : Unrepeated moment) {later : MarketMoment}
    (hworld : later.world = requeue thread moment.world) (hstarts : later.starts = moment.starts)
    (hworkers : ∀ other, holdings later (.worker other) ≤ holdings moment (.worker other))
    (hchunk : ∀ body, HoldsChunk moment thread body → Fresh (holdings moment) (bodyKeys body) ∨
      holdings moment (.worker thread) = bodyKeys body ∧ holdings later (.worker thread) = 0) :
    Unrepeated later where
  separate := by
    have hrows : holdings later .rows = holdings moment .rows := by
      rw [holdings_rows, hworld]
      rfl
    have hready : holdings later .ready = holdings moment .ready +
        bodiesKeys ((moment.world.results.heldBy thread).map Prod.snd) := by
      rw [holdings_ready, hworld, holdings_ready, ← bodiesKeys_append]
      rfl
    rcases heldBy_eq hunrepeated.holders thread with hnil | ⟨body, hheld, hone⟩
    · refine hunrepeated.separate.mono fun owner => ?_
      cases owner with
      | rows => exact le_of_eq hrows
      | ready => simp [hready, hnil, bodiesKeys]
      | worker other => exact hworkers other
    · -- one chunk: it comes a second time, but is new, or the worker gives it back
      rw [hone, List.map_singleton, bodiesKeys_singleton] at hready
      rcases hchunk body hheld with hfresh | ⟨hbefore, hafter⟩
      · refine hunrepeated.separate.add hfresh (le_of_eq hready) fun owner howner => ?_
        cases owner with
        | rows => exact le_of_eq hrows
        | ready => exact absurd rfl howner
        | worker other => exact hworkers other
      · refine hunrepeated.separate.transfer (nofun : Owner.worker thread ≠ .ready) ?_
          fun owner hgiver htaker => ?_
        · rw [hafter, hbefore, hready, zero_add, add_comm]
        · cases owner with
          | rows => exact le_of_eq hrows
          | ready => exact absurd rfl htaker
          | worker other => exact hworkers other
  held := by
    rw [hworld, hstarts]
    exact fun held hheld => hunrepeated.held held (List.mem_of_mem_filter hheld)
  holders := by
    rw [hworld]
    exact hunrepeated.holders.sublist (List.filter_sublist.map Prod.fst)

/-- A call repeats nothing. -/
theorem Unrepeated.call (hunrepeated : Unrepeated moment) {op : Op}
    {answer : Except MarketError op.Answer} {world : World} {start : Start}
    (hstart : moment.starts[thread]? = some start)
    (hlog : marketLog chunkSize start (⟨op, answer⟩ :: moment.logOf thread))
    (hcrashed : thread ∉ moment.crashed)
    (hpage : ∀ regionId page response, (⟨op, answer⟩ : MarketCall) =
      ⟨.page regionId page, .ok response⟩ → ∀ job, Fetches moment thread job →
        Fresh (holdings moment) (orderKeys job.scrapeRunId response.entries))
    (hresponded : Responded thread moment.world op answer world) :
    Unrepeated (moment.answer thread ⟨op, answer⟩ world) := by
  have hsame := List.Sublist.refl moment.world.results.unacked
  cases hresponded with
  | page regionId page answer =>
      cases answer with
      | error error =>
          exact hunrepeated.other rfl hsame rfl (fetchedOrders_page_error regionId page error)
      | ok response =>
          obtain ⟨body, job, rfl, hdecode, _⟩ :=
            fetchLog_of_call hlog (List.mem_cons_self ..) (Or.inr (Or.inl ⟨_, _, rfl⟩))
          exact hunrepeated.page hstart hdecode hcrashed
            (hpage regionId page response rfl job ⟨body, hstart, hdecode⟩)
  | published name body answer =>
      cases name with
      | scrapeJobs =>
          exact hunrepeated.other rfl hsame rfl fun log => fetchedOrders_of_none rfl log
      | results =>
          obtain ⟨jobBody, job, rfl, hdecode, hfetch⟩ :=
            fetchLog_of_call hlog (List.mem_cons_self ..) (Or.inl ⟨body, rfl⟩)
          exact hunrepeated.publish hstart hdecode hcrashed hfetch
  | acked name =>
      cases name with
      | scrapeJobs =>
          exact hunrepeated.other rfl hsame rfl fun log => fetchedOrders_of_none rfl log
      | results =>
          exact hunrepeated.other rfl List.filter_sublist rfl fun log =>
            fetchedOrders_of_none rfl log
  | inserted documents attempts answer hlength hfailed hsettled =>
      obtain ⟨body, message, rfl, hdecode, hwrite⟩ :=
        writeLog_of_call hlog (List.mem_cons_self ..) (Or.inl ⟨documents, rfl⟩)
      -- a write worker inserts once, so that this is the first time
      have hfirst : (moment.logOf thread).any isInsert = false := by
        have honce := hwrite.once
        rw [List.filter_cons_of_pos rfl, List.length_cons] at honce
        have hnil := List.eq_nil_of_length_eq_zero (Nat.le_zero.mp (Nat.le_of_succ_le_succ honce))
        rw [List.any_eq_false]
        exact fun call hcall => List.filter_eq_nil_iff.mp hnil call hcall
      rcases hwrite.calls _ (List.mem_cons_self ..) with hop | ⟨now, hop⟩ | hop
      · cases hop
      · obtain rfl := Op.insertMany.inj hop
        exact hunrepeated.insert hstart hdecode hcrashed hfirst hlength
      · cases hop
  | _ => exact hunrepeated.other rfl hsame rfl fun log => fetchedOrders_of_none rfl log

/-- **A step repeats nothing.** -/
theorem Unrepeated.steps {before after : Config signature MarketError PUnit World Start}
    {event : Event Start Choice Tick} (hunrepeated : Unrepeated before.moment)
    (hbefore : System.Logged (marketLog chunkSize) (fun _ _ _ => True) before)
    (hafter : System.Logged (marketLog chunkSize) (fun _ _ _ => True) after)
    (hmeets : unrepeated.Meets before event) (hstep : (market chunkSize).Steps before event after) :
    Unrepeated after.moment := by
  have hnew : before.moment.starts.length ∉ before.moment.crashed := fun hcrashed =>
    Nat.lt_irrefl _ (hbefore.crashed _ hcrashed).1
  have hnil := hbefore.logOf_eq_nil (Nat.le_refl _)
  -- a program that can go on has not crashed
  have hlive : ∀ thread program, before.threads thread = some program →
      thread ∉ before.moment.crashed := by
    intro thread program hthread hcrashed
    cases hthread.symm.trans (hbefore.crashed thread hcrashed).2
  cases hstep with
  | start henter =>
      cases entered_of_enter henter with
      | dispatch => exact hunrepeated.enter hnew hnil rfl rfl rfl
      | fetch body hready =>
          refine hunrepeated.enter hnew hnil ?_ rfl rfl
          simp only [workerKeys]
          split <;> rfl
      | write body hready => exact hunrepeated.deliver hnew hnil hready
  | @call thread choice op next answer world hthread hrespond =>
      have hmem : (⟨op, answer⟩ : MarketCall) ∈
          (before.moment.answer thread ⟨op, answer⟩ world).logOf thread := by simp
      obtain ⟨start, hstart, hlog⟩ := hafter.start_of_mem hmem
      rw [Moment.answer_logOf_self] at hlog
      refine hunrepeated.call hstart hlog (hlive thread _ hthread) ?_
        (responded_of_respond hrespond)
      intro regionId page response heq
      cases heq
      have hpolicy := hmeets _ _ hthread
      cases choice <;> simp only [market, respond, Option.some.injEq, Prod.mk.injEq, reduceCtorEq]
        at hrespond
      obtain ⟨rfl, _⟩ := hrespond
      exact hpolicy
  | @crash thread program hthread =>
      refine hunrepeated.requeue rfl rfl (fun other => ?_) fun body hbody => ?_
      · simp only [holdings, Moment.crash_crashed, Moment.crash_starts, Moment.crash_logOf,
          List.mem_cons]
        split_ifs with hcrashed hold hold
        · exact le_refl _
        · exact Multiset.zero_le _
        · exact absurd (Or.inr hold) hcrashed
        · exact le_refl _
      · -- a worker that has inserted holds no key any more, so that the chunk has to be new
        by_cases hinsert : (before.moment.logOf thread).any isInsert
        · exact Or.inl (hmeets body hbody hinsert)
        · refine Or.inr ⟨?_, if_pos (List.mem_cons_self ..)⟩
          rw [holdings_worker (hlive thread program hthread), hunrepeated.held _ hbody]
          exact if_neg hinsert
  | @tick tick world htick =>
      cases tick with
      | redeliver thread =>
          obtain rfl := Option.some_inj.mp htick
          exact hunrepeated.requeue rfl rfl (fun other => le_refl _) fun body hbody =>
            Or.inl (hmeets body hbody)

/-- At the start all orders are with the rows. -/
theorem Unrepeated.initial {uniqueIndexes : List (List String)} {initialRows : List Document}
    (hinitial : DistinctKeys initialRows) :
    Unrepeated (Config.initial signature MarketError PUnit Start
      (World.idle initialRows uniqueIndexes)).moment where
  separate := by
    have hnone : Separate fun _ : Owner => (0 : Multiset OrderKey) :=
      ⟨fun _ => Multiset.nodup_zero, fun _ _ _ => Multiset.zero_disjoint _⟩
    have hfresh : Fresh (fun _ : Owner => (0 : Multiset OrderKey)) (rowKeys initialRows) :=
      ⟨Multiset.coe_nodup.mpr hinitial, fun _ => Multiset.zero_disjoint _⟩
    refine hnone.add hfresh (?_ : holdings _ .rows ≤ _) fun owner howner => ?_
    · rw [zero_add]
      exact le_refl _
    · cases owner with
      | rows => exact absurd rfl howner
      | ready => exact le_refl _
      | worker thread => simp [holdings, Config.initial, workerKeys]
  held := by simp [Config.initial, World.idle, BrokerQueue.empty]
  holders := by simp [Config.initial, World.idle, BrokerQueue.empty]

/-- **No order of a run has two rows.**  Whatever is delivered, crashes and is delivered
again, with any indexes: as long as no order of a run comes a second time, there is no
key twice. -/
theorem rows_distinct {uniqueIndexes : List (List String)} {initialRows : List Document}
    (hinitial : DistinctKeys initialRows)
    {config : Config signature MarketError PUnit World Start}
    (hreaches : (market chunkSize).Reaches unrepeated
      (Config.initial _ _ _ _ (World.idle initialRows uniqueIndexes)) config) :
    DistinctKeys config.moment.world.rows := by
  have hinvariant : System.Logged (marketLog chunkSize) (fun _ _ _ => True) config ∧
      Unrepeated config.moment := by
    refine hreaches.invariant
      (motive := fun config => System.Logged (marketLog chunkSize) (fun _ _ _ => True) config ∧
        Unrepeated config.moment) ⟨.initial, .initial hinitial⟩ ?_
    intro before event after ⟨hlogged, hunrepeated⟩ hmeets hstep
    have hlogged' := hstep.logged (marketLog_body chunkSize) hlogged
    exact ⟨hlogged', hunrepeated.steps hlogged hlogged' hmeets hstep⟩
  exact Multiset.coe_nodup.mp (hinvariant.2.separate.nodup .rows)

end Steps

/-! ## With a unique index -/

theorem distinctKeys_insertMany {uniqueIndexes : List (List String)}
    (hunique : ["order_id", "scrape_run_id"] ∈ uniqueIndexes) (batch : List (Document × Attempt))
    {rows : List Document} (hrows : DistinctKeys rows) :
    DistinctKeys (insertMany uniqueIndexes rows batch).1 := by
  induction batch generalizing rows with
  | nil => exact hrows
  | cons item rest ih =>
      obtain ⟨document, attempt⟩ := item
      cases attempt with
      | attempted =>
          rw [insertMany]
          split
          · exact ih hrows
          · rename_i hviolates
            refine ih ?_
            unfold DistinctKeys
            rw [List.map_append, List.map_singleton, List.nodup_append]
            refine ⟨hrows, List.nodup_singleton _, fun key hkey other hother heq => ?_⟩
            obtain ⟨row, hrow, rfl⟩ := List.mem_map.mp hkey
            rw [List.mem_singleton.mp hother] at heq
            obtain ⟨horder, hrun⟩ := Prod.mk.inj heq
            exact hviolates ⟨_, hunique, row, hrow, by simp [indexKey, horder, hrun]⟩
      | failed code => exact ih hrows
      | skipped => exact ih hrows

/-- **With the unique index of the tests** there is no key twice in any run. -/
theorem rows_distinct_of_unique {chunkSize : ℕ} {uniqueIndexes : List (List String)}
    (hunique : ["order_id", "scrape_run_id"] ∈ uniqueIndexes) {initialRows : List Document}
    (hinitial : DistinctKeys initialRows)
    {config : Config signature MarketError PUnit World Start}
    (hreaches : (market chunkSize).Reaches .free
      (Config.initial _ _ _ _ (World.idle initialRows uniqueIndexes)) config) :
    DistinctKeys config.moment.world.rows := by
  have hinvariant : config.moment.world.uniqueIndexes = uniqueIndexes ∧
      DistinctKeys config.moment.world.rows := by
    refine hreaches.invariant (motive := fun config =>
      config.moment.world.uniqueIndexes = uniqueIndexes ∧
        DistinctKeys config.moment.world.rows) ⟨rfl, hinitial⟩ ?_
    intro before event after hbefore _ hstep
    cases hstep with
    | start henter => cases entered_of_enter henter <;> exact hbefore
    | call hthread hrespond =>
        have hresponded := responded_of_respond hrespond
        cases hresponded with
        -- the index refuses what is there
        | inserted documents attempts answer _ _ _ =>
            refine ⟨hbefore.1, distinctKeys_insertMany ?_ _ hbefore.2⟩
            rw [hbefore.1]
            exact hunique
        | published name body answer => cases name <;> exact hbefore
        | acked name => cases name <;> exact hbefore
        | _ => exact hbefore
    | crash hthread => exact hbefore
    | @tick tick world htick =>
        cases tick with
        | redeliver thread =>
            obtain rfl := Option.some_inj.mp htick
            exact hbefore
  exact hinvariant.2

/-! ## A worker that goes down before and after its insert -/

/-- The events up to the page with the order. -/
def beforePage : List MarketEvent :=
  dispatchEvents ++ [.start (.fetch (encodeScrapeJob sampleJob))]

def pageEvent : MarketEvent := .call 1 (.page (.ok ⟨[sampleOrder], some 1⟩))

/-- The order is published and a write worker gets it. -/
def beforeInsert : List MarketEvent :=
  [.call 1 (.publish true true), .call 1 (.ack true),
    .start (.write (chunkBody sampleJob [sampleOrder])), .call 2 (.utcnow 5)]

/-- Another write worker gets the chunk and inserts it. -/
def anotherInsert : List MarketEvent := writeEvents 3 ++ [.call 3 (.ack true)]

/-- The configuration that a run of one order is in after some events. -/
def sampleAfter (events : List MarketEvent) : Config signature MarketError PUnit World Start :=
  ((market 1000).run sampleStart events).getD sampleStart

/-- The event brings no order of a run a second time, whenever it happens. -/
def Harmless : MarketEvent → Bool
  | .call _ (.page (.ok _)) => false
  | .crash _ => false
  | .tick _ => false
  | _ => true

theorem meets_of_harmless {event : MarketEvent} (hharmless : Harmless event)
    (config : Config signature MarketError PUnit World Start) : unrepeated.Meets config event := by
  cases event with
  | start start => trivial
  | call thread choice =>
      intro op next _
      cases op with
      | page regionId page =>
          cases choice with
          | page answer =>
              cases answer with
              | ok response => cases hharmless
              | error error => trivial
          | _ => trivial
      | _ => trivial
  | crash thread => cases hharmless
  | tick tick => cases hharmless

theorem reaches_of_harmless {config later : Config signature MarketError PUnit World Start}
    (events : List MarketEvent) (hrun : (market 1000).run config events = some later)
    (hharmless : events.all Harmless) : (market 1000).Reaches unrepeated config later :=
  System.reaches_of_run hrun fun event hevent =>
    meets_of_harmless (List.all_eq_true.mp hharmless event hevent)

/-- A write worker goes down before its insert: its order has one row in the end. -/
theorem rows_distinct_sample :
    let rows := (sampleAfter (beforePage ++ pageEvent :: beforeInsert ++
      .crash 2 :: anotherInsert)).moment.world.rows
    rows.length = 1 ∧ DistinctKeys rows := by
  have hempty : ∀ owner, holdings (sampleAfter beforePage).moment owner = 0
    | .rows => rfl
    | .ready => rfl
    | .worker 0 => rfl
    | .worker 1 => rfl
    | .worker (_ + 2) => rfl
  have hpage : unrepeated.Meets (sampleAfter beforePage) pageEvent := by
    intro op next _
    cases op with
    | page regionId page =>
        intro job _
        refine ⟨Multiset.nodup_singleton _, fun owner => ?_⟩
        rw [hempty owner]
        exact Multiset.zero_disjoint _
    | _ => trivial
  have hcrash : unrepeated.Meets (sampleAfter (beforePage ++ pageEvent :: beforeInsert))
      (.crash 2) := by
    intro body _ hinsert
    cases hinsert
  have hreaches : (market 1000).Reaches unrepeated sampleStart
      (sampleAfter (beforePage ++ pageEvent :: beforeInsert ++ .crash 2 :: anotherInsert)) := by
    refine (reaches_of_harmless beforePage rfl rfl).trans ?_
    refine .head ⟨pageEvent, hpage, rfl⟩ ?_
    refine (reaches_of_harmless beforeInsert rfl rfl).trans ?_
    exact .head ⟨.crash 2, hcrash, rfl⟩ (reaches_of_harmless anotherInsert rfl rfl)
  exact ⟨rfl, rows_distinct (show DistinctKeys [] from List.nodup_nil) hreaches⟩

/-- After the insert, with the indexes that a start of the application makes: the
chunk goes to another write worker, too, and its order has two rows. -/
theorem duplicate_row_of_crash :
    (prepared.threads 0).bind Program.outcome? = some (.ok ()) ∧
    ∃ later, (market 1000).run
        (Config.initial _ _ _ _ (World.idle [] (prepared.moment.world.uniqueKeys "market_orders")))
        (dispatchEvents ++ fetchEvents ++ writeEvents 2 ++ .crash 2 :: anotherInsert) =
          some later ∧
      ¬ DistinctKeys later.moment.world.rows := by
  exact ⟨by decide, _, rfl, by decide⟩

end EveBuild.Market
