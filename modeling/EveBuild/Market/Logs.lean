import EveBuild.Effect.Log
import EveBuild.Market.Model
import Mathlib.Data.List.Infix

/-!
# What the workers do, call by call

The log of a fetch worker on a message is, whatever its calls are answered, a
beginning of: the pages of the region, one answer each; the chunks of the orders
on these pages, in order; the acknowledgement (`FetchLog`).  That of a write worker
is a beginning of: one insert of the chunk's rows, then the acknowledgement, which
is made only if the insert has left every row in the collection or has rejected it
for a duplicate key (`WriteLog`).  `marketLog` collects them for all programs.
-/

namespace EveBuild.Market

open Effect

abbrev MarketCall := Call signature MarketError

/-! ## Reading a log -/

/-- A page of a region as `get_market_orders_page` returns it. -/
structure PageAnswer where
  regionId : ℤ
  page : ℤ
  entries : List MarketOrderEntry
  totalPages : ℤ

/-- The page that a call answers, if it does. -/
def pageAnswer? : MarketCall → Option PageAnswer
  | ⟨.page regionId page, .ok response⟩ =>
      some ⟨regionId, page, response.entries, response.xPages?.getD 1⟩
  | ⟨.page regionId page, .error (.httpStatus 404)⟩ => some ⟨regionId, page, [], 0⟩
  | _ => none

/-- The chunk that a call sends. -/
def sentChunk? : MarketCall → Option Value
  | ⟨.publish .results body, _⟩ => some body
  | _ => none

/-- The chunk that a call publishes. -/
def publishedChunk? : MarketCall → Option Value
  | ⟨.publish .results body, .ok _⟩ => some body
  | _ => none

/-- The pages in a log, in the order of the answers. -/
def answers (log : List MarketCall) : List PageAnswer := (log.filterMap pageAnswer?).reverse

/-- The orders on the pages in a log, in order. -/
def fetchedOrders (log : List MarketCall) : List MarketOrderEntry :=
  (answers log).flatMap PageAnswer.entries

/-- The chunks that have been sent, in order, whether the broker has confirmed them
or not. -/
def sentChunks (log : List MarketCall) : List Value := (log.filterMap sentChunk?).reverse

/-- The chunks that have been published, in order. -/
def publishedChunks (log : List MarketCall) : List Value :=
  (log.filterMap publishedChunk?).reverse

/-- The message of the program has been acknowledged. -/
def Acked (queue : QueueName) (log : List MarketCall) : Prop := ⟨.ack queue, .ok ()⟩ ∈ log

theorem answers_cons (call : MarketCall) (log : List MarketCall) :
    answers (call :: log) = answers log ++ (pageAnswer? call).toList := by
  unfold answers
  cases hcall : pageAnswer? call <;> simp [hcall]

theorem sentChunks_cons (call : MarketCall) (log : List MarketCall) :
    sentChunks (call :: log) = sentChunks log ++ (sentChunk? call).toList := by
  unfold sentChunks
  cases hcall : sentChunk? call <;> simp [hcall]

theorem publishedChunks_cons (call : MarketCall) (log : List MarketCall) :
    publishedChunks (call :: log) = publishedChunks log ++ (publishedChunk? call).toList := by
  unfold publishedChunks
  cases hcall : publishedChunk? call <;> simp [hcall]

theorem mem_of_mem_publishedChunks {log : List MarketCall} {body : Value}
    (hbody : body ∈ publishedChunks log) : ⟨.publish .results body, .ok ()⟩ ∈ log := by
  obtain ⟨⟨op, answer⟩, hcall, hpublished⟩ := List.mem_filterMap.mp (List.mem_reverse.mp hbody)
  unfold publishedChunk? at hpublished
  split at hpublished
  · rename_i heq
    obtain rfl := Option.some_inj.mp hpublished
    exact heq ▸ hcall
  · cases hpublished

theorem fetchedOrders_cons (call : MarketCall) (log : List MarketCall) :
    fetchedOrders (call :: log) =
      fetchedOrders log ++ (pageAnswer? call).toList.flatMap PageAnswer.entries := by
  rw [fetchedOrders, answers_cons, List.flatMap_append, ← fetchedOrders]

theorem answers_of_none {call : MarketCall} (hcall : pageAnswer? call = none)
    (log : List MarketCall) : answers (call :: log) = answers log := by
  rw [answers_cons, hcall, Option.toList_none, List.append_nil]

theorem fetchedOrders_of_none {call : MarketCall} (hcall : pageAnswer? call = none)
    (log : List MarketCall) : fetchedOrders (call :: log) = fetchedOrders log := by
  rw [fetchedOrders, answers_of_none hcall, ← fetchedOrders]

theorem sentChunks_of_none {call : MarketCall} (hcall : sentChunk? call = none)
    (log : List MarketCall) : sentChunks (call :: log) = sentChunks log := by
  rw [sentChunks_cons, hcall, Option.toList_none, List.append_nil]

theorem publishedChunks_of_none {call : MarketCall} (hcall : publishedChunk? call = none)
    (log : List MarketCall) : publishedChunks (call :: log) = publishedChunks log := by
  rw [publishedChunks_cons, hcall, Option.toList_none, List.append_nil]

/-- The page that an answer gives has the region that was asked for, and its orders
are those of the response. -/
theorem pageAnswer?_page {regionId page : ℤ} {answer : Except MarketError OrdersPage}
    {found : PageAnswer} (hfound : pageAnswer? ⟨.page regionId page, answer⟩ = some found) :
    found.regionId = regionId ∧
      ∀ entry ∈ found.entries, ∃ response, answer = .ok response ∧ entry ∈ response.entries := by
  cases answer with
  | ok response =>
      obtain rfl := Option.some_inj.mp hfound
      exact ⟨rfl, fun entry hentry => ⟨response, rfl, hentry⟩⟩
  | error error =>
      by_cases herror : error = .httpStatus 404
      · subst herror
        obtain rfl := Option.some_inj.mp hfound
        exact ⟨rfl, by simp⟩
      · unfold pageAnswer? at hfound
        split at hfound
        · rename_i heq
          cases congrArg Call.op heq
          cases eq_of_heq (Call.mk.inj heq).2
        · rename_i heq
          cases congrArg Call.op heq
          exact absurd (Except.error.inj (eq_of_heq (Call.mk.inj heq).2)) herror
        · cases hfound

/-! ## Fetch workers -/

/-- The first page and all other pages that it announces. -/
def AllPages (pages : List PageAnswer) : Prop :=
  ∃ first rest, pages = first :: rest ∧
    pages.map PageAnswer.page = 1 :: otherPages first.totalPages

/-- The bodies of the messages that carry a job's orders. -/
def chunkBodies (chunkSize : ℕ) (job : ScrapeJobMessage) (orders : List MarketOrderEntry) :
    List Value := (chunksOf chunkSize orders).map (chunkBody job)

/-- The calls that a fetch worker makes for a job. -/
def FetchCall (job : ScrapeJobMessage) : Op → Prop
  | .page regionId _ => regionId = job.regionId
  | .publish .results _ => True
  | .ack .scrapeJobs => True
  | _ => False

/-- The log of a fetch worker with a job. -/
structure FetchLog (chunkSize : ℕ) (job : ScrapeJobMessage) (log : List MarketCall) : Prop where
  calls : ∀ call ∈ log, FetchCall job call.op
  sent : sentChunks log <+: chunkBodies chunkSize job (fetchedOrders log)
  pages : sentChunks log ≠ [] ∨ Acked .scrapeJobs log → AllPages (answers log)
  acked : Acked .scrapeJobs log →
    publishedChunks log = chunkBodies chunkSize job (fetchedOrders log)

/-- The log while the pages are fetched. -/
structure Fetching (job : ScrapeJobMessage) (pages : List ℤ) (orders : List MarketOrderEntry)
    (log : List MarketCall) : Prop where
  calls : ∀ call ∈ log, ∃ page, call.op = .page job.regionId page
  pages : (answers log).map PageAnswer.page = pages
  orders : fetchedOrders log = orders

/-- Only pages and chunks so far. -/
def PagesAndChunks (job : ScrapeJobMessage) (log : List MarketCall) : Prop :=
  ∀ call ∈ log, (∃ page, call.op = .page job.regionId page) ∨
    ∃ body, call.op = .publish .results body

/-- The log while the chunks are published. -/
structure Publishing (job : ScrapeJobMessage) (orders : List MarketOrderEntry)
    (bodies : List Value) (log : List MarketCall) : Prop where
  calls : PagesAndChunks job log
  pages : AllPages (answers log)
  orders : fetchedOrders log = orders
  sent : sentChunks log = bodies
  published : publishedChunks log = bodies

section Fetch

variable {chunkSize : ℕ} {job : ScrapeJobMessage} {log : List MarketCall}

theorem chunks_eq_nil_of_pages (hcalls : ∀ call ∈ log, ∃ page, call.op = .page job.regionId page) :
    sentChunks log = [] ∧ publishedChunks log = [] ∧ ¬ Acked .scrapeJobs log := by
  refine ⟨?_, ?_, fun hacked => ?_⟩
  · refine List.reverse_eq_nil_iff.mpr (List.filterMap_eq_nil_iff.mpr ?_)
    rintro ⟨op, answer⟩ hcall
    obtain ⟨page, rfl⟩ := hcalls _ hcall
    rfl
  · refine List.reverse_eq_nil_iff.mpr (List.filterMap_eq_nil_iff.mpr ?_)
    rintro ⟨op, answer⟩ hcall
    obtain ⟨page, rfl⟩ := hcalls _ hcall
    rfl
  · obtain ⟨page, hop⟩ := hcalls _ hacked
    cases hop

theorem fetchLog_of_pages (hcalls : ∀ call ∈ log, ∃ page, call.op = .page job.regionId page) :
    FetchLog chunkSize job log := by
  obtain ⟨hsent, _, hacked⟩ := chunks_eq_nil_of_pages hcalls
  refine ⟨fun call hcall => ?_, ?_, ?_, fun h => absurd h hacked⟩
  · obtain ⟨page, hop⟩ := hcalls call hcall
    rw [hop]
    rfl
  · rw [hsent]
    exact List.nil_prefix
  · rintro (h | h)
    · exact absurd hsent h
    · exact absurd h hacked

theorem not_acked_of_pagesAndChunks (hcalls : PagesAndChunks job log) :
    ¬ Acked .scrapeJobs log := by
  intro hacked
  rcases hcalls _ hacked with ⟨page, hop⟩ | ⟨body, hop⟩ <;> cases hop

theorem fetchLog_of_pagesAndChunks (hcalls : PagesAndChunks job log)
    (hpages : AllPages (answers log))
    (hsent : sentChunks log <+: chunkBodies chunkSize job (fetchedOrders log)) :
    FetchLog chunkSize job log where
  calls := by
    intro call hcall
    rcases hcalls call hcall with ⟨page, hop⟩ | ⟨body, hop⟩ <;> rw [hop]
    · rfl
    · trivial
  sent := hsent
  pages := fun _ => hpages
  acked := fun hacked => absurd hacked (not_acked_of_pagesAndChunks hcalls)

/-- The pages in the log of a fetch worker are those of its region. -/
theorem FetchLog.regionId_of_mem (hlog : FetchLog chunkSize job log) {page : PageAnswer}
    (hpage : page ∈ answers log) : page.regionId = job.regionId := by
  obtain ⟨⟨op, answer⟩, hcall, hanswer⟩ := List.mem_filterMap.mp (List.mem_reverse.mp hpage)
  have hfetch := hlog.calls _ hcall
  cases op with
  | page regionId page => exact (pageAnswer?_page hanswer).1.trans hfetch
  | _ => cases hanswer

/-- One page: its orders come after those so far. -/
theorem records_getMarketOrdersPage {pages : List ℤ} {orders : List MarketOrderEntry} (page : ℤ)
    (hfetching : Fetching job pages orders log) :
    (getMarketOrdersPage job.regionId page).Records (FetchLog chunkSize job)
      (fun outcome later => ∀ value, outcome = .ok value →
        Fetching job (pages ++ [page]) (orders ++ value.1) later ∧
        ∃ answer, answers later = answers log ++ [answer] ∧ answer.totalPages = value.2) log := by
  have hcalls : ∀ answer : Except MarketError OrdersPage,
      ∀ call ∈ (⟨.page job.regionId page, answer⟩ : MarketCall) :: log,
        ∃ page, call.op = .page job.regionId page := by
    intro answer call hcall
    rcases List.mem_cons.mp hcall with rfl | hcall
    · exact ⟨page, rfl⟩
    · exact hfetching.calls call hcall
  -- what a call that answers the page adds to the log
  have hnext : ∀ (answer : Except MarketError OrdersPage) (found : PageAnswer),
      pageAnswer? ⟨.page job.regionId page, answer⟩ = some found → found.page = page →
      Fetching job (pages ++ [page]) (orders ++ found.entries)
        (⟨.page job.regionId page, answer⟩ :: log) ∧
      answers (⟨.page job.regionId page, answer⟩ :: log) = answers log ++ [found] := by
    intro answer found hfound hpage
    refine ⟨⟨hcalls answer, ?_, ?_⟩, ?_⟩
    · rw [answers_cons, hfound, Option.toList_some, List.map_append, hfetching.pages,
        List.map_singleton, hpage]
    · rw [fetchedOrders_cons, hfound, hfetching.orders, Option.toList_some, List.flatMap_singleton]
    · rw [answers_cons, hfound, Option.toList_some]
  intro answer
  refine ⟨fetchLog_of_pages (hcalls answer), ?_⟩
  cases answer with
  | error error =>
      show (if error = .httpStatus 404 then (return ([], 0) : Code _)
        else throw error).Records _ _ _
      split_ifs with herror
      · subst herror
        intro value hvalue
        obtain rfl := Except.ok.inj hvalue
        obtain ⟨hfetching', hanswers⟩ :=
          hnext (.error (.httpStatus 404)) ⟨job.regionId, page, [], 0⟩ rfl rfl
        exact ⟨hfetching', _, hanswers, rfl⟩
      · intro value hvalue
        cases hvalue
  | ok response =>
      intro value hvalue
      obtain rfl := Except.ok.inj hvalue
      obtain ⟨hfetching', hanswers⟩ := hnext (.ok response)
        ⟨job.regionId, page, response.entries, response.xPages?.getD 1⟩ rfl rfl
      exact ⟨hfetching', _, hanswers, rfl⟩

/-- The other pages: all of them are answered, after the first one. -/
theorem records_fetchPages :
    ∀ (remaining pages : List ℤ) (orders : List MarketOrderEntry) (log : List MarketCall)
      (first : PageAnswer), Fetching job pages orders log → (answers log).head? = some first →
      (fetchPages job.regionId remaining orders).Records (FetchLog chunkSize job)
        (fun outcome later => ∀ all, outcome = .ok all →
          Fetching job (pages ++ remaining) all later ∧
            (answers later).head? = some first) log := by
  intro remaining
  induction remaining with
  | nil =>
      intro pages orders log first hfetching hfirst all hall
      obtain rfl := Except.ok.inj hall
      rw [List.append_nil]
      exact ⟨hfetching, hfirst⟩
  | cons page remaining ih =>
      intro pages orders log first hfetching hfirst
      refine (records_getMarketOrdersPage page hfetching).bind ?_ ?_
      · rintro ⟨pageOrders, total⟩ later hmiddle
        obtain ⟨hfetching', answer, hanswers, _⟩ := hmiddle _ rfl
        refine (ih (pages ++ [page]) (orders ++ pageOrders) later first hfetching' ?_).mono ?_
        · rw [hanswers, List.head?_append, hfirst]
          rfl
        · intro outcome final hpost all hall
          simpa using hpost all hall
      · intro error later _ all hall
        cases hall

/-- The chunks: each of them is sent, after those before it. -/
theorem records_publishChunks (orders : List MarketOrderEntry) :
    ∀ (chunks : List (List MarketOrderEntry)) (bodies : List Value) (log : List MarketCall),
      Publishing job orders bodies log →
      bodies ++ chunks.map (chunkBody job) = chunkBodies chunkSize job orders →
      (publishChunks job chunks).Records (FetchLog chunkSize job)
        (fun outcome later => outcome = .ok ⟨⟩ →
          Publishing job orders (chunkBodies chunkSize job orders) later) log := by
  intro chunks
  induction chunks with
  | nil =>
      intro bodies log hpublishing hbodies _
      rw [List.map_nil, List.append_nil] at hbodies
      rwa [← hbodies]
  | cons chunk chunks ih =>
      intro bodies log hpublishing hbodies answer
      have hbodies' : (bodies ++ [chunkBody job chunk]) ++ chunks.map (chunkBody job) =
          chunkBodies chunkSize job orders := by simpa using hbodies
      have hcalls : PagesAndChunks job
          ((⟨.publish .results (chunkBody job chunk), answer⟩ : MarketCall) :: log) := by
        intro call hcall
        rcases List.mem_cons.mp hcall with rfl | hcall
        · exact Or.inr ⟨_, rfl⟩
        · exact hpublishing.calls call hcall
      have hpages : AllPages (answers
          ((⟨.publish .results (chunkBody job chunk), answer⟩ : MarketCall) :: log)) := by
        rw [answers_of_none rfl]
        exact hpublishing.pages
      have horders : fetchedOrders
          ((⟨.publish .results (chunkBody job chunk), answer⟩ : MarketCall) :: log) = orders := by
        rw [fetchedOrders_of_none rfl, hpublishing.orders]
      have hsent : sentChunks
          ((⟨.publish .results (chunkBody job chunk), answer⟩ : MarketCall) :: log) =
            bodies ++ [chunkBody job chunk] := by
        rw [sentChunks_cons, hpublishing.sent]
        rfl
      -- what is published is sent, whether or not it succeeds
      refine ⟨fetchLog_of_pagesAndChunks hcalls hpages ?_, ?_⟩
      · rw [hsent, horders]
        exact ⟨_, hbodies'⟩
      · cases answer with
        | error error =>
            intro houtcome
            cases houtcome
        | ok _ =>
            refine ih (bodies ++ [chunkBody job chunk]) _
              ⟨hcalls, hpages, horders, hsent, ?_⟩ hbodies'
            rw [publishedChunks_cons, hpublishing.published]
            rfl

/-- A whole job: when it is done, all chunks of all orders of all pages are published. -/
theorem records_runFetchJob :
    (runFetchJob chunkSize job).Records (FetchLog chunkSize job)
      (fun outcome later => outcome = .ok ⟨⟩ →
        ∃ orders, Publishing job orders (chunkBodies chunkSize job orders) later) [] := by
  have hstart : Fetching job [] [] [] := ⟨by simp, rfl, rfl⟩
  refine (records_getMarketOrdersPage 1 hstart).bind ?_ (by simp)
  rintro ⟨firstPage, totalPages⟩ log hmiddle
  obtain ⟨hfetching, first, hanswers, rfl⟩ := hmiddle _ rfl
  refine (records_fetchPages (otherPages first.totalPages) [1] firstPage log first hfetching
    (by rw [hanswers]; rfl)).bind ?_ (by simp)
  intro orders later hmiddle
  obtain ⟨hall, hfirst⟩ := hmiddle _ rfl
  have hpages : AllPages (answers later) := by
    obtain ⟨rest, hrest⟩ := List.head?_eq_some_iff.mp hfirst
    exact ⟨first, rest, hrest, hall.pages⟩
  obtain ⟨hsent, hpublished, _⟩ := chunks_eq_nil_of_pages hall.calls
  have hpublishing : Publishing job orders [] later :=
    ⟨fun call hcall => Or.inl (hall.calls call hcall), hpages, hall.orders, hsent, hpublished⟩
  by_cases hzero : chunkSize = 0
  · rw [if_pos hzero]
    intro houtcome
    cases houtcome
  · rw [if_neg hzero]
    exact (records_publishChunks orders (chunksOf chunkSize orders) [] later hpublishing rfl).mono
      fun outcome final hpost houtcome => ⟨orders, hpost houtcome⟩

/-- **The log of a fetch worker.** -/
theorem records_fetchMessage {body : Value} (hdecode : decodeScrapeJob body = .ok job) :
    (fetchMessage chunkSize body).Records (FetchLog chunkSize job) (fun _ _ => True) [] := by
  rw [fetchMessage, hdecode]
  show (runFetchJob chunkSize job >>= fun _ => await (.ack .scrapeJobs)).Records _ _ _
  refine records_runFetchJob.bind ?_ (by simp)
  rintro ⟨⟩ log hmiddle answer
  obtain ⟨orders, hpublishing⟩ := hmiddle rfl
  refine ⟨⟨fun call hcall => ?_, ?_, fun _ => ?_, fun _ => ?_⟩, Program.Records.ofExcept trivial⟩
  · rcases List.mem_cons.mp hcall with rfl | hcall
    · trivial
    · rcases hpublishing.calls call hcall with ⟨page, hop⟩ | ⟨body, hop⟩ <;> rw [hop]
      · rfl
      · trivial
  · rw [sentChunks_of_none rfl, fetchedOrders_of_none rfl, hpublishing.sent, hpublishing.orders]
  · rw [answers_of_none rfl]
    exact hpublishing.pages
  · rw [publishedChunks_of_none rfl, fetchedOrders_of_none rfl, hpublishing.published,
      hpublishing.orders]

end Fetch

/-! ## Write workers -/

/-- The rows of a chunk that is inserted at `now`. -/
def chunkRows (message : OrdersChunkMessage) (now : ℤ) : List Document :=
  message.orders.map (orderRow message.regionId message.scrapeRunId now)

/-- An insert that has left every row in the collection, or has rejected it for a
duplicate key. -/
def Settled : Except MarketError Unit → Prop
  | .ok _ => True
  | .error (.bulkWrite writeErrors) => ∀ code ∈ writeErrors, code = duplicateKey
  | .error _ => False

def isInsert (call : MarketCall) : Bool :=
  match call.op with
  | .insertMany _ => true
  | _ => false

/-- The calls that a write worker makes for a chunk. -/
def WriteCall (message : OrdersChunkMessage) (op : Op) : Prop :=
  op = .utcnow ∨ (∃ now, op = .insertMany (chunkRows message now)) ∨ op = .ack .results

/-- The log of a write worker with a chunk. -/
structure WriteLog (message : OrdersChunkMessage) (log : List MarketCall) : Prop where
  calls : ∀ call ∈ log, WriteCall message call.op
  once : (log.filter isInsert).length ≤ 1
  settled : (∃ call ∈ log, call.op = .ack .results) → message.orders = [] ∨
    ∃ now answer, (⟨.insertMany (chunkRows message now), answer⟩ : MarketCall) ∈ log ∧
      Settled answer

section Write

variable {message : OrdersChunkMessage}

/-- The handler lets an insert pass exactly if it is settled. -/
theorem ignoreDuplicates_eq (error : MarketError) :
    (Settled (.error error) ∧ ignoreDuplicates error = .ret ()) ∨
      ignoreDuplicates error = .raise error := by
  cases error with
  | bulkWrite writeErrors =>
      by_cases hany : writeErrors.any (· ≠ duplicateKey)
      · exact Or.inr (if_pos hany)
      · refine Or.inl ⟨?_, if_neg hany⟩
        simpa [Settled] using hany
  | _ => exact Or.inr rfl

/-- After the chunk is dealt with, its acknowledgement completes the log. -/
theorem records_ack {log : List MarketCall} (hlog : WriteLog message log)
    (hsettled : message.orders = [] ∨ ∃ now answer,
      (⟨.insertMany (chunkRows message now), answer⟩ : MarketCall) ∈ log ∧ Settled answer) :
    (await (.ack .results)).Records (WriteLog message) (fun _ _ => True) log := by
  intro answer
  refine ⟨⟨fun call hcall => ?_, ?_, fun _ => ?_⟩, Program.Records.ofExcept trivial⟩
  · rcases List.mem_cons.mp hcall with rfl | hcall
    · exact Or.inr (Or.inr rfl)
    · exact hlog.calls call hcall
  · exact hlog.once
  · rcases hsettled with hnil | ⟨now, inserted, hmem, hinserted⟩
    · exact Or.inl hnil
    · exact Or.inr ⟨now, inserted, List.mem_cons_of_mem _ hmem, hinserted⟩

/-- A chunk: when it is applied, its insert is settled. -/
theorem records_applyOrdersChunk :
    (applyOrdersChunk message).Records (WriteLog message)
      (fun outcome later => ∀ count, outcome = .ok count → WriteLog message later ∧
        (message.orders = [] ∨ ∃ now answer,
          (⟨.insertMany (chunkRows message now), answer⟩ : MarketCall) ∈ later ∧
            Settled answer)) [] := by
  intro clock
  -- no acknowledgement yet
  have hclock : WriteLog message [⟨.utcnow, clock⟩] := by
    refine ⟨fun call hcall => ?_, by simp [isInsert], ?_⟩
    · exact Or.inl (List.mem_singleton.mp hcall ▸ rfl)
    · rintro ⟨call, hcall, hop⟩
      rw [List.mem_singleton.mp hcall] at hop
      cases hop
  refine ⟨hclock, ?_⟩
  cases clock with
  | error error =>
      intro count hcount
      cases hcount
  | ok now =>
      show (if chunkRows message now ≠ [] then
        tryCatch (await (.insertMany (chunkRows message now))) ignoreDuplicates >>= fun _ =>
          (return message.orders.length : Code ℕ)
        else return message.orders.length).Records _ _ _
      split_ifs with hempty
      · intro inserted
        have hinserted : WriteLog message
            [⟨.insertMany (chunkRows message now), inserted⟩, ⟨.utcnow, .ok now⟩] := by
          refine ⟨fun call hcall => ?_, Nat.le_refl 1, ?_⟩
          · rcases List.mem_cons.mp hcall with rfl | hcall
            · exact Or.inr (Or.inl ⟨now, rfl⟩)
            · exact hclock.calls call hcall
          · rintro ⟨call, hcall, hop⟩
            rcases List.mem_cons.mp hcall with rfl | hcall
            · cases hop
            · rw [List.mem_singleton.mp hcall] at hop
              cases hop
        refine ⟨hinserted, ?_⟩
        cases inserted with
        | ok _ =>
            intro count _
            exact ⟨hinserted, Or.inr ⟨now, _, List.mem_cons_self .., trivial⟩⟩
        | error error =>
            show (ignoreDuplicates error >>= fun _ =>
              (return message.orders.length : Code ℕ)).Records _ _ _
            -- duplicate keys are ignored, and other errors raised
            rcases ignoreDuplicates_eq error with ⟨hsettled, hignore⟩ | hignore
            · rw [hignore]
              intro count _
              exact ⟨hinserted, Or.inr ⟨now, _, List.mem_cons_self .., hsettled⟩⟩
            · rw [hignore]
              intro count hcount
              cases hcount
      · intro count _
        exact ⟨hclock, Or.inl (List.map_eq_nil_iff.mp (not_not.mp hempty))⟩

/-- **The log of a write worker.** -/
theorem records_writeMessage {body : Value} (hdecode : decodeOrdersChunk body = .ok message) :
    (writeMessage body).Records (WriteLog message) (fun _ _ => True) [] := by
  rw [writeMessage, hdecode]
  show (applyOrdersChunk message >>= fun _ => await (.ack .results)).Records _ _ _
  refine records_applyOrdersChunk.bind ?_ (by simp)
  intro count log hmiddle
  obtain ⟨hlog, hsettled⟩ := hmiddle count rfl
  exact records_ack hlog hsettled

end Write

/-! ## All programs -/

/-- The calls that a dispatch makes. -/
def DispatchCall : Op → Prop
  | .uuid4 => True
  | .regionIds => True
  | .publish .scrapeJobs _ => True
  | _ => False

theorem issues_publishJobs (scrapeRunId : String) (regionIds : List ℤ) :
    (publishJobs scrapeRunId regionIds).Issues DispatchCall := by
  induction regionIds with
  | nil => trivial
  | cons regionId regionIds ih =>
      exact Program.Issues.bind (Program.Issues.perform trivial) fun _ => ih

theorem issues_dispatchScrape : dispatchScrape.Issues DispatchCall := by
  refine Program.Issues.bind (Program.Issues.perform trivial) fun _ => ?_
  refine Program.Issues.bind (Program.Issues.perform trivial) fun _ => ?_
  exact Program.Issues.bind (issues_publishJobs _ _) fun _ => trivial

/-- **What the log of a program can be.** -/
def marketLog (chunkSize : ℕ) : Start → List MarketCall → Prop
  | .dispatch, log => ∀ call ∈ log, DispatchCall call.op
  | .fetch body, log =>
      match decodeScrapeJob body with
      | .ok job => FetchLog chunkSize job log
      | .error _ => log = []
  | .write body, log =>
      match decodeOrdersChunk body with
      | .ok message => WriteLog message log
      | .error _ => log = []

/-- Only a fetch worker sends chunks, gets pages or acknowledges a job. -/
theorem fetchLog_of_call {chunkSize : ℕ} {start : Start} {log : List MarketCall}
    (hlog : marketLog chunkSize start log) {call : MarketCall} (hcall : call ∈ log)
    (hop : (∃ body, call.op = .publish .results body) ∨
      (∃ regionId page, call.op = .page regionId page) ∨ call.op = .ack .scrapeJobs) :
    ∃ body job, start = .fetch body ∧ decodeScrapeJob body = .ok job ∧
      FetchLog chunkSize job log := by
  cases start with
  | dispatch =>
      -- the dispatcher publishes jobs only
      have hdispatch := hlog call hcall
      rcases hop with ⟨body, hop⟩ | ⟨regionId, page, hop⟩ | hop <;> rw [hop] at hdispatch <;>
        cases hdispatch
  | fetch body =>
      cases hdecode : decodeScrapeJob body with
      | ok job =>
          simp only [marketLog, hdecode] at hlog
          exact ⟨body, job, rfl, hdecode, hlog⟩
      | error error =>
          simp only [marketLog, hdecode] at hlog
          rw [hlog] at hcall
          cases hcall
  | write body =>
      cases hdecode : decodeOrdersChunk body with
      | ok message =>
          simp only [marketLog, hdecode] at hlog
          -- a write worker takes the time, inserts and acknowledges its chunk
          rcases hlog.calls call hcall with hwrite | ⟨now, hwrite⟩ | hwrite <;>
            rcases hop with ⟨body, hop⟩ | ⟨regionId, page, hop⟩ | hop <;>
            cases hwrite.symm.trans hop
      | error error =>
          simp only [marketLog, hdecode] at hlog
          rw [hlog] at hcall
          cases hcall

/-- Only a write worker inserts or acknowledges a chunk. -/
theorem writeLog_of_call {chunkSize : ℕ} {start : Start} {log : List MarketCall}
    (hlog : marketLog chunkSize start log) {call : MarketCall} (hcall : call ∈ log)
    (hop : (∃ documents, call.op = .insertMany documents) ∨ call.op = .ack .results) :
    ∃ body message, start = .write body ∧ decodeOrdersChunk body = .ok message ∧
      WriteLog message log := by
  cases start with
  | dispatch =>
      have hdispatch := hlog call hcall
      rcases hop with ⟨documents, hop⟩ | hop <;> rw [hop] at hdispatch <;> cases hdispatch
  | fetch body =>
      cases hdecode : decodeScrapeJob body with
      | ok job =>
          simp only [marketLog, hdecode] at hlog
          -- a fetch worker inserts nothing
          have hfetch := hlog.calls call hcall
          rcases hop with ⟨documents, hop⟩ | hop <;> rw [hop] at hfetch <;> cases hfetch
      | error error =>
          simp only [marketLog, hdecode] at hlog
          rw [hlog] at hcall
          cases hcall
  | write body =>
      cases hdecode : decodeOrdersChunk body with
      | ok message =>
          simp only [marketLog, hdecode] at hlog
          exact ⟨body, message, rfl, hdecode, hlog⟩
      | error error =>
          simp only [marketLog, hdecode] at hlog
          rw [hlog] at hcall
          cases hcall

theorem marketLog_body (chunkSize : ℕ) (start : Start) :
    marketLog chunkSize start [] ∧
      ((market chunkSize).body start).Records (marketLog chunkSize start) (fun _ _ => True) [] := by
  cases start with
  | dispatch =>
      refine ⟨by simp [marketLog], ?_⟩
      have hissues : ((market chunkSize).body .dispatch).Issues DispatchCall :=
        Program.Issues.bind issues_dispatchScrape fun _ => trivial
      exact hissues.records (by simp)
  | fetch body =>
      cases hdecode : decodeScrapeJob body with
      | ok job =>
          have hlog : marketLog chunkSize (.fetch body) = FetchLog chunkSize job := by
            funext log
            simp only [marketLog, hdecode]
          rw [hlog]
          exact ⟨fetchLog_of_pages (by simp), records_fetchMessage hdecode⟩
      | error error =>
          -- a body that cannot be decoded is not worked on
          refine ⟨by simp [marketLog, hdecode], ?_⟩
          simp [market, fetchMessage, hdecode, Program.Records]
  | write body =>
      cases hdecode : decodeOrdersChunk body with
      | ok message =>
          have hlog : marketLog chunkSize (.write body) = WriteLog message := by
            funext log
            simp only [marketLog, hdecode]
          rw [hlog]
          exact ⟨⟨by simp, by simp, by simp⟩, records_writeMessage hdecode⟩
      | error error =>
          refine ⟨by simp [marketLog, hdecode], ?_⟩
          simp [market, writeMessage, hdecode, Program.Records]

end EveBuild.Market
