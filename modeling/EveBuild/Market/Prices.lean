import EveBuild.Data.Numerals
import EveBuild.Data.Value
import Mathlib.Data.Finset.Basic
import Mathlib.Data.List.Perm.Basic

/-!
# The market prices

`app/routes/market_prices.py` and `app/services/market_prices.py`: prices are refreshed from ESI by
whoever has the key, and are listed, all or some of them, and read one by one.

A refresh upserts all prices of a response at the same time, and a document at a time is written.
So the upserts of refreshes that overlap are carried out in any order, an upsert that fails may
have been carried out, and those that are still under way when `gather` raises go on after the
request has failed.  A list is read through a cursor, document by document.

`prices_settled` says what holds in every state that is reached: what the documents are, where
every document that is shown has come from, what a refresh that has succeeded has done and what a
list has in it.  The clock and the responses of ESI are not determined.
-/

namespace EveBuild.Market.Prices

open Numerals (CharTable intOf)

/-! ## Data -/

/-- `esi.MarketPriceEntry`. -/
structure MarketPriceEntry where
  typeId : ℤ
  adjustedPrice : Option Number
  averagePrice : Option Number
deriving DecidableEq

/-- An entry of the response, which may have no `type_id`. -/
structure RawEntry where
  typeId? : Option ℤ
  adjustedPrice : Option Number
  averagePrice : Option Number

/-- A document of `market_prices`, without its `_id`. -/
structure PriceDocument where
  adjustedPrice : Option Number
  averagePrice : Option Number
  updatedAt : ℤ
deriving DecidableEq

/-- What the handlers raise. -/
inductive PriceError
  | unauthorized
  | notFound
  | valueError
  | typeError
  | keyError
  | request
  | database
deriving DecidableEq

/-- `get_market_prices`, of the response. -/
def getMarketPrices (response : List RawEntry) : Except PriceError (List MarketPriceEntry) :=
  response.mapM fun entry => match entry.typeId? with
    | some typeId => .ok ⟨typeId, entry.adjustedPrice, entry.averagePrice⟩
    | none => .error .keyError

/-- `_parse_type_ids`. -/
def parseTypeIds (table : CharTable) (typeIds : Option String) :
    Except PriceError (Option (Finset ℤ)) :=
  match typeIds with
  | none => return none
  | some text =>
      if text = "" then return none
      else do
        let values := (text.toList.splitOn ',').filter (· ≠ [])
        let ids ← values.mapM fun value => (intOf table value).mapError fun _ => .valueError
        return some ids.toFinset

/-- The document is one that the query of `list_market_prices` matches: an empty set is no
condition. -/
def IsAsked (typeIds : Option (Finset ℤ)) (typeId : ℤ) : Prop :=
  ∀ ids ∈ typeIds, ids ≠ ∅ → typeId ∈ ids

instance (typeIds : Option (Finset ℤ)) (typeId : ℤ) : Decidable (IsAsked typeIds typeId) := by
  unfold IsAsked
  infer_instance

/-- `secrets.compare_digest`, which takes strings of ASCII characters. -/
def compareDigest (a b : String) : Except PriceError Bool :=
  if (a.toList ++ b.toList).all fun c => c.toNat < 128 then return a = b else throw .typeError

/-- The condition of `refresh_prices`, the other way round. -/
def isAuthorized (refreshApiKey : String) (xApiKey : Option String) : Except PriceError Bool :=
  if refreshApiKey = "" then return false else compareDigest (xApiKey.getD "") refreshApiKey

/-! ## Requests -/

inductive Request
  | listPrices (typeIds : Option String)
  | getPrice (typeId : ℤ)
  | refreshPrices (xApiKey : Option String)
deriving DecidableEq

inductive Reply
  | prices (documents : List (ℤ × PriceDocument))
  | price (typeId : ℤ) (document : PriceDocument)
  | upserted (count : ℕ)

/-- What a request still waits for.  When `gather` has raised, the other upserts go on. -/
inductive Task
  | fetching
  | upserting (entries : List MarketPriceEntry) (now : ℤ) (waiting : List MarketPriceEntry)
      (raised : Bool)
  | listing (typeIds : Option (Finset ℤ)) (due : List ℤ) (found : List (ℤ × PriceDocument))
  | getting (typeId : ℤ)

/-- An upsert of a request that has been carried out. -/
structure Upsert where
  request : ℕ
  entry : MarketPriceEntry
  now : ℤ
deriving DecidableEq

/-- The document that `_upsert_price` sets. -/
def Upsert.document (upsert : Upsert) : PriceDocument :=
  ⟨upsert.entry.adjustedPrice, upsert.entry.averagePrice, upsert.now⟩

/-- A request that has begun, and the upserts that had been carried out before. -/
structure Entered where
  request : Request
  earlier : List Upsert

/-- The documents and what the requests wait for, and what has happened: the requests in their
order, the replies, the responses of ESI and the upserts, with the newest first. -/
structure State where
  documents : Dict ℤ PriceDocument
  tasks : ℕ → Option Task
  requests : List Entered
  replies : List (ℕ × Except PriceError Reply)
  responses : List (ℕ × List MarketPriceEntry × ℤ)
  applied : List Upsert

def State.initial (documents : Dict ℤ PriceDocument) : State :=
  ⟨documents, fun _ => none, [], [], [], []⟩

/-- What an upsert comes to. -/
inductive Outcome
  | done
  | error (carriedOut : Bool)
deriving DecidableEq

def Outcome.carriedOut : Outcome → Bool
  | done => true
  | error carriedOut => carriedOut

/-- What happens next. -/
inductive Event
  | request (request : Request)
  | response (request : ℕ) (answer : Except PriceError (List RawEntry)) (now : ℤ)
  | upsert (request index : ℕ) (outcome : Outcome)
  | next (request : ℕ) (typeId : ℤ)
  | exhausted (request : ℕ)
  | findOne (request : ℕ)
  | failed (request : ℕ)

namespace State

variable (state : State)

/-- What the request waits for from now on. -/
def wait (request : ℕ) (task : Option Task) : State :=
  { state with tasks := Function.update state.tasks request task }

def reply (request : ℕ) (result : Except PriceError Reply) : State :=
  { state with replies := (request, result) :: state.replies }

/-- `_upsert_price`. -/
def upsertPrice (upsert : Upsert) : State :=
  { state with
    documents := state.documents.set upsert.entry.typeId upsert.document
    applied := upsert :: state.applied }

/-- The request begins. -/
def enter (request : Request) : State :=
  { state with requests := state.requests ++ [⟨request, state.applied⟩] }

end State

/-- What is replied when one of the upserts has come to an end. -/
def replyOf (entries waiting : List MarketPriceEntry) (raised : Bool) (outcome : Outcome) :
    Option (Except PriceError Reply) :=
  if raised then none
  else if outcome ≠ .done then some (.error .database)
  else if waiting = [] then some (.ok (.upserted entries.length))
  else none

section Steps

variable (table : CharTable) (refreshApiKey : String)

/-- A handler up to its first call. -/
def begin (state : State) (request : ℕ) : Request → State
  | .listPrices typeIds => match parseTypeIds table typeIds with
    | .ok typeIds => state.wait request
        (some (.listing typeIds (state.documents.keys.filter (IsAsked typeIds)) []))
    | .error error => state.reply request (.error error)
  | .getPrice typeId => state.wait request (some (.getting typeId))
  | .refreshPrices xApiKey => match isAuthorized refreshApiKey xApiKey with
    | .ok true => state.wait request (some .fetching)
    | .ok false => state.reply request (.error .unauthorized)
    | .error error => state.reply request (.error error)

/-- The state after an event, if it can happen. -/
def step (state : State) : Event → Option State
  | .request request =>
      some (begin table refreshApiKey (state.enter request) state.requests.length request)
  | .response request answer now => match state.tasks request with
    | some .fetching => match answer >>= getMarketPrices with
      | .error error => some ((state.wait request none).reply request (.error error))
      | .ok entries =>
          let received := { state with responses := (request, entries, now) :: state.responses }
          if entries = [] then some ((received.wait request none).reply request (.ok (.upserted 0)))
          else some (received.wait request (some (.upserting entries now entries false)))
    | _ => none
  | .upsert request index outcome => match state.tasks request with
    | some (.upserting entries now waiting raised) => match waiting[index]? with
      | none => none
      | some entry =>
          let rest := waiting.eraseIdx index
          let written := if outcome.carriedOut then state.upsertPrice ⟨request, entry, now⟩ else state
          let waits := written.wait request (if rest = [] then none
            else some (.upserting entries now rest (raised || outcome ≠ .done)))
          match replyOf entries rest raised outcome with
          | some result => some (waits.reply request result)
          | none => some waits
    | _ => none
  | .next request typeId => match state.tasks request with
    | some (.listing typeIds due found) =>
        if typeId ∈ found.map Prod.fst ∨ ¬ IsAsked typeIds typeId then none
        else (state.documents.get? typeId).map fun document =>
          state.wait request (some (.listing typeIds due (found ++ [(typeId, document)])))
    | _ => none
  | .exhausted request => match state.tasks request with
    | some (.listing _ due found) =>
        if ∀ typeId ∈ due, typeId ∈ found.map Prod.fst then
          some ((state.wait request none).reply request (.ok (.prices found)))
        else none
    | _ => none
  | .findOne request => match state.tasks request with
    | some (.getting typeId) =>
        some ((state.wait request none).reply request
          (match state.documents.get? typeId with
            | some document => .ok (.price typeId document)
            | none => .error .notFound))
    | _ => none
  | .failed request => match state.tasks request with
    | some (.listing ..) | some (.getting _) =>
        some ((state.wait request none).reply request (.error .database))
    | _ => none

/-- The state after a list of events, if they can happen. -/
def run (state : State) (events : List Event) : Option State :=
  events.foldlM (step table refreshApiKey) state

end Steps

/-! ## What holds in every state -/

/-- The entries whose upserts a request has carried out. -/
def State.appliedBy (state : State) (request : ℕ) : List MarketPriceEntry :=
  (state.applied.filter fun upsert => upsert.request = request).map Upsert.entry

/-- The document was there at the start, or is that of an upsert: all of one entry, with the time
of its response. -/
def Known (initial : Dict ℤ PriceDocument) (state : State) (typeId : ℤ)
    (document : PriceDocument) : Prop :=
  initial.get? typeId = some document ∨
    ∃ upsert ∈ state.applied, upsert.entry.typeId = typeId ∧ upsert.document = document

/-- There was a document of the type after these upserts. -/
def There (initial : Dict ℤ PriceDocument) (earlier : List Upsert) (typeId : ℤ) : Prop :=
  typeId ∈ initial.keys ∨ ∃ upsert ∈ earlier, upsert.entry.typeId = typeId

/-- What a list has in it: documents that were asked for, each once, and among them all that were
there after the upserts that had been carried out before it began. -/
structure Listed (initial : Dict ℤ PriceDocument) (state : State) (earlier : List Upsert)
    (typeIds : Option (Finset ℤ)) (due : List ℤ) (found : List (ℤ × PriceDocument)) : Prop where
  nodup : (found.map Prod.fst).Nodup
  asked : ∀ shown ∈ found, IsAsked typeIds shown.1
  known : ∀ shown ∈ found, Known initial state shown.1 shown.2
  due : ∀ typeId, There initial earlier typeId → IsAsked typeIds typeId → typeId ∈ due

section Invariant

variable (table : CharTable) (refreshApiKey : String) (initial : Dict ℤ PriceDocument)

/-- The request has the key. -/
def HasKey (state : State) (request : ℕ) : Prop :=
  ∃ xApiKey earlier, state.requests[request]? = some ⟨.refreshPrices xApiKey, earlier⟩ ∧
    isAuthorized refreshApiKey xApiKey = .ok true

/-- The request is for these types, and has begun after these upserts. -/
def Asks (state : State) (request : ℕ) (earlier : List Upsert) (typeIds : Option (Finset ℤ)) :
    Prop :=
  ∃ text, state.requests[request]? = some ⟨.listPrices text, earlier⟩ ∧
    parseTypeIds table text = .ok typeIds

/-- The reply is right. -/
def Justified (state : State) (request : ℕ) : Except PriceError Reply → Prop
  | .ok (.upserted count) => state.tasks request = none ∧ ∃ entries now,
      (request, entries, now) ∈ state.responses ∧ count = entries.length ∧
        (state.appliedBy request).Perm entries
  | .ok (.prices documents) => ∃ earlier typeIds, Asks table state request earlier typeIds ∧
      Listed initial state earlier typeIds (documents.map Prod.fst) documents
  | .ok (.price typeId document) =>
      (∃ earlier, state.requests[request]? = some ⟨.getPrice typeId, earlier⟩) ∧
        Known initial state typeId document
  | .error .notFound => ∃ entered, state.requests[request]? = some entered ∧
      ∀ typeId, entered.request = .getPrice typeId → ¬ There initial entered.earlier typeId
  | .error _ => True

/-- What a request has done before it waits. -/
def Underway (state : State) (request : ℕ) : Task → Prop
  | .fetching => HasKey refreshApiKey state request ∧
      ∀ response ∈ state.responses, response.1 ≠ request
  | .upserting entries now waiting raised => (request, entries, now) ∈ state.responses ∧
      (∀ entry ∈ waiting, entry ∈ entries) ∧
      (raised = false → (state.appliedBy request ++ waiting).Perm entries)
  | .listing typeIds due found => ∃ earlier, Asks table state request earlier typeIds ∧
      Listed initial state earlier typeIds due found
  | .getting typeId => ∃ earlier, state.requests[request]? = some ⟨.getPrice typeId, earlier⟩

/-- The invariant.  A document is that of the newest upsert of its type; upserts are of entries of
responses, and these of requests with the key.  The upserts before a request are the older ones. -/
structure Settled (state : State) : Prop where
  earlier : ∀ entered ∈ state.requests, entered.earlier <:+ state.applied
  current : ∀ typeId, state.documents.get? typeId =
    ((state.applied.find? fun upsert => upsert.entry.typeId = typeId).map Upsert.document).or
      (initial.get? typeId)
  origin : ∀ upsert ∈ state.applied, ∃ entries,
    (upsert.request, entries, upsert.now) ∈ state.responses ∧ upsert.entry ∈ entries
  authorized : ∀ response ∈ state.responses, HasKey refreshApiKey state response.1
  replies : ∀ reply ∈ state.replies, Justified table initial state reply.1 reply.2
  underway : ∀ request task, state.tasks request = some task →
    Underway table refreshApiKey initial state request task

variable {table refreshApiKey initial} {state : State}

theorem settled_initial : Settled table refreshApiKey initial (.initial initial) where
  earlier _ hentered := by cases hentered
  current _ := rfl
  origin _ hupsert := by cases hupsert
  authorized _ hresponse := by cases hresponse
  replies _ hreply := by cases hreply
  underway _ _ htask := by cases htask

/-! ### What stays -/

/-- Nothing that has happened is forgotten. -/
structure Later (state later : State) : Prop where
  requests : state.requests <+: later.requests
  responses : state.responses ⊆ later.responses
  applied : state.applied ⊆ later.applied

variable {later : State} {request : ℕ}

theorem Later.getElem? (hlater : Later state later) {entered : Entered} {number : ℕ}
    (hrequest : state.requests[number]? = some entered) :
    later.requests[number]? = some entered := by
  obtain ⟨added, hadded⟩ := hlater.requests
  obtain ⟨hlt, -⟩ := List.getElem?_eq_some_iff.mp hrequest
  rw [← hadded, List.getElem?_append_left hlt, hrequest]

theorem Later.known (hlater : Later state later) {typeId : ℤ} {document : PriceDocument}
    (hknown : Known initial state typeId document) : Known initial later typeId document :=
  hknown.imp_right fun ⟨upsert, hupsert, hdocument⟩ => ⟨upsert, hlater.applied hupsert, hdocument⟩

theorem Later.listed (hlater : Later state later) {earlier : List Upsert}
    {typeIds : Option (Finset ℤ)} {due : List ℤ} {found : List (ℤ × PriceDocument)}
    (hlisted : Listed initial state earlier typeIds due found) :
    Listed initial later earlier typeIds due found :=
  ⟨hlisted.nodup, hlisted.asked, fun shown hshown => hlater.known (hlisted.known shown hshown),
    hlisted.due⟩

theorem Later.asks (hlater : Later state later) {earlier : List Upsert}
    {typeIds : Option (Finset ℤ)} (hasks : Asks table state request earlier typeIds) :
    Asks table later request earlier typeIds := by
  obtain ⟨text, hrequest, hparse⟩ := hasks
  exact ⟨text, hlater.getElem? hrequest, hparse⟩

theorem Later.hasKey (hlater : Later state later) {number : ℕ}
    (hkey : HasKey refreshApiKey state number) : HasKey refreshApiKey later number := by
  obtain ⟨xApiKey, earlier, hrequest, hok⟩ := hkey
  exact ⟨xApiKey, earlier, hlater.getElem? hrequest, hok⟩

theorem Later.justified (hlater : Later state later)
    {result : Except PriceError Reply} (hresult : Justified table initial state request result)
    (hdone : ∀ count, result = .ok (.upserted count) → state.tasks request = none →
      later.tasks request = none ∧ later.appliedBy request = state.appliedBy request) :
    Justified table initial later request result := by
  rcases result with error | reply
  · cases error with
    | notFound =>
        obtain ⟨entered, hrequest, hnone⟩ := hresult
        exact ⟨entered, hlater.getElem? hrequest, hnone⟩
    | _ => trivial
  · cases reply with
    | prices documents =>
        obtain ⟨earlier, typeIds, hasks, hlisted⟩ := hresult
        exact ⟨earlier, typeIds, hlater.asks hasks, hlater.listed hlisted⟩
    | price typeId document =>
        obtain ⟨⟨earlier, hrequest⟩, hknown⟩ := hresult
        exact ⟨⟨earlier, hlater.getElem? hrequest⟩, hlater.known hknown⟩
    | upserted count =>
        obtain ⟨hnone, entries, now, hresponse, hcount, hperm⟩ := hresult
        obtain ⟨htask, happlied⟩ := hdone count rfl hnone
        exact ⟨htask, entries, now, hlater.responses hresponse, hcount, happlied ▸ hperm⟩

theorem Later.underway (hlater : Later state later)
    (happlied : later.appliedBy request = state.appliedBy request)
    (hfresh : ∀ response ∈ later.responses, response ∈ state.responses ∨ response.1 ≠ request)
    {task : Task} (hunderway : Underway table refreshApiKey initial state request task) :
    Underway table refreshApiKey initial later request task := by
  cases task with
  | fetching =>
      refine ⟨hlater.hasKey hunderway.1, fun response hresponse => ?_⟩
      exact (hfresh response hresponse).elim (hunderway.2 response) id
  | upserting entries now waiting raised =>
      obtain ⟨hresponse, hwaiting, hperm⟩ := hunderway
      exact ⟨hlater.responses hresponse, hwaiting, fun hraised => happlied ▸ hperm hraised⟩
  | listing typeIds due found =>
      obtain ⟨earlier, hasks, hlisted⟩ := hunderway
      exact ⟨earlier, hlater.asks hasks, hlater.listed hlisted⟩
  | getting typeId =>
      obtain ⟨earlier, hrequest⟩ := hunderway
      exact ⟨earlier, hlater.getElem? hrequest⟩

/-! ### What an event does -/

theorem Settled.wait (hsettled : Settled table refreshApiKey initial state) {task? : Option Task}
    (htask : ∀ task ∈ task?, Underway table refreshApiKey initial state request task)
    (hopen : task? = none ∨ ∀ count, (request, .ok (.upserted count)) ∉ state.replies) :
    Settled table refreshApiKey initial (state.wait request task?) := by
  have hlater : Later state (state.wait request task?) :=
    ⟨List.prefix_rfl, List.Subset.refl _, List.Subset.refl _⟩
  refine ⟨hsettled.earlier, hsettled.current, hsettled.origin, hsettled.authorized,
    fun reply hreply => ?_, fun number task hnumber => ?_⟩
  · refine hlater.justified (hsettled.replies reply hreply) fun count hcount hnone => ⟨?_, rfl⟩
    by_cases heq : reply.1 = request
    · rcases hopen with rfl | hopen
      · exact (congrArg _ heq).trans (Function.update_self ..)
      · exact absurd (by rw [← heq, ← hcount]; exact hreply) (hopen count)
    · exact (Function.update_of_ne heq ..).trans hnone
  · refine hlater.underway rfl (fun _ => Or.inl) ?_
    change Function.update state.tasks request task? number = some task at hnumber
    by_cases heq : number = request
    · subst heq
      rw [Function.update_self] at hnumber
      exact htask task hnumber
    · rw [Function.update_of_ne heq] at hnumber
      exact hsettled.underway number task hnumber

theorem Settled.reply (hsettled : Settled table refreshApiKey initial state)
    {result : Except PriceError Reply}
    (hresult : Justified table initial state request result) :
    Settled table refreshApiKey initial (state.reply request result) := by
  have hlater : Later state (state.reply request result) :=
    ⟨List.prefix_rfl, List.Subset.refl _, List.Subset.refl _⟩
  refine ⟨hsettled.earlier, hsettled.current, hsettled.origin, hsettled.authorized,
    fun reply hreply => ?_, fun number task hnumber =>
      hlater.underway rfl (fun _ => Or.inl) (hsettled.underway number task hnumber)⟩
  have hjustified : Justified table initial state reply.1 reply.2 := by
    rcases List.mem_cons.mp hreply with rfl | hreply
    · exact hresult
    · exact hsettled.replies reply hreply
  exact hlater.justified hjustified fun _ _ htask => ⟨htask, rfl⟩

theorem Settled.enter (hsettled : Settled table refreshApiKey initial state) (asked : Request) :
    Settled table refreshApiKey initial (state.enter asked) := by
  have hlater : Later state (state.enter asked) :=
    ⟨List.prefix_append .., List.Subset.refl _, List.Subset.refl _⟩
  refine ⟨fun entered hentered => ?_, hsettled.current, hsettled.origin,
    fun response hresponse => hlater.hasKey (hsettled.authorized response hresponse),
    fun reply hreply => hlater.justified (hsettled.replies reply hreply) fun _ _ htask =>
      ⟨htask, rfl⟩,
    fun number task hnumber =>
      hlater.underway rfl (fun _ => Or.inl) (hsettled.underway number task hnumber)⟩
  rcases List.mem_append.mp hentered with hentered | hentered
  · exact hsettled.earlier entered hentered
  · obtain rfl := List.mem_singleton.mp hentered
    exact List.suffix_refl _

/-- A response is received by a request that waits for nothing else. -/
theorem Settled.receive (hsettled : Settled table refreshApiKey initial state)
    (htask : state.tasks request = none) (hkey : HasKey refreshApiKey state request)
    (entries : List MarketPriceEntry) (now : ℤ) :
    Settled table refreshApiKey initial
      { state with responses := (request, entries, now) :: state.responses } := by
  have hlater : Later state
      { state with responses := (request, entries, now) :: state.responses } :=
    ⟨List.prefix_rfl, List.subset_cons_self .., List.Subset.refl _⟩
  refine ⟨hsettled.earlier, hsettled.current, fun upsert hupsert => ?_,
    fun response hresponse => ?_,
    fun reply hreply => hlater.justified (hsettled.replies reply hreply) fun _ _ htask =>
      ⟨htask, rfl⟩,
    fun number task hnumber => ?_⟩
  · obtain ⟨others, hothers, hmem⟩ := hsettled.origin upsert hupsert
    exact ⟨others, List.mem_cons_of_mem _ hothers, hmem⟩
  · rcases List.mem_cons.mp hresponse with rfl | hresponse
    · exact hkey
    · exact hsettled.authorized response hresponse
  · refine hlater.underway rfl (fun response hresponse => ?_)
      (hsettled.underway number task hnumber)
    rcases List.mem_cons.mp hresponse with rfl | hresponse
    · refine Or.inr fun heq => ?_
      rw [← heq, htask] at hnumber
      cases hnumber
    · exact Or.inl hresponse

theorem appliedBy_upsertPrice (upsert : Upsert) (number : ℕ) :
    (state.upsertPrice upsert).appliedBy number =
      if upsert.request = number then upsert.entry :: state.appliedBy number
      else state.appliedBy number := by
  simp only [State.appliedBy, State.upsertPrice, List.filter_cons]
  split_ifs with heq <;> simp_all

/-- An upsert is carried out for a request that waits for nothing else and has not succeeded. -/
theorem Settled.upsertPrice (hsettled : Settled table refreshApiKey initial state)
    {upsert : Upsert} {entries : List MarketPriceEntry}
    (hresponse : (upsert.request, entries, upsert.now) ∈ state.responses)
    (hentry : upsert.entry ∈ entries) (htask : state.tasks upsert.request = none)
    (hopen : ∀ count, (upsert.request, .ok (.upserted count)) ∉ state.replies) :
    Settled table refreshApiKey initial (state.upsertPrice upsert) := by
  have hlater : Later state (state.upsertPrice upsert) :=
    ⟨List.prefix_rfl, List.Subset.refl _, List.subset_cons_self ..⟩
  have happlied : ∀ number, number ≠ upsert.request →
      (state.upsertPrice upsert).appliedBy number = state.appliedBy number := fun number hne =>
    (appliedBy_upsertPrice upsert number).trans (if_neg hne.symm)
  refine ⟨fun entered hentered => ?_, fun typeId => ?_, fun other hother => ?_,
    hsettled.authorized, fun reply hreply => ?_, fun number task hnumber => ?_⟩
  · exact (hsettled.earlier entered hentered).trans (List.suffix_cons ..)
  · -- the newest upsert of the type is this one, or the one that it was before
    rw [State.upsertPrice, Dict.get?_set, List.find?_cons]
    by_cases heq : upsert.entry.typeId = typeId
    · simp [heq]
    · simp [heq, Ne.symm heq, hsettled.current typeId]
  · rcases List.mem_cons.mp hother with rfl | hother
    · exact ⟨entries, hresponse, hentry⟩
    · exact hsettled.origin other hother
  · refine hlater.justified (hsettled.replies reply hreply) fun count hcount hnone =>
      ⟨hnone, happlied _ ?_⟩
    intro heq
    exact hopen count (by rw [← heq, ← hcount]; exact hreply)
  · have hne : number ≠ upsert.request := by
      rintro rfl
      rw [show state.tasks upsert.request = some task from hnumber] at htask
      cases htask
    exact hlater.underway (happlied number hne) (fun _ => Or.inl)
      (hsettled.underway number task hnumber)

/-- A request that waits has not succeeded. -/
theorem Settled.not_upserted (hsettled : Settled table refreshApiKey initial state) {task : Task}
    (htask : state.tasks request = some task) (count : ℕ) :
    (request, .ok (.upserted count)) ∉ state.replies := by
  intro hreply
  have hnone := (hsettled.replies _ hreply).1
  rw [htask] at hnone
  cases hnone

theorem Settled.stop (hsettled : Settled table refreshApiKey initial state) (request : ℕ) :
    Settled table refreshApiKey initial (state.wait request none) :=
  hsettled.wait (by simp) (.inl rfl)

/-- A request that does not ask for one price may raise what it likes. -/
theorem justified_error {entered : Entered} (hrequest : state.requests[request]? = some entered)
    (hasked : ∀ typeId, entered.request ≠ .getPrice typeId) (error : PriceError) :
    Justified table initial state request (.error error) := by
  cases error with
  | notFound => exact ⟨entered, hrequest, fun typeId heq => absurd heq (hasked typeId)⟩
  | _ => trivial

/-- No document is ever deleted. -/
theorem Settled.mem_keys (hsettled : Settled table refreshApiKey initial state) {typeId : ℤ}
    (hthere : There initial state.applied typeId) : typeId ∈ state.documents.keys := by
  rw [Dict.mem_keys_iff, hsettled.current]
  rcases hthere with hinitial | ⟨upsert, hupsert, rfl⟩
  · obtain ⟨document, hdocument⟩ := Dict.mem_keys_iff.mp hinitial
    rw [hdocument]
    cases state.applied.find? fun upsert => upsert.entry.typeId = typeId <;> simp
  · obtain ⟨newest, hnewest⟩ : ∃ newest, (state.applied.find? fun other =>
        other.entry.typeId = upsert.entry.typeId) = some newest :=
      Option.isSome_iff_exists.mp (List.find?_isSome.mpr ⟨upsert, hupsert, by simp⟩)
    exact ⟨newest.document, by rw [hnewest]; rfl⟩

theorem There.mono {earlier applied : List Upsert} {typeId : ℤ}
    (hthere : There initial earlier typeId) (hsuffix : earlier <:+ applied) :
    There initial applied typeId :=
  hthere.imp_right fun ⟨upsert, hupsert, htypeId⟩ => ⟨upsert, hsuffix.subset hupsert, htypeId⟩

/-- A document is the one of an upsert, or was there at the start. -/
theorem Settled.known (hsettled : Settled table refreshApiKey initial state) {typeId : ℤ}
    {document : PriceDocument} (hdocument : state.documents.get? typeId = some document) :
    Known initial state typeId document := by
  rw [hsettled.current] at hdocument
  cases hfind : state.applied.find? fun upsert => upsert.entry.typeId = typeId with
  | none =>
      rw [hfind] at hdocument
      exact .inl hdocument
  | some upsert =>
      rw [hfind] at hdocument
      have htypeId : upsert.entry.typeId = typeId := by simpa using List.find?_some hfind
      exact .inr ⟨upsert, List.mem_of_find?_eq_some hfind, htypeId, Option.some_inj.mp hdocument⟩

theorem Settled.begin (hsettled : Settled table refreshApiKey initial state) (asked : Request) :
    Settled table refreshApiKey initial
      (begin table refreshApiKey (state.enter asked) state.requests.length asked) := by
  have hentered := hsettled.enter asked
  have hrequest : (state.enter asked).requests[state.requests.length]? =
      some ⟨asked, state.applied⟩ := by
    simp [State.enter]
  -- a new number is not that of a request that has been replied to
  have hopen : ∀ count, (state.requests.length, .ok (.upserted count)) ∉
      (state.enter asked).replies := by
    intro count hreply
    obtain ⟨-, entries, now, hresponse, -⟩ := hsettled.replies _ hreply
    obtain ⟨xApiKey, earlier, hold, -⟩ := hsettled.authorized _ hresponse
    simp at hold
  cases asked with
  | listPrices text =>
      simp only [Prices.begin]
      cases hparse : parseTypeIds table text with
      | error error => exact hentered.reply (justified_error hrequest (by simp) error)
      | ok typeIds =>
          refine hentered.wait (fun task htask => ?_) (.inr hopen)
          cases htask
          refine ⟨state.applied, ⟨text, hrequest, hparse⟩, by simp, by simp, by simp, ?_⟩
          intro typeId hthere hasked
          exact List.mem_filter.mpr ⟨hentered.mem_keys hthere, by simpa using hasked⟩
  | getPrice typeId =>
      refine hentered.wait (fun task htask => ?_) (.inr hopen)
      cases htask
      exact ⟨_, hrequest⟩
  | refreshPrices xApiKey =>
      simp only [Prices.begin]
      cases hkey : isAuthorized refreshApiKey xApiKey with
      | error error => exact hentered.reply (justified_error hrequest (by simp) error)
      | ok allowed =>
          cases allowed with
          | false => exact hentered.reply trivial
          | true =>
              refine hentered.wait (fun task htask => ?_) (.inr hopen)
              cases htask
              refine ⟨⟨xApiKey, _, hrequest, hkey⟩, fun response hresponse heq => ?_⟩
              obtain ⟨_, _, hold, -⟩ := hsettled.authorized response hresponse
              simp [heq] at hold

/-- A response arrives. -/
theorem Settled.response (hsettled : Settled table refreshApiKey initial state)
    (htask : state.tasks request = some .fetching) (entries : List MarketPriceEntry) (now : ℤ) :
    let received := { state with responses := (request, entries, now) :: state.responses }
    let waits := received.wait request
      (if entries = [] then none else some (.upserting entries now entries false))
    Settled table refreshApiKey initial waits ∧
      (entries = [] → Justified table initial waits request (.ok (.upserted 0))) := by
  intro received waits
  obtain ⟨hkey, hfirst⟩ := hsettled.underway _ _ htask
  have hreceived := (hsettled.stop request).receive (Function.update_self ..) hkey entries now
  -- the request has no upserts yet, as these are of responses
  have hnone : state.appliedBy request = [] := by
    rw [State.appliedBy, List.map_eq_nil_iff, List.filter_eq_nil_iff]
    intro upsert hupsert heq
    obtain ⟨others, hothers, -⟩ := hsettled.origin upsert hupsert
    exact hfirst _ hothers (of_decide_eq_true heq)
  have hwaits : waits = State.wait
      { state.wait request none with responses := (request, entries, now) :: state.responses }
      request (if entries = [] then none else some (.upserting entries now entries false)) := by
    simp [State.wait, waits, received]
  refine ⟨hwaits ▸ hreceived.wait (fun task hsome => ?_)
    (.inr fun count => hsettled.not_upserted htask count), ?_⟩
  · split at hsome
    · cases hsome
    · cases hsome
      refine ⟨List.mem_cons_self, fun _ => id, fun _ => ?_⟩
      change (state.appliedBy request ++ entries).Perm entries
      simp [hnone]
  · rintro rfl
    refine ⟨by simp [waits, State.wait], [], now, List.mem_cons_self, rfl, ?_⟩
    exact List.Perm.of_eq hnone

/-- An upsert of a request comes to an end. -/
theorem Settled.upsert (hsettled : Settled table refreshApiKey initial state)
    {entries waiting : List MarketPriceEntry} {now : ℤ} {raised : Bool} {index : ℕ}
    {entry : MarketPriceEntry}
    (htask : state.tasks request = some (.upserting entries now waiting raised))
    (hentry : waiting[index]? = some entry) (outcome : Outcome) :
    let rest := waiting.eraseIdx index
    let written := if outcome.carriedOut then state.upsertPrice ⟨request, entry, now⟩ else state
    let waits := written.wait request (if rest = [] then none
      else some (.upserting entries now rest (raised || outcome ≠ .done)))
    Settled table refreshApiKey initial waits ∧
      ∀ result, replyOf entries rest raised outcome = some result →
        Justified table initial waits request result := by
  intro rest written waits
  obtain ⟨hresponse, hwaiting, hperm⟩ := hsettled.underway _ _ htask
  obtain ⟨hlt, hget⟩ := List.getElem?_eq_some_iff.mp hentry
  have hmem : entry ∈ entries := hwaiting entry (hget ▸ List.getElem_mem hlt)
  have hopen := hsettled.not_upserted htask
  have hstopped := hsettled.stop request
  have hwritten : Settled table refreshApiKey initial (written.wait request none) := by
    by_cases hout : outcome.carriedOut
    · simp only [written, if_pos hout]
      refine hstopped.upsertPrice ?_ hmem (Function.update_self ..) hopen
      exact hresponse
    · simp only [written, if_neg hout]
      exact hstopped
  have hresponses : written.responses = state.responses := by
    simp only [written, State.upsertPrice]
    split <;> rfl
  have hreplies : written.replies = state.replies := by
    simp only [written, State.upsertPrice]
    split <;> rfl
  -- what has been carried out and what is left make up the response, unless an upsert has failed
  have hrest : raised = false → outcome = .done →
      (written.appliedBy request ++ rest).Perm entries := by
    rintro hraised rfl
    calc written.appliedBy request ++ rest
        = entry :: (state.appliedBy request ++ rest) := by
          simp [written, Outcome.carriedOut, appliedBy_upsertPrice]
      List.Perm _ (state.appliedBy request ++ entry :: rest) := List.perm_middle.symm
      List.Perm _ (state.appliedBy request ++ waiting) :=
          (hget ▸ List.getElem_cons_eraseIdx_perm hlt).append_left _
      List.Perm _ entries := hperm hraised
  have hwaits : waits = (written.wait request none).wait request (if rest = [] then none
      else some (.upserting entries now rest (raised || outcome ≠ .done))) := by
    simp [State.wait, waits]
  constructor
  · refine hwaits ▸ hwritten.wait (fun task hsome => ?_) (.inr fun count => hreplies ▸ hopen count)
    · split at hsome
      · cases hsome
      · cases hsome
        refine ⟨hresponses ▸ hresponse, fun other hother => ?_, fun hraised => ?_⟩
        · exact hwaiting other (List.mem_of_mem_eraseIdx hother)
        · obtain ⟨hraised, hdone⟩ : raised = false ∧ outcome = .done := by simpa using hraised
          exact hrest hraised hdone
  · intro result hresult
    unfold replyOf at hresult
    split_ifs at hresult with hraised hdone hempty
    · obtain rfl := Option.some_inj.mp hresult
      trivial
    · obtain rfl := Option.some_inj.mp hresult
      have happlied := hrest (by simpa using hraised) (by simpa using hdone)
      rw [hempty, List.append_nil] at happlied
      refine ⟨?_, entries, now, hresponses ▸ hresponse, rfl, happlied⟩
      simp [waits, State.wait, hempty]

/-- A cursor gives a document. -/
theorem Settled.next (hsettled : Settled table refreshApiKey initial state)
    {typeIds : Option (Finset ℤ)} {due : List ℤ} {found : List (ℤ × PriceDocument)} {typeId : ℤ}
    {document : PriceDocument} (htask : state.tasks request = some (.listing typeIds due found))
    (hnew : typeId ∉ found.map Prod.fst) (hasked : IsAsked typeIds typeId)
    (hdocument : state.documents.get? typeId = some document) :
    Settled table refreshApiKey initial
      (state.wait request (some (.listing typeIds due (found ++ [(typeId, document)])))) := by
  obtain ⟨earlier, hasks, hlisted⟩ := hsettled.underway _ _ htask
  refine hsettled.wait (fun task hsome => ?_) (.inr (hsettled.not_upserted htask))
  cases hsome
  refine ⟨earlier, hasks, ?_, ?_, ?_, hlisted.due⟩
  · rw [List.map_append, List.nodup_append]
    refine ⟨hlisted.nodup, by simp, fun seen hseen other hother => ?_⟩
    rintro rfl
    obtain rfl : seen = typeId := by simpa using hother
    exact hnew hseen
  · intro shown hshown
    rcases List.mem_append.mp hshown with hshown | hshown
    · exact hlisted.asked shown hshown
    · obtain rfl := List.mem_singleton.mp hshown
      exact hasked
  · intro shown hshown
    rcases List.mem_append.mp hshown with hshown | hshown
    · exact hlisted.known shown hshown
    · obtain rfl := List.mem_singleton.mp hshown
      exact hsettled.known hdocument

/-- A list ends, when every document that was due has been shown. -/
theorem Settled.exhausted (hsettled : Settled table refreshApiKey initial state)
    {typeIds : Option (Finset ℤ)} {due : List ℤ} {found : List (ℤ × PriceDocument)}
    (htask : state.tasks request = some (.listing typeIds due found))
    (hall : ∀ typeId ∈ due, typeId ∈ found.map Prod.fst) :
    Settled table refreshApiKey initial
      ((state.wait request none).reply request (.ok (.prices found))) := by
  obtain ⟨earlier, hasks, hlisted⟩ := hsettled.underway _ _ htask
  exact (hsettled.stop request).reply ⟨earlier, typeIds, hasks, hlisted.nodup, hlisted.asked,
    hlisted.known, fun typeId hthere hasked => hall typeId (hlisted.due typeId hthere hasked)⟩

/-- One price is read. -/
theorem Settled.findOne (hsettled : Settled table refreshApiKey initial state) {typeId : ℤ}
    (htask : state.tasks request = some (.getting typeId)) :
    Settled table refreshApiKey initial ((state.wait request none).reply request
      (match state.documents.get? typeId with
        | some document => .ok (.price typeId document)
        | none => .error .notFound)) := by
  obtain ⟨earlier, hrequest⟩ := hsettled.underway _ _ htask
  refine (hsettled.stop request).reply ?_
  split
  · rename_i document hdocument
    exact ⟨⟨earlier, hrequest⟩, hsettled.known hdocument⟩
  · rename_i hnone
    refine ⟨_, hrequest, fun other hother hthere => ?_⟩
    obtain rfl := Request.getPrice.inj hother
    have hsuffix := hsettled.earlier _ (List.mem_of_getElem? hrequest)
    exact Dict.get?_eq_none_iff.mp hnone (hsettled.mem_keys (hthere.mono hsuffix))

/-- **One event** keeps the invariant. -/
theorem Settled.step (hsettled : Settled table refreshApiKey initial state) {event : Event}
    {later : State} (hstep : step table refreshApiKey state event = some later) :
    Settled table refreshApiKey initial later := by
  cases event with
  | request asked =>
      obtain rfl := Option.some_inj.mp hstep
      exact hsettled.begin asked
  | response request answer now =>
      simp only [Prices.step] at hstep
      split at hstep
      · rename_i htask
        obtain ⟨⟨xApiKey, earlier, hrequest, -⟩, -⟩ := hsettled.underway _ _ htask
        split at hstep
        · obtain rfl := Option.some_inj.mp hstep
          have hstopped := hsettled.stop request
          exact hstopped.reply (justified_error (by exact hrequest) (by simp) _)
        · rename_i entries hentries
          obtain ⟨hreceived, hjustified⟩ := hsettled.response htask entries now
          split at hstep
          · rename_i hempty
            obtain rfl := Option.some_inj.mp hstep
            rw [if_pos hempty] at hreceived hjustified
            exact hreceived.reply (hjustified hempty)
          · rename_i hempty
            obtain rfl := Option.some_inj.mp hstep
            rwa [if_neg hempty] at hreceived
      · cases hstep
  | upsert request index outcome =>
      simp only [Prices.step] at hstep
      split at hstep
      · rename_i entries now waiting raised htask
        split at hstep
        · cases hstep
        · rename_i entry hentry
          obtain ⟨hwaits, hjustified⟩ := hsettled.upsert htask hentry outcome
          split at hstep
          · rename_i result hresult
            obtain rfl := Option.some_inj.mp hstep
            exact hwaits.reply (hjustified result hresult)
          · obtain rfl := Option.some_inj.mp hstep
            exact hwaits
      · cases hstep
  | next request typeId =>
      simp only [Prices.step] at hstep
      split at hstep
      · rename_i typeIds due found htask
        split at hstep
        · cases hstep
        · rename_i hnot
          obtain ⟨hnew, hasked⟩ := not_or.mp hnot
          obtain ⟨document, hdocument, rfl⟩ := Option.map_eq_some_iff.mp hstep
          exact hsettled.next htask hnew (not_not.mp hasked) hdocument
      · cases hstep
  | exhausted request =>
      simp only [Prices.step] at hstep
      split at hstep
      · rename_i typeIds due found htask
        split at hstep
        · rename_i hall
          obtain rfl := Option.some_inj.mp hstep
          exact hsettled.exhausted htask hall
        · cases hstep
      · cases hstep
  | findOne request =>
      simp only [Prices.step] at hstep
      split at hstep
      · rename_i typeId htask
        obtain rfl := Option.some_inj.mp hstep
        exact hsettled.findOne htask
      · cases hstep
  | failed request =>
      simp only [Prices.step] at hstep
      split at hstep
      · obtain rfl := Option.some_inj.mp hstep
        exact (hsettled.stop request).reply trivial
      · obtain rfl := Option.some_inj.mp hstep
        exact (hsettled.stop request).reply trivial
      · cases hstep

/-- Events, one after another, keep it. -/
theorem Settled.run {events : List Event} (hsettled : Settled table refreshApiKey initial state)
    {later : State} (hrun : run table refreshApiKey state events = some later) :
    Settled table refreshApiKey initial later := by
  induction events generalizing state with
  | nil =>
      obtain rfl := Option.some_inj.mp hrun
      exact hsettled
  | cons event events ih =>
      rw [Prices.run, List.foldlM_cons] at hrun
      obtain ⟨next, hnext, hrest⟩ := Option.bind_eq_some_iff.mp hrun
      exact ih (hsettled.step hnext) hrest

variable (table refreshApiKey initial)

/-- **The prices**, in every state of every run: the documents are those of the newest upserts,
upserts are of what ESI has given to requests with the key, and every reply is right. -/
theorem prices_settled (events : List Event) (state : State)
    (hrun : run table refreshApiKey (.initial initial) events = some state) :
    Settled table refreshApiKey initial state :=
  settled_initial.run hrun

end Invariant

/-- A refresh of two prices, of which one is read too early, and the other one is listed. -/
def refreshedAndRead : List Event :=
  [.request (.refreshPrices (some "key")),
    .response 0 (.ok [⟨some 34, some (.int 5), none⟩, ⟨some 35, none, some (.int 7)⟩]) 1000,
    .request (.getPrice 34), .upsert 0 1 .done, .findOne 1, .request (.listPrices none),
    .next 2 35, .exhausted 2, .upsert 0 0 .done]

theorem prices_settled_refreshedAndRead :
    ∃ state, run Numerals.latin1 "key" (.initial .empty) refreshedAndRead = some state ∧
      state.replies.length = 3 ∧ state.documents.keys = [35, 34] ∧
      Settled Numerals.latin1 "key" .empty state :=
  ⟨_, rfl, rfl, rfl, prices_settled _ _ _ refreshedAndRead _ rfl⟩

end EveBuild.Market.Prices
