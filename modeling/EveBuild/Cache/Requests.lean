import EveBuild.Cache.Origins
import EveBuild.Cache.Reads

/-!
# Requests at the same time

`requesting` runs any number of reads and refreshes at the same time, with keys that expire
and calls that fail.  A read is that of any list with any fetch; a merged list is two reads
of one request after the other.

What a request has stored in Redis it has fetched itself (`Provided`), and a request that
has returned has made the calls of its own program (`ran_of_returned`).
-/

namespace EveBuild.Cache

open Effect

/-! ## The system -/

/-- A request. -/
inductive Request
  | read (listing : Listing) (fetch : Fetch listing.entryType)
  | refresh (character : Auth.CharacterDocument)

/-- Any number of requests. -/
def requesting (redis : Bool) : System signature CacheError Reply World Request Choice Tick where
  body
    | .read listing fetch => do return .list (← listing.read redis fetch)
    | .refresh character => do
        refreshCharacterData redis character
        return .refreshed
  enter _ _ world := some world
  respond _ := respond
  crash _ world := world
  tick
    | .expire key, world => some (world.deleteCache [key])

abbrev RequestMoment := Moment signature CacheError World Request

abbrev RequestConfig := Config signature CacheError Reply World Request

abbrev RequestEvent := Event Request Choice Tick

abbrev RequestPolicy := Policy signature CacheError World Request Choice Tick

/-! ## What a request stores -/

/-- What the request has stored in Redis is the list that it has fetched. -/
def Provided (redis : Bool) : Request → CacheLog → Prop
  | .read listing fetch, log => ∀ items ttlSeconds answer,
      ⟨.setMany items ttlSeconds, answer⟩ ∈ log →
        ∃ entries, items = [(listing.key, EntryType.encode entries)] ∧
          listing.Yields redis fetch log entries
  | .refresh _, log => ∀ items ttlSeconds answer, ⟨.setMany items ttlSeconds, answer⟩ ∉ log

section Logs

variable {redis : Bool} {listing : Listing} {fetch : Fetch listing.entryType} {log : CacheLog}

/-- What is stored with a call is given by it. -/
theorem provided_cons {call : Call signature CacheError}
    (hlog : Provided redis (.read listing fetch) log)
    (hcall : ∀ items ttlSeconds, call.op = .setMany items ttlSeconds →
      ∃ entries, items = [(listing.key, EntryType.encode entries)] ∧
        listing.Yields redis fetch log entries) :
    Provided redis (.read listing fetch) (call :: log) := by
  intro items ttlSeconds answer hmem
  have hsource : ∃ entries, items = [(listing.key, EntryType.encode entries)] ∧
      listing.Yields redis fetch log entries := by
    rcases List.mem_cons.mp hmem with rfl | hmem
    · exact hcall items ttlSeconds rfl
    · exact hlog items ttlSeconds answer hmem
  obtain ⟨entries, hitems, hyields⟩ := hsource
  exact ⟨entries, hitems, hyields.mono (List.suffix_cons _ _)⟩

/-- A part of a read that stores nothing. -/
theorem records_part {β : Type} {program : Code β} (hissues : program.Issues Quiet)
    (hlog : Provided redis (.read listing fetch) log) :
    program.Records (Provided redis (.read listing fetch)) (fun outcome later =>
      Provided redis (.read listing fetch) later ∧
        ∃ own, later = own ++ log ∧ Program.Ran program own outcome) log := by
  have hcons : ∀ (call : Call signature CacheError) (log : CacheLog), Quiet call.op →
      Provided redis (.read listing fetch) log →
      Provided redis (.read listing fetch) (call :: log) := by
    intro call log hquiet hold
    refine provided_cons hold fun items ttlSeconds hset => ?_
    rw [hset] at hquiet
    exact absurd hquiet id
  refine ((hissues.records_of_cons (Program.returns_true program) hcons hlog).and
    (Program.records_ran program log)).mono ?_
  rintro outcome later ⟨⟨hlater, _⟩, hran⟩
  exact ⟨hlater, hran⟩

theorem Fetch.quiet {entryType : EntryType} (fetch : Fetch entryType) :
    fetch.program.Issues Quiet := by
  refine fetch.requests.mono fun op hget => ?_
  cases op <;> trivial

/-- The call sets nothing in Redis but the key of the list, to these entries. -/
def SetsOnly (listing : Listing) (entries : List Document) : Op → Prop
  | .setMany items _ => items = [(listing.key, EntryType.encode entries)]
  | _ => True

theorem issues_store_sets (entries : List Document) :
    (listing.store redis entries).Issues (SetsOnly listing entries) := by
  refine Program.Issues.bind ?_ fun _ => issues_setManyCached redis rfl
  exact issues_replaceDocuments trivial trivial (fun _ => trivial) entries

/-- **A read** stores what it has fetched. -/
theorem records_read :
    (listing.read redis fetch).Records (Provided redis (.read listing fetch))
      (fun _ _ => True) [] := by
  have hnil : Provided redis (.read listing fetch) [] := by simp [Provided]
  rw [Listing.read_eq]
  refine (records_part (Listing.issues_look trivial) hnil).bind ?_ fun _ _ _ => trivial
  rintro found _ ⟨hlooked, looked, rfl, hran⟩
  rw [List.append_nil] at hlooked ⊢
  cases found with
  | some entries => trivial
  | none =>
      refine (records_part fetch.quiet hlooked).bind ?_ fun _ _ _ => trivial
      rintro entries _ ⟨hfetched, gets, rfl, hgets⟩
      -- the entries that are stored are those that the read yields
      have hyields : listing.Yields redis fetch (gets ++ looked) entries :=
        ⟨looked, gets, [], rfl, hran, hgets⟩
      have hcons : ∀ (call : Call signature CacheError) (log : CacheLog),
          SetsOnly listing entries call.op →
          Provided redis (.read listing fetch) log ∧ listing.Yields redis fetch log entries →
          Provided redis (.read listing fetch) (call :: log) ∧
            listing.Yields redis fetch (call :: log) entries := by
        rintro call log hcall ⟨hlog, hyields⟩
        refine ⟨provided_cons hlog fun items ttlSeconds hset => ?_,
          hyields.mono (List.suffix_cons _ _)⟩
        rw [hset] at hcall
        exact ⟨entries, hcall, hyields⟩
      have hsets : (listing.store redis entries).Issues (SetsOnly listing entries) :=
        issues_store_sets entries
      have hstore := hsets.records_of_cons (Program.returns_true _) hcons ⟨hfetched, hyields⟩
      refine ((hstore.weaken fun _ hboth => hboth.1).bind ?_ fun _ _ _ => trivial)
      exact fun _ _ _ => trivial

/-- **Every request** stores what it has fetched, and makes the calls of its program. -/
theorem records_request (redis : Bool) (request : Request) :
    Provided redis request [] ∧ ((requesting redis).body request).Records (Provided redis request)
      (fun outcome log => Program.Ran ((requesting redis).body request) log outcome) [] := by
  have hran : ((requesting redis).body request).Records (fun _ => True)
      (fun outcome log => Program.Ran ((requesting redis).body request) log outcome) [] := by
    refine (Program.records_ran _ []).mono ?_
    rintro outcome later ⟨own, rfl, hran⟩
    rwa [List.append_nil]
  have hprovided : Provided redis request [] ∧
      ((requesting redis).body request).Records (Provided redis request) (fun _ _ => True) [] := by
    cases request with
    | read listing fetch =>
        exact ⟨by simp [Provided], records_read.bind (fun _ _ _ => trivial) fun _ _ _ => trivial⟩
    | refresh character =>
        refine ⟨by simp [Provided], ?_⟩
        have hissues : ((requesting redis).body (.refresh character)).Issues Quiet :=
          Program.Issues.bind (issues_refreshCharacterData redis character) fun _ => trivial
        refine (hissues.records (List.forall_mem_nil _)).weaken fun log hlog => ?_
        exact fun items ttlSeconds answer hmem => hlog _ hmem
  refine ⟨hprovided.1, (hprovided.2.and hran).mono fun _ _ hboth => hboth.2⟩

end Logs

/-! ## Keys -/

section Keys

variable {delivery : Delivery} {world after : World} {answer : Except CacheError Unit}
  {key : String}

/-- Whatever a call leaves under a key was there before, or the call has set it. -/
theorem cache_of_setMany {items : List (String × Value)} {ttlSeconds : ℕ} {value : Value}
    (hrespond : respond (.setMany items ttlSeconds) (.redis delivery) world = some (answer, after))
    (hcache : after.cache key = some value) :
    world.cache key = some value ∨ (key, value) ∈ delivery.parts items := by
  simp only [respond, Option.some.injEq, Prod.mk.injEq] at hrespond
  obtain ⟨_, rfl⟩ := hrespond
  exact setCache_eq_some hcache

/-- A key that the call deletes, or that was not there. -/
theorem cache_of_delete
    (hrespond : respond (.delete [key]) (.redis delivery) world = some (answer, after))
    (hdeleted : key ∈ delivery.parts [key] ∨ world.cache key = none) (value : Value) :
    after.cache key ≠ some value := by
  intro hcache
  simp only [respond, Option.some.injEq, Prod.mk.injEq] at hrespond
  obtain ⟨_, rfl⟩ := hrespond
  rcases hdeleted with hpart | hnone
  · rw [cache_deleteCache, if_pos hpart] at hcache
    cases hcache
  · cases hnone.symm.trans (deleteCache_eq_some hcache)

end Keys

/-! ## Requests in a run -/

section Runs

variable {redis : Bool} {policy : RequestPolicy} {world : World} {config : RequestConfig}

/-- Every request stores what it has fetched, and makes the calls of its program. -/
abbrev RequestsLogged (redis : Bool) (config : RequestConfig) : Prop :=
  System.Logged (Provided redis) (fun request outcome log =>
    Program.Ran ((requesting redis).body request) log outcome) config

theorem logged_of_reaches
    (hreaches : (requesting redis).Reaches policy (Config.initial _ _ _ _ world) config) :
    RequestsLogged redis config :=
  hreaches.logged (records_request redis) .initial

/-- **A read that has returned** has made the calls of a read. -/
theorem ran_of_returned (hlogged : RequestsLogged redis config)
    {thread : ℕ} {listing : Listing} {fetch : Fetch listing.entryType} {entries : List Document}
    (hstart : config.moment.starts[thread]? = some (.read listing fetch))
    (hthread : config.threads thread = some (.ret (.list entries))) :
    Program.Ran (listing.read redis fetch) (config.moment.logOf thread) (.ok entries) := by
  have hran := hlogged.outcome hstart hthread rfl
  rcases hran.of_bind with ⟨value, first, rest, heq, hfirst, hrest⟩ | ⟨error, herror, _⟩
  · obtain ⟨rfl, hvalue⟩ := hrest.of_ret
    cases hvalue
    rwa [heq, List.nil_append]
  · cases herror

end Runs

/-! ## Samples -/

/-- The configuration after the events. -/
def requestedAfter (events : List RequestEvent) : RequestConfig :=
  ((requesting true).run (Config.initial _ _ _ _ emptyWorld) events).getD
    (Config.initial _ _ _ _ emptyWorld)

theorem reaches_events {config later : RequestConfig} (events : List RequestEvent)
    (hrun : (requesting true).run config events = some later) :
    (requesting true).Reaches .free config later :=
  System.reaches_of_run hrun fun event _ config => Policy.free_meets config event

end EveBuild.Cache
