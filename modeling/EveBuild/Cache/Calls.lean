import EveBuild.Cache.Keys

/-!
# Which calls the reads make

Each function makes the calls of the functions that it awaits, so that which calls a
request can make is read off its text.  Every lemma here takes the calls of its own
function as hypotheses.
-/

namespace EveBuild.Cache

open Effect

variable {allowed : Op → Prop}

theorem issues_ignoringRedisError {β : Type} {program : Code β} {value : β}
    (hprogram : program.Issues allowed) :
    (ignoringRedisError program value).Issues allowed := by
  refine Program.Issues.tryCatch hprogram fun error => ?_
  split <;> trivial

theorem issues_getManyCached (redis : Bool) {keys : List String} (hmget : allowed (.mget keys)) :
    (getManyCached redis keys).Issues allowed := by
  rw [getManyCached]
  split
  · trivial
  · exact issues_ignoringRedisError
      (Program.Issues.bind (Program.Issues.perform hmget) fun _ => trivial)

theorem issues_setManyCached (redis : Bool) {items : List (String × Value)} {ttlSeconds : ℕ}
    (hset : allowed (.setMany items ttlSeconds)) :
    (setManyCached redis items ttlSeconds).Issues allowed := by
  rw [setManyCached]
  split
  · trivial
  · exact issues_ignoringRedisError (Program.Issues.perform hset)

theorem issues_deleteCached (redis : Bool) {keys : List String} (hdelete : allowed (.delete keys)) :
    (deleteCached redis keys).Issues allowed := by
  rw [deleteCached]
  split
  · trivial
  · exact issues_ignoringRedisError (Program.Issues.perform hdelete)

section Lists

variable {field collectionName cacheKeyPrefix : String} {id : Option ℤ}
  (hclock : allowed .utcnow) (hdelete : allowed (.deleteMany collectionName field id))
  (hinsert : ∀ documents, allowed (.insertMany collectionName documents))

include hclock in
theorem issues_taggedDocuments (entries : List Document) :
    (taggedDocuments field id entries).Issues allowed := by
  induction entries with
  | nil => trivial
  | cons entry entries ih =>
      refine Program.Issues.bind (Program.Issues.perform hclock) fun now => ?_
      exact Program.Issues.bind ih fun _ => trivial

include hclock hdelete hinsert in
theorem issues_replaceDocuments (entries : List Document) :
    (replaceDocuments collectionName field id entries).Issues allowed := by
  refine Program.Issues.bind (Program.Issues.perform hdelete) fun _ => ?_
  split
  · trivial
  · refine Program.Issues.bind (issues_taggedDocuments hclock entries) fun documents => ?_
    exact Program.Issues.perform (hinsert documents)

include hclock hdelete hinsert in
theorem issues_cachedList (redis : Bool) (ttlSeconds : ℕ) (entryType : EntryType)
    {fetch : Code (List Document)} (hmget : allowed (.mget [cacheKey cacheKeyPrefix id]))
    (hset : ∀ value, allowed (.setMany [(cacheKey cacheKeyPrefix id, value)] ttlSeconds))
    (hfetch : fetch.Issues allowed) :
    (cachedList field redis collectionName cacheKeyPrefix id ttlSeconds entryType fetch).Issues
      allowed := by
  refine Program.Issues.bind (issues_getManyCached redis hmget) fun cached => ?_
  split
  · trivial
  · refine Program.Issues.bind hfetch fun entries => ?_
    refine Program.Issues.bind (issues_replaceDocuments hclock hdelete hinsert entries) fun _ => ?_
    exact Program.Issues.bind (issues_setManyCached redis (hset _)) fun _ => trivial

include hdelete in
theorem issues_invalidateList (redis : Bool)
    (hkey : allowed (.delete [cacheKey cacheKeyPrefix id])) :
    (invalidateList field redis collectionName cacheKeyPrefix id).Issues allowed :=
  Program.Issues.bind (Program.Issues.perform hdelete) fun _ => issues_deleteCached redis hkey

end Lists

section Fetches

variable {endpoint : Endpoint} {id : Option ℤ} {accessToken : String}
  (hget : ∀ page, allowed (.get endpoint id accessToken page))

theorem issues_parseEntries (entryType : EntryType) (rawEntries : List Document) :
    (parseEntries entryType rawEntries).Issues allowed := by
  unfold parseEntries
  split <;> trivial

include hget in
theorem issues_getPagesFrom (page : ℤ) (remaining : ℕ) (results : List Document) :
    (getPagesFrom endpoint id accessToken page remaining results).Issues allowed := by
  induction remaining generalizing page results with
  | zero => trivial
  | succ remaining ih =>
      exact Program.Issues.bind (Program.Issues.perform (hget _)) fun response => ih _ _

include hget in
theorem issues_getPagedList (entryType : EntryType) :
    (getPagedList endpoint entryType id accessToken).Issues allowed := by
  refine Program.Issues.bind ?_ fun rawEntries => issues_parseEntries entryType rawEntries
  exact Program.Issues.bind (Program.Issues.perform (hget _)) fun response =>
    issues_getPagesFrom hget _ _ _

include hget in
theorem issues_getUnpagedList (entryType : EntryType) :
    (getUnpagedList endpoint entryType id accessToken).Issues allowed :=
  Program.Issues.bind (Program.Issues.perform (hget _)) fun response =>
    issues_parseEntries entryType response.entries

end Fetches

/-- The details of the colonies are requested one after the other. -/
theorem issues_fetchColonyDetails {accessToken : String} {characterId : ℤ}
    (hget : ∀ endpoint page, allowed (.get endpoint (some characterId) accessToken page))
    (summaries : List Document) :
    (fetchColonyDetails accessToken characterId summaries).Issues allowed := by
  induction summaries with
  | nil => trivial
  | cons summary summaries ih =>
      refine Program.Issues.bind
        (Program.Issues.bind (Program.Issues.perform (hget _ _)) ?_) ?_
      · intro response
        split <;> trivial
      · exact fun data => Program.Issues.bind ih fun records => trivial

theorem issues_fetchColonyRecords {accessToken : String} {characterId : ℤ}
    (hget : ∀ endpoint page, allowed (.get endpoint (some characterId) accessToken page)) :
    (fetchColonyRecords accessToken characterId).Issues allowed :=
  Program.Issues.bind (issues_getUnpagedList (hget _) colonyEntry) fun summaries =>
    issues_fetchColonyDetails hget summaries

theorem issues_invalidateAll {invalidate : Source → Code Unit} (sources : List Source)
    (hinvalidate : ∀ source ∈ sources, (invalidate source).Issues allowed) :
    (invalidateAll invalidate sources).Issues allowed := by
  induction sources with
  | nil => trivial
  | cons source sources ih =>
      obtain ⟨hsource, hsources⟩ := List.forall_mem_cons.mp hinvalidate
      exact Program.Issues.bind hsource fun _ => ih hsources

end EveBuild.Cache
