import EveBuild.Cache.Calls
import EveBuild.Effect.Log

/-!
# Where cached lists come from

A request stores a list under a key only after ESI has answered pages with its entries
(`Explained`).  So whatever a request finds in Redis is either from before the run or
was answered by ESI to some request, for the character or corporation of the key
(`origin_of_reads`).
-/

namespace EveBuild.Cache

open Effect

/-! ## What a request stores -/

/-- ESI has answered a page with the entry. -/
def Fetched (log : CacheLog) (origin : Origin) (entry : Document) : Prop :=
  ∃ accessToken page response raw,
    ⟨.get origin.endpoint origin.id accessToken page, .ok response⟩ ∈ log ∧
      raw ∈ response.entries ∧ origin.kind.entryType.ofRaw raw = some entry

/-- What is stored under the key of a list are entries that ESI has answered. -/
def Explained (log : CacheLog) : Prop :=
  ∀ items ttlSeconds answer, ⟨.setMany items ttlSeconds, answer⟩ ∈ log →
    ∀ (origin : Origin) value, (origin.key, value) ∈ items →
      ∃ entries, value = EntryType.encode entries ∧ ∀ entry ∈ entries, Fetched log origin entry

/-- The call stores nothing in Redis. -/
def Quiet : Op → Prop
  | .setMany .. => False
  | _ => True

/-- The call stores nothing under the key of a list that is merged. -/
def KeepsLists : Op → Prop
  | .setMany items _ => ∀ (origin : Origin) value, (origin.key, value) ∉ items
  | _ => True

section Logs

variable {log later : CacheLog} {origin : Origin}

theorem Fetched.mono (hsuffix : log <:+ later) {entry : Document}
    (hfetched : Fetched log origin entry) : Fetched later origin entry := by
  obtain ⟨accessToken, page, response, raw, hmem, hraw⟩ := hfetched
  exact ⟨accessToken, page, response, raw, hsuffix.subset hmem, hraw⟩

theorem explained_nil : Explained [] := by simp [Explained]

theorem Quiet.keepsLists {op : Op} (hquiet : Quiet op) : KeepsLists op := by
  cases op with
  | setMany items ttlSeconds => exact hquiet.elim
  | _ => trivial

theorem Explained.cons {call : Call signature CacheError} (hkeeps : KeepsLists call.op)
    (hlog : Explained log) : Explained (call :: log) := by
  intro items ttlSeconds answer hcall origin value hitem
  rcases List.mem_cons.mp hcall with rfl | hcall
  · exact absurd hitem (hkeeps origin value)
  · obtain ⟨entries, hvalue, hentries⟩ := hlog items ttlSeconds answer hcall origin value hitem
    exact ⟨entries, hvalue, fun entry hentry =>
      (hentries entry hentry).mono (List.suffix_cons _ _)⟩

/-- A program that stores no such list adds to the log and leaves it explained. -/
theorem records_of_keepsLists {β : Type} {program : Code β} (hissues : program.Issues KeepsLists)
    (hlog : Explained log) :
    program.Records Explained (fun _ later => log <:+ later ∧ Explained later) log := by
  have hexplained := hissues.records_of_cons (Program.returns_true program)
    (fun call log hkeeps hold => Explained.cons hkeeps hold) hlog
  refine (hexplained.and (Program.records_ran program log)).mono ?_
  rintro outcome later ⟨⟨hlater, _⟩, own, rfl, _⟩
  exact ⟨List.suffix_append _ _, hlater⟩

theorem issues_refreshCharacterData (redis : Bool) (character : Auth.CharacterDocument) :
    (refreshCharacterData redis character).Issues Quiet := by
  refine Program.Issues.bind (issues_invalidateAll _ fun source _ => ?_) fun _ => ?_
  · exact issues_invalidateList trivial redis trivial
  · split
    · exact issues_invalidateAll _ fun source _ => issues_invalidateList trivial redis trivial
    · trivial

/-! ### Fetches -/

/-- ESI has answered a page with the raw entry. -/
def Answered (log : CacheLog) (origin : Origin) (raw : Document) : Prop :=
  ∃ accessToken page response,
    ⟨.get origin.endpoint origin.id accessToken page, .ok response⟩ ∈ log ∧ raw ∈ response.entries

theorem Answered.mono (hsuffix : log <:+ later) {raw : Document}
    (hanswered : Answered log origin raw) : Answered later origin raw := by
  obtain ⟨accessToken, page, response, hmem, hraw⟩ := hanswered
  exact ⟨accessToken, page, response, hsuffix.subset hmem, hraw⟩

/-- What a fetch of the origin's list ensures. -/
structure RawFetched (origin : Origin) (log : CacheLog) (results : List Document)
    (later : CacheLog) : Prop where
  suffix : log <:+ later
  explained : Explained later
  answered : ∀ raw ∈ results, Answered later origin raw

/-- One page. -/
theorem records_get (origin : Origin) (accessToken : String) (page : Option ℤ)
    (hlog : Explained log) :
    (await (.get origin.endpoint origin.id accessToken page)).Records Explained
      (fun outcome later => ∀ response : Response, outcome = .ok response →
        RawFetched origin log response.entries later) log := by
  refine Program.Records.perform fun answer => ?_
  have hlater : Explained
      (⟨.get origin.endpoint origin.id accessToken page, answer⟩ :: log) := hlog.cons trivial
  refine ⟨hlater, fun response hanswer => ⟨List.suffix_cons _ _, hlater, fun raw hraw => ?_⟩⟩
  exact ⟨accessToken, page, response, hanswer ▸ List.mem_cons_self .., hraw⟩

theorem records_getPagesFrom (origin : Origin) (accessToken : String) (page : ℤ)
    (remaining : ℕ) {results : List Document} (hlog : Explained log)
    (hresults : ∀ raw ∈ results, Answered log origin raw) :
    (getPagesFrom origin.endpoint origin.id accessToken page remaining results).Records Explained
      (fun outcome later => ∀ fetched, outcome = .ok fetched →
        RawFetched origin log fetched later) log := by
  induction remaining generalizing page results log with
  | zero =>
      intro fetched hfetched
      obtain rfl := Except.ok.inj hfetched
      exact ⟨List.suffix_refl _, hlog, hresults⟩
  | succ remaining ih =>
      refine (records_get origin accessToken (some page) hlog).bind ?_ (by simp)
      intro response middle hmiddle
      obtain ⟨hsuffix, hexplained, hanswered⟩ := hmiddle response rfl
      refine (ih (page + 1) hexplained fun raw hraw => ?_).mono
        fun outcome later hlater fetched hfetched => ?_
      · rcases List.mem_append.mp hraw with hraw | hraw
        · exact (hresults raw hraw).mono hsuffix
        · exact hanswered raw hraw
      · obtain ⟨hmore, hlaterExplained, hall⟩ := hlater fetched hfetched
        exact ⟨hsuffix.trans hmore, hlaterExplained, hall⟩

/-- What a fetch that returns a list of instances ensures. -/
structure ListFetched (origin : Origin) (log : CacheLog) (entries : List Document)
    (later : CacheLog) : Prop where
  suffix : log <:+ later
  explained : Explained later
  fetched : ∀ entry ∈ entries, Fetched later origin entry

/-- The instances are made of raw entries. -/
theorem RawFetched.parse {results : List Document}
    (hresults : RawFetched origin log results later) :
    (parseEntries origin.kind.entryType results).Records Explained
      (fun outcome later => ∀ entries, outcome = .ok entries →
        ListFetched origin log entries later) later := by
  unfold parseEntries
  split
  · rename_i entries hentries
    intro fetched hfetched
    obtain rfl := Except.ok.inj hfetched
    refine ⟨hresults.suffix, hresults.explained, fun entry hentry => ?_⟩
    obtain ⟨raw, hraw, hentryType⟩ := exists_of_mem_mapM hentries hentry
    obtain ⟨accessToken, page, response, hmem, hresponse⟩ := hresults.answered raw hraw
    exact ⟨accessToken, page, response, raw, hmem, hresponse, hentryType⟩
  · intro entries hentries
    cases hentries

theorem records_getPagedList (origin : Origin) (accessToken : String) (hlog : Explained log) :
    (getPagedList origin.endpoint origin.kind.entryType origin.id accessToken).Records Explained
      (fun outcome later => ∀ entries, outcome = .ok entries →
        ListFetched origin log entries later) log := by
  have hpages : (getAllPages origin.endpoint origin.id accessToken).Records Explained
      (fun outcome later => ∀ fetched, outcome = .ok fetched →
        RawFetched origin log fetched later) log := by
    refine (records_get origin accessToken (some 1) hlog).bind ?_ (by simp)
    intro response middle hmiddle
    obtain ⟨hsuffix, hexplained, hanswered⟩ := hmiddle response rfl
    refine (records_getPagesFrom origin accessToken 2 _ hexplained hanswered).mono ?_
    intro outcome later hlater fetched hfetched
    obtain ⟨hmore, hlaterExplained, hall⟩ := hlater fetched hfetched
    exact ⟨hsuffix.trans hmore, hlaterExplained, hall⟩
  exact hpages.bind (fun results middle hmiddle => (hmiddle results rfl).parse) (by simp)

theorem records_getUnpagedList (origin : Origin) (accessToken : String) (hlog : Explained log) :
    (getUnpagedList origin.endpoint origin.kind.entryType origin.id accessToken).Records Explained
      (fun outcome later => ∀ entries, outcome = .ok entries →
        ListFetched origin log entries later) log :=
  (records_get origin accessToken none hlog).bind
    (fun response middle hmiddle => (hmiddle response rfl).parse) (by simp)

/-! ### Stores -/

theorem records_setManyCached {redis : Bool} {entries : List Document} {ttlSeconds : ℕ}
    (hlog : Explained log) (hentries : ∀ entry ∈ entries, Fetched log origin entry) :
    (setManyCached redis [(origin.key, EntryType.encode entries)] ttlSeconds).Records Explained
      (fun _ later => Explained later) log := by
  have hset : (await (.setMany [(origin.key, EntryType.encode entries)] ttlSeconds)).Records
      Explained (fun _ later => Explained later) log := by
    refine Program.Records.perform fun answer => ?_
    rw [and_self]
    intro items ttlSeconds' answer' hcall other value hitem
    rcases List.mem_cons.mp hcall with heq | hcall
    · cases heq
      obtain ⟨hkey, rfl⟩ := Prod.mk.inj (List.mem_singleton.mp hitem)
      obtain rfl := Origin.key_injective hkey
      exact ⟨entries, rfl, fun entry hentry =>
        (hentries entry hentry).mono (List.suffix_cons _ _)⟩
    · obtain ⟨stored, hvalue, hstored⟩ := hlog items ttlSeconds' answer' hcall other value hitem
      exact ⟨stored, hvalue, fun entry hentry =>
        (hstored entry hentry).mono (List.suffix_cons _ _)⟩
  rw [setManyCached]
  split
  · exact hlog
  · refine hset.tryCatch (fun _ _ hlater => hlater) fun error later hlater => ?_
    split <;> exact hlater

/-- A cached list, read or fetched. -/
theorem records_cachedList (origin : Origin) {redis : Bool} {field collectionName : String}
    {ttlSeconds : ℕ} {entryType : EntryType} {fetch : Code (List Document)} (hlog : Explained log)
    (hfetch : ∀ later, Explained later → fetch.Records Explained (fun outcome final =>
      ∀ entries, outcome = .ok entries → ListFetched origin later entries final) later) :
    (cachedList field redis collectionName origin.source.cacheKeyPrefix origin.id ttlSeconds
      entryType fetch).Records Explained
      (fun outcome later => ∀ entries, outcome = .ok entries → Explained later) log := by
  refine (records_of_keepsLists (issues_getManyCached redis trivial) hlog).bind ?_ (by simp)
  rintro cached read ⟨_, hread⟩
  split
  · exact fun _ _ => hread
  refine (hfetch read hread).bind ?_ (by simp)
  intro entries fetched hlist
  obtain ⟨_, hexplained, hentries⟩ := hlist entries rfl
  refine (records_of_keepsLists (issues_replaceDocuments trivial trivial (fun _ => trivial) entries)
    hexplained).bind ?_ (by simp)
  rintro _ replaced ⟨hreplaced, hexplained⟩
  refine (records_setManyCached hexplained fun entry hentry =>
    (hentries entry hentry).mono hreplaced).bind ?_ (by simp)
  exact fun _ later hlater _ _ => hlater

theorem records_getCharacterList (redis : Bool) (accessToken : String) (characterId : ℤ)
    (kind : Kind) (hlog : Explained log) :
    (kind.getCharacterList redis accessToken characterId).Records Explained
      (fun outcome later => ∀ entries, outcome = .ok entries → Explained later) log := by
  rw [Kind.getCharacterList_eq]
  refine records_cachedList (.character kind characterId) hlog fun later hlater => ?_
  cases kind with
  | industryJobs => exact records_getUnpagedList _ accessToken hlater
  | _ => exact records_getPagedList _ accessToken hlater

theorem records_getCorporationList (redis : Bool) (accessToken : String)
    (corporationId : Option ℤ) (kind : Kind) (hlog : Explained log) :
    (kind.getCorporationList redis accessToken corporationId).Records Explained
      (fun _ _ => True) log := by
  rw [Kind.getCorporationList_eq]
  refine Program.Records.tryCatch (?_ : Program.Records Explained _ (fun _ _ => True) log)
    (fun _ _ _ => trivial) fun error later _ => ?_
  · exact (records_cachedList (.corporation kind corporationId) hlog fun later hlater =>
      records_getPagedList (.corporation kind corporationId) accessToken hlater).bind
      (fun _ _ _ => trivial) fun _ _ _ => trivial
  · split <;> trivial

theorem records_getMergedList (redis : Bool) (character : Auth.CharacterDocument) (kind : Kind)
    (hlog : Explained log) :
    (kind.getMergedList redis character).Records Explained (fun _ _ => True) log := by
  refine (records_getCharacterList redis _ _ kind hlog).bind ?_ fun _ _ _ => trivial
  intro personal later hlater
  rw [mergeCorp]
  split
  · trivial
  · refine (records_getCorporationList redis _ _ kind (hlater personal rfl)).bind ?_
      fun _ _ _ => trivial
    rintro (_ | corpEntries) _ _ <;> trivial

/-- The colonies have keys of their own. -/
theorem coloniesKey_ne (characterId : Option ℤ) (origin : Origin) :
    cacheKey coloniesSource.cacheKeyPrefix characterId ≠ origin.key := by
  have hpersonal : ∀ kind : Kind,
      coloniesSource.cacheKeyPrefix ≠ kind.personalSource.cacheKeyPrefix := by
    intro kind
    cases kind <;> decide
  have hcorp : ∀ kind : Kind, coloniesSource.cacheKeyPrefix ≠ kind.corpSource.cacheKeyPrefix := by
    intro kind
    cases kind <;> decide
  intro heq
  have hsource := (cacheKey_inj (by decide) origin.colon_notMem heq).1
  cases origin with
  | character kind _ => exact hpersonal kind hsource
  | corporation kind _ => exact hcorp kind hsource

/-- The colonies are no list that is merged. -/
theorem issues_getCharacterColonies (redis : Bool) (accessToken : String) (characterId : ℤ) :
    (getCharacterColonies redis accessToken characterId).Issues KeepsLists := by
  refine issues_cachedList trivial trivial (fun _ => trivial) redis _ _ trivial ?_
    (issues_fetchColonyRecords fun _ _ => trivial)
  intro value origin stored hitem
  exact coloniesKey_ne _ origin (Prod.mk.inj (List.mem_singleton.mp hitem)).1.symm

/-- **Every request** stores only what ESI has answered. -/
theorem records_body (redis : Bool) (start : Start) :
    Explained [] ∧ ((caching redis).body start).Records Explained (fun _ _ => True) [] := by
  refine ⟨explained_nil, ?_⟩
  cases start with
  | characterList kind accessToken characterId =>
      exact (records_getCharacterList redis accessToken characterId kind explained_nil).bind
        (fun _ _ _ => trivial) fun _ _ _ => trivial
  | characterColonies accessToken characterId =>
      exact (records_of_keepsLists (issues_getCharacterColonies redis accessToken characterId)
        explained_nil).bind (fun _ _ _ => trivial) fun _ _ _ => trivial
  | corporationList kind accessToken corporationId =>
      exact (records_getCorporationList redis accessToken corporationId kind explained_nil).bind
        (fun _ _ _ => trivial) fun _ _ _ => trivial
  | mergedList kind character =>
      exact (records_getMergedList redis character kind explained_nil).bind
        (fun _ _ _ => trivial) fun _ _ _ => trivial
  | refresh character =>
      have hkeeps := (issues_refreshCharacterData redis character).mono fun _ => Quiet.keepsLists
      exact (records_of_keepsLists hkeeps explained_nil).bind
        (fun _ _ _ => trivial) fun _ _ _ => trivial

end Logs

/-! ## What is in Redis -/

/-- The value is from before the run, or a request has stored it. -/
def Sourced (initial : World) (moment : CacheMoment) (key : String) (value : Value) : Prop :=
  initial.cache key = some value ∨ ∃ thread items ttlSeconds answer,
    ⟨.setMany items ttlSeconds, answer⟩ ∈ moment.logOf thread ∧ (key, value) ∈ items

/-- Everything that is in Redis, or was found there, has a source. -/
structure CacheSourced (initial : World) (moment : CacheMoment) : Prop where
  cache : ∀ key value, moment.world.cache key = some value → Sourced initial moment key value
  reads : ∀ thread keys values key value, ⟨.mget keys, .ok values⟩ ∈ moment.logOf thread →
    (key, some value) ∈ keys.zip values → Sourced initial moment key value

section Runs

variable {initial : World} {moment later : CacheMoment}

theorem Sourced.mono (hextends : moment.Extends later) {key : String} {value : Value}
    (hsourced : Sourced initial moment key value) : Sourced initial later key value := by
  refine hsourced.imp_right ?_
  rintro ⟨thread, items, ttlSeconds, answer, hmem, hitem⟩
  exact ⟨thread, items, ttlSeconds, answer, (hextends.logOf thread).subset hmem, hitem⟩

/-- Setting keys only adds the values that are set. -/
theorem setCache_eq_some {world : World} {items : List (String × Value)} {key : String}
    {value : Value} (hcache : (world.setCache items).cache key = some value) :
    world.cache key = some value ∨ (key, value) ∈ items := by
  simp only [World.setCache] at hcache
  generalize world.cache = cache at hcache ⊢
  induction items generalizing cache with
  | nil => exact Or.inl hcache
  | cons item items ih =>
      rcases ih (Function.update cache item.1 (some item.2)) hcache with hold | hmem
      · rcases eq_or_ne key item.1 with rfl | hne
        · rw [Function.update_self] at hold
          obtain rfl := Option.some_inj.mp hold
          exact Or.inr (List.mem_cons_self ..)
        · rw [Function.update_of_ne hne] at hold
          exact Or.inl hold
      · exact Or.inr (List.mem_cons_of_mem _ hmem)

/-- Deleting keys takes what is under them, and nothing else. -/
theorem cache_deleteCache (world : World) (keys : List String) (key : String) :
    (world.deleteCache keys).cache key = if key ∈ keys then none else world.cache key := by
  simp only [World.deleteCache]
  generalize world.cache = cache
  induction keys generalizing cache with
  | nil => rfl
  | cons deleted keys ih =>
      rw [List.foldl_cons, ih]
      rcases eq_or_ne key deleted with rfl | hne
      · rw [Function.update_self, ite_self, if_pos List.mem_cons_self]
      · rw [Function.update_of_ne hne]
        exact if_congr (List.mem_cons.trans (or_iff_right hne)).symm rfl rfl

/-- Deleting keys adds nothing. -/
theorem deleteCache_eq_some {world : World} {keys : List String} {key : String} {value : Value}
    (hcache : (world.deleteCache keys).cache key = some value) : world.cache key = some value := by
  rw [cache_deleteCache] at hcache
  split at hcache
  · cases hcache
  · exact hcache

/-- What a call leaves in Redis was there before, or is set by the call. -/
theorem cache_of_respond {op : Op} {choice : Choice} {world after : World}
    {answer : Except CacheError op.Answer} {key : String} {value : Value}
    (hrespond : respond op choice world = some (answer, after))
    (hcache : after.cache key = some value) :
    world.cache key = some value ∨
      ∃ items ttlSeconds, op = .setMany items ttlSeconds ∧ (key, value) ∈ items := by
  cases op <;> cases choice <;>
    simp only [respond, Option.some.injEq, Prod.mk.injEq, reduceCtorEq] at hrespond
  case setMany.redis items ttlSeconds delivery =>
    obtain ⟨_, rfl⟩ := hrespond
    refine (setCache_eq_some hcache).imp_right fun hitem => ?_
    exact ⟨items, ttlSeconds, rfl, Delivery.mem_of_mem_parts hitem⟩
  case delete.redis keys delivery =>
    obtain ⟨_, rfl⟩ := hrespond
    exact Or.inl (deleteCache_eq_some hcache)
  all_goals
    obtain ⟨_, rfl⟩ := hrespond
    exact Or.inl hcache

/-- What a read finds is in Redis. -/
theorem cache_of_mget {keys : List String} {choice : Choice} {world after : World}
    {values : List (Option Value)} {key : String} {value : Value}
    (hrespond : respond (.mget keys) choice world = some (.ok values, after))
    (hread : (key, some value) ∈ keys.zip values) : world.cache key = some value := by
  cases choice with
  | redis delivery =>
      simp only [respond, Option.some.injEq, Prod.mk.injEq] at hrespond
      obtain ⟨hanswer, _⟩ := hrespond
      cases delivery with
      | done =>
          obtain rfl := Except.ok.inj hanswer
          induction keys with
          | nil => cases hread
          | cons other keys ih =>
              rcases List.mem_cons.mp hread with heq | hread
              · obtain ⟨rfl, hvalue⟩ := Prod.mk.inj heq
                exact hvalue.symm
              · exact ih hread rfl
      | error carriedOut => cases hanswer
  | _ => cases hrespond

/-- **One step.** -/
theorem cacheSourced_step {redis : Bool} {before after : CacheConfig} {event : CacheEvent}
    (hsourced : CacheSourced initial before.moment)
    (hstep : (caching redis).Steps before event after) : CacheSourced initial after.moment := by
  cases hstep with
  | start henter =>
      obtain rfl := Option.some_inj.mp henter
      exact ⟨hsourced.cache, hsourced.reads⟩
  | @call thread choice op next answer world hthread hrespond =>
      have hextends := before.moment.extends_answer thread ⟨op, answer⟩ world
      constructor
      · intro key value hcache
        -- a value was there before, or this call sets it
        rcases cache_of_respond hrespond hcache with hold | ⟨items, ttlSeconds, rfl, hitem⟩
        · exact (hsourced.cache key value hold).mono hextends
        · refine Or.inr ⟨thread, items, ttlSeconds, answer, ?_, hitem⟩
          rw [Moment.answer_logOf_self]
          exact List.mem_cons_self ..
      · intro other keys values key value hmem hread
        rcases Moment.mem_answer_logOf hmem with hold | ⟨_, heq⟩
        · exact (hsourced.reads other keys values key value hold hread).mono hextends
        · cases heq
          exact (hsourced.cache key value (cache_of_mget hrespond hread)).mono hextends
  | crash hthread => exact ⟨hsourced.cache, hsourced.reads⟩
  | @tick tick world htick =>
      cases tick with
      | expire key =>
          obtain rfl := Option.some_inj.mp htick
          exact ⟨fun other value hcache =>
            hsourced.cache other value (deleteCache_eq_some hcache), hsourced.reads⟩

/-- **Origins.**  In every run, what a request has found in Redis under the key of a list
was there before the run, or is a list of entries that ESI has answered to one request for
the same list. -/
theorem origin_of_reads {redis : Bool} {policy : Policy signature CacheError World Start Choice Tick}
    {config : CacheConfig}
    (hreaches : (caching redis).Reaches policy (Config.initial _ _ _ _ initial) config)
    {thread : ℕ} {keys : List String} {values : List (Option Value)} {origin : Origin}
    {value : Value} (hmem : ⟨.mget keys, .ok values⟩ ∈ config.moment.logOf thread)
    (hread : (origin.key, some value) ∈ keys.zip values) :
    initial.cache origin.key = some value ∨ ∃ other entries, value = EntryType.encode entries ∧
      ∀ entry ∈ entries, Fetched (config.moment.logOf other) origin entry := by
  have hsourced : CacheSourced initial config.moment := by
    refine hreaches.invariant (motive := fun config => CacheSourced initial config.moment) ?_ ?_
    · refine ⟨fun key value hcache => Or.inl hcache, ?_⟩
      intro other keys values key value hmem
      cases hmem
    · exact fun before event after hbefore _ hstep => cacheSourced_step hbefore hstep
  have hlogged := hreaches.logged (records_body redis) .initial
  refine (hsourced.reads thread keys values _ value hmem hread).imp_right ?_
  rintro ⟨other, items, ttlSeconds, answer, hset, hitem⟩
  obtain ⟨start, _, hexplained⟩ := hlogged.start_of_mem hset
  obtain ⟨entries, hvalue, hentries⟩ := hexplained items ttlSeconds answer hset origin value hitem
  exact ⟨other, entries, hvalue, hentries⟩

end Runs

end EveBuild.Cache
