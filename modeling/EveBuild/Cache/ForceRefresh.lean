import EveBuild.Cache.Requests

/-!
# Reads after a forced refresh

`refresh_character_data` deletes the documents and the key of each list of a character.  A
read that starts after it has returned must not give what was fetched before it has begun.

It does not, in every run in which the refresh leaves no key, and no read that had made
requests to ESI when the refresh began sets the key after the refresh has deleted it
(`force_refresh`).  An error of Redis is ignored, and a read that has missed is not stopped, so
that each of the two can go wrong (`error_keeps_key`, `read_restores_key`).
-/

namespace EveBuild.Cache

open Effect

/-! ## What a refresh invalidates -/

/-- The lists of the character, and those of its corporation if it is connected. -/
inductive Refreshes (character : Auth.CharacterDocument) : Listing → Prop
  | personal {listed} (hlisted : listed ∈ Listed.personal) :
      Refreshes character ⟨listed, some character.characterId⟩
  | corp {listed} (hlisted : listed ∈ Listed.corp) (hconnected : corpDataConnected character = true) :
      Refreshes character ⟨listed, character.corporationId⟩

section Logs

variable {redis : Bool} {own : CacheLog}

/-- Each list of the character has been invalidated. -/
theorem ran_refresh {character : Auth.CharacterDocument} {listing : Listing}
    (hran : Program.Ran (refreshCharacterData redis character) own (.ok ()))
    (hrefreshes : Refreshes character listing) :
    ∃ part, part.Sublist own ∧ Program.Ran (listing.invalidate redis) part (.ok ()) := by
  rcases hran.of_bind with ⟨_, first, rest, rfl, hpersonal, hcorp⟩ | ⟨error, herror, _⟩
  · cases hrefreshes with
    | personal hlisted =>
        obtain ⟨part, hpart, hinvalidate⟩ := ran_invalidatePersonal hpersonal hlisted
        exact ⟨part, hpart.trans (List.sublist_append_right ..), hinvalidate⟩
    | corp hlisted hconnected =>
        rw [if_pos hconnected] at hcorp
        obtain ⟨part, hpart, hinvalidate⟩ := ran_invalidateCorp hcorp hlisted
        exact ⟨part, hpart.trans (List.sublist_append_left ..), hinvalidate⟩
  · cases herror

end Logs

/-! ## The condition -/

/-- The program has deleted the key. -/
def Deleted (listing : Listing) (thread : ℕ) (moment : RequestMoment) : Prop :=
  ∃ answer, ⟨.delete [listing.key], answer⟩ ∈ moment.logOf thread

/-- The list has been fetched with requests that were all made after the moment. -/
def FetchedSince (redis : Bool) (listing : Listing) (before moment : RequestMoment)
    (entries : List Document) : Prop :=
  ∃ thread fetch, moment.starts[thread]? = some (.read listing fetch) ∧
    listing.Yields redis fetch (moment.logOf thread) entries ∧
    ∀ call ∈ before.logOf thread, ¬IsGet call.op

/-- The refresh, which is a program that started at the moment, leaves no key of the list;
and the key is not set after it by a program that had made requests to ESI before it. -/
def effective (listing : Listing) (before : RequestMoment) : RequestPolicy where
  start _ _ := True
  call thread op choice moment :=
    (thread = before.starts.length → op = .delete [listing.key] →
      ∀ delivery, choice = .redis delivery →
        listing.key ∈ delivery.parts [listing.key] ∨ moment.world.cache listing.key = none) ∧
    (Deleted listing before.starts.length moment →
      ∀ items ttlSeconds delivery, op = .setMany items ttlSeconds → choice = .redis delivery →
        listing.key ∈ (delivery.parts items).map Prod.fst →
        ∀ call ∈ before.logOf thread, ¬IsGet call.op)
  crash _ _ := True
  tick _ _ := True

/-! ## What is in Redis after the refresh -/

section Runs

variable {redis : Bool} {listing : Listing} {before moment later : RequestMoment}

theorem FetchedSince.mono (hextends : moment.Extends later) {entries : List Document}
    (hfetched : FetchedSince redis listing before moment entries) :
    FetchedSince redis listing before later entries := by
  obtain ⟨thread, fetch, hstart, hyields, hgets⟩ := hfetched
  exact ⟨thread, fetch, hextends.getElem?_starts hstart, hyields.mono (hextends.logOf thread),
    hgets⟩

theorem Deleted.mono (hextends : moment.Extends later) {thread : ℕ}
    (hdeleted : Deleted listing thread moment) : Deleted listing thread later := by
  obtain ⟨answer, hmem⟩ := hdeleted
  exact ⟨answer, (hextends.logOf thread).subset hmem⟩

/-- Once the refresh has deleted the key, it only holds what has been fetched since. -/
def KeyFresh (redis : Bool) (listing : Listing) (before moment : RequestMoment) : Prop :=
  Deleted listing before.starts.length moment → ∀ value,
    moment.world.cache listing.key = some value →
      ∃ entries, value = EntryType.encode entries ∧ FetchedSince redis listing before moment entries

/-- Nothing that the program has found under the key is older. -/
def FoundFresh (redis : Bool) (listing : Listing) (before : RequestMoment) (reader : ℕ)
    (moment : RequestMoment) : Prop :=
  ∀ values value, ⟨.mget [listing.key], .ok values⟩ ∈ moment.logOf reader →
    values.head?.join = some value →
      ∃ entries, value = EntryType.encode entries ∧ FetchedSince redis listing before moment entries

/-- **A call keeps the key fresh.** -/
theorem keyFresh_call {thread : ℕ} {op : Op} {choice : Choice}
    {answer : Except CacheError op.Answer} {world : World}
    (hfresh : KeyFresh redis listing before moment)
    (hmeets : (effective listing before).call thread op choice moment)
    (hrespond : respond op choice moment.world = some (answer, world))
    (hprovided : ∀ request, moment.starts[thread]? = some request →
      Provided redis request (⟨op, answer⟩ :: moment.logOf thread))
    (hstarted : ∃ request, moment.starts[thread]? = some request) :
    KeyFresh redis listing before (moment.answer thread ⟨op, answer⟩ world) := by
  have hextends := moment.extends_answer thread ⟨op, answer⟩ world
  rintro ⟨deleted, hdeleted⟩ value hcache
  rw [Moment.answer_world] at hcache
  rcases Moment.mem_answer_logOf hdeleted with hold | ⟨hthread, heq⟩
  · have holdDeleted : Deleted listing before.starts.length moment := ⟨deleted, hold⟩
    have hkept : moment.world.cache listing.key = some value → ∃ entries,
        value = EntryType.encode entries ∧ FetchedSince redis listing before
          (moment.answer thread ⟨op, answer⟩ world) entries := by
      intro hvalue
      obtain ⟨entries, hencode, hfetched⟩ := hfresh holdDeleted value hvalue
      exact ⟨entries, hencode, hfetched.mono hextends⟩
    -- a value that is new has been set by this call, and the policy says by whom
    by_cases hset : ∃ items ttlSeconds, op = .setMany items ttlSeconds
    · obtain ⟨items, ttlSeconds, rfl⟩ := hset
      cases choice with
      | redis delivery =>
          rcases cache_of_setMany hrespond hcache with hvalue | hitem
          · exact hkept hvalue
          obtain ⟨request, hrequest⟩ := hstarted
          have hgets := hmeets.2 holdDeleted items ttlSeconds delivery rfl rfl
            (List.mem_map_of_mem hitem)
          have hlog := hprovided request hrequest
          cases request with
          | refresh character => exact absurd (List.mem_cons_self ..) (hlog items ttlSeconds answer)
          | read other fetch =>
              obtain ⟨entries, rfl, hyields⟩ := hlog items ttlSeconds answer (List.mem_cons_self ..)
              obtain ⟨hkey, rfl⟩ :=
                Prod.mk.inj (List.mem_singleton.mp (Delivery.mem_of_mem_parts hitem))
              obtain rfl := Listing.key_injective hkey
              refine ⟨entries, rfl, thread, fetch, hrequest, ?_, hgets⟩
              rwa [Moment.answer_logOf_self]
      | _ => cases hrespond
    · rcases cache_of_respond hrespond hcache with hvalue | ⟨items, ttlSeconds, rfl, _⟩
      · exact hkept hvalue
      · exact absurd ⟨items, ttlSeconds, rfl⟩ hset
  · -- the refresh deletes the key now
    cases heq
    exfalso
    cases choice with
    | redis delivery =>
        exact cache_of_delete hrespond (hmeets.1 hthread rfl delivery rfl) value hcache
    | _ => cases hrespond

variable {config after : RequestConfig} {event : RequestEvent}

/-- The history of every program, and the key. -/
structure Fresh (redis : Bool) (listing : Listing) (before : RequestMoment)
    (config : RequestConfig) : Prop where
  logged : RequestsLogged redis config
  key : KeyFresh redis listing before config.moment

theorem KeyFresh.of_cache (hfresh : KeyFresh redis listing before moment)
    (hextends : moment.Extends later)
    (hdeleted : Deleted listing before.starts.length later →
      Deleted listing before.starts.length moment)
    (hcache : ∀ value, later.world.cache listing.key = some value →
      moment.world.cache listing.key = some value) : KeyFresh redis listing before later := by
  intro hlater value hvalue
  obtain ⟨entries, hencode, hfetched⟩ := hfresh (hdeleted hlater) value (hcache value hvalue)
  exact ⟨entries, hencode, hfetched.mono hextends⟩

/-- **One step.** -/
theorem fresh_step (hfresh : Fresh redis listing before config)
    (hmeets : (effective listing before).Meets config event)
    (hstep : (requesting redis).Steps config event after) : Fresh redis listing before after := by
  have hlogged := hstep.logged (records_request redis) hfresh.logged
  refine ⟨hlogged, ?_⟩
  have hextends := hstep.extends
  cases hstep with
  | start henter =>
      obtain rfl := Option.some_inj.mp henter
      exact hfresh.key.of_cache hextends id fun _ => id
  | @call thread choice op next answer world hthread hrespond =>
      refine keyFresh_call hfresh.key (hmeets op next hthread) hrespond
        (fun request hrequest => ?_) ?_
      · have hlog := hlogged.logs thread request hrequest
        rwa [Moment.answer_logOf_self] at hlog
      · obtain ⟨request, hrequest, _⟩ := hfresh.logged.threads thread _ hthread
        exact ⟨request, hrequest⟩
  | crash hthread => exact hfresh.key.of_cache hextends id fun _ => id
  | @tick tick world htick =>
      cases tick with
      | expire key =>
          obtain rfl := Option.some_inj.mp htick
          exact hfresh.key.of_cache hextends id fun value hvalue => deleteCache_eq_some hvalue

/-- A read after the refresh has looked into Redis after it. -/
theorem foundFresh_step {reader : ℕ} (hfresh : Fresh redis listing before config)
    (hdeleted : Deleted listing before.starts.length config.moment)
    (hfound : FoundFresh redis listing before reader config.moment)
    (hstep : (requesting redis).Steps config event after) :
    FoundFresh redis listing before reader after.moment := by
  have hextends := hstep.extends
  -- what was found before stays fetched since
  have hold : ∀ values value, ⟨.mget [listing.key], .ok values⟩ ∈ config.moment.logOf reader →
      values.head?.join = some value → ∃ entries, value = EntryType.encode entries ∧
        FetchedSince redis listing before after.moment entries := by
    intro values value hmem hvalue
    obtain ⟨entries, hencode, hfetched⟩ := hfound values value hmem hvalue
    exact ⟨entries, hencode, hfetched.mono hextends⟩
  intro values value hmem hvalue
  cases hstep with
  | @call thread choice op next answer world hthread hrespond =>
      rcases Moment.mem_answer_logOf hmem with hmem | ⟨_, heq⟩
      · exact hold values value hmem hvalue
      · -- the value is found now, under a key that only holds fresh ones
        cases heq
        have hread : (listing.key, some value) ∈ [listing.key].zip values := by
          cases values with
          | nil => cases hvalue
          | cons first values =>
              obtain rfl : first = some value := by simpa using hvalue
              exact List.mem_singleton_self _
        obtain ⟨entries, hencode, hfetched⟩ :=
          hfresh.key hdeleted value (cache_of_mget hrespond hread)
        exact ⟨entries, hencode, hfetched.mono hextends⟩
  | start henter => exact hold values value hmem hvalue
  | crash hthread => exact hold values value hmem hvalue
  | tick htick => exact hold values value hmem hvalue

/-- **A run keeps the key fresh.** -/
theorem fresh_of_reaches {later : RequestConfig} (hfresh : Fresh redis listing before config)
    (hrun : (requesting redis).Reaches (effective listing before) config later) :
    Fresh redis listing before later :=
  hrun.invariant hfresh fun _ _ _ hfresh hmeets hstep => fresh_step hfresh hmeets hstep

/-- **A run after the refresh** only finds fresh lists. -/
theorem foundFresh_of_reaches {reader : ℕ} {later : RequestConfig}
    (hfresh : Fresh redis listing before config)
    (hdeleted : Deleted listing before.starts.length config.moment)
    (hfound : FoundFresh redis listing before reader config.moment)
    (hrun : (requesting redis).Reaches (effective listing before) config later) :
    FoundFresh redis listing before reader later.moment := by
  have hall : Fresh redis listing before later ∧
      Deleted listing before.starts.length later.moment ∧
      FoundFresh redis listing before reader later.moment := by
    refine hrun.invariant (motive := fun config => Fresh redis listing before config ∧
      Deleted listing before.starts.length config.moment ∧
      FoundFresh redis listing before reader config.moment) ⟨hfresh, hdeleted, hfound⟩ ?_
    rintro config event after ⟨hfresh, hdeleted, hfound⟩ hmeets hstep
    exact ⟨fresh_step hfresh hmeets hstep, hdeleted.mono hstep.extends,
      foundFresh_step hfresh hdeleted hfound hstep⟩
  exact hall.2.2

/-- Before the refresh there is nothing to show. -/
theorem fresh_of_logged {before : RequestConfig} (hlogged : RequestsLogged redis before) :
    Fresh redis listing before.moment before := by
  refine ⟨hlogged, fun ⟨answer, hmem⟩ => ?_⟩
  rw [hlogged.logOf_eq_nil (Nat.le_refl _)] at hmem
  cases hmem

/-- The refresh that has returned has deleted the key. -/
theorem deleted_of_refreshed {refresher : ℕ} {character : Auth.CharacterDocument}
    (hfresh : Fresh true listing before config)
    (hstart : config.moment.starts[refresher]? = some (.refresh character))
    (hthread : config.threads refresher = some (.ret .refreshed))
    (hrefreshes : Refreshes character listing) : Deleted listing refresher config.moment := by
  have hran := hfresh.logged.outcome hstart hthread rfl
  rcases hran.of_bind with ⟨_, first, rest, heq, hfirst, hrest⟩ | ⟨error, herror, _⟩
  · obtain ⟨part, hpart, hinvalidate⟩ := ran_refresh hfirst hrefreshes
    obtain ⟨deletes, rfl, ⟨hdisabled, _⟩ | ⟨_, answer, rfl⟩⟩ := Listing.ran_invalidate hinvalidate
    · cases hdisabled
    · refine ⟨answer, ?_⟩
      rw [heq]
      exact List.mem_append_right _ (hpart.subset (List.mem_cons_self ..))
  · cases herror

/-- What a read finds in Redis has been fetched since. -/
theorem fetchedSince_of_look {reader : ℕ} {entries : List Document}
    (hfound : FoundFresh redis listing before reader moment)
    (hlook : Program.Ran (listing.look redis) (moment.logOf reader) (.ok (some entries))) :
    FetchedSince redis listing before moment entries := by
  rcases Listing.ran_look hlook with ⟨_, values, hlog, hdecode⟩ | ⟨hnone, _⟩
  · obtain ⟨value, hvalue, hvalueDecode⟩ := Option.bind_eq_some_iff.mp hdecode.symm
    have hmem : ⟨.mget [listing.key], .ok values⟩ ∈ moment.logOf reader := by
      rw [hlog]
      exact List.mem_singleton_self _
    obtain ⟨fetched, rfl, hfetched⟩ := hfound values value hmem hvalue
    obtain ⟨thread, fetch, hstart, hyields, hgets⟩ := hfetched
    rw [EntryType.decode_encode hyields.instances] at hvalueDecode
    obtain rfl := Option.some_inj.mp hvalueDecode
    exact ⟨thread, fetch, hstart, hyields, hgets⟩
  · cases hnone

/-- **Force refresh is effective.**  A refresh of a character starts, and returns; then a read
of one of its lists starts, and returns.  In every run that meets the condition from the
start of the refresh on, the read gives a list that has been fetched with requests to ESI
that were all made after the refresh has begun. -/
theorem force_refresh {world : World} {before started refreshed asked final : RequestConfig}
    {character : Auth.CharacterDocument} {listing : Listing} {fetch : Fetch listing.entryType}
    {entries : List Document}
    (hbefore : (requesting redis).Reaches .free (Config.initial _ _ _ _ world) before)
    (hstart : (requesting redis).step before (.start (.refresh character)) = some started)
    (hrun : (requesting redis).Reaches (effective listing before.moment) started refreshed)
    (hrefreshed : refreshed.threads before.moment.starts.length = some (.ret .refreshed))
    (hask : (requesting redis).step refreshed (.start (.read listing fetch)) = some asked)
    (hlater : (requesting redis).Reaches (effective listing before.moment) asked final)
    (hread : final.threads refreshed.moment.starts.length = some (.ret (.list entries)))
    (hrefreshes : Refreshes character listing) :
    FetchedSince redis listing before.moment final.moment entries := by
  have hlogged := logged_of_reaches hbefore
  have hmeets : ∀ config request,
      (effective listing before.moment).Meets (config : RequestConfig) (.start request) :=
    fun _ _ => trivial
  have hstarted := System.steps_of_step hstart
  have hasked := System.steps_of_step hask
  have hrefreshedFresh : Fresh redis listing before.moment refreshed :=
    fresh_of_reaches (fresh_step (fresh_of_logged hlogged) (hmeets _ _) hstarted) hrun
  have haskedFresh := fresh_step hrefreshedFresh (hmeets _ _) hasked
  have hfinalFresh := fresh_of_reaches haskedFresh hlater
  have hreader : final.moment.starts[refreshed.moment.starts.length]? =
      some (.read listing fetch) := hlater.extends.getElem?_starts hasked.getElem?_starts
  rcases Listing.ran_read (ran_of_returned hfinalFresh.logged hreader hread) with
    ⟨found, hfound, hlook⟩ | ⟨error, herror, _⟩ | ⟨error, _, _, herror, _⟩ |
    ⟨fetched, looked, gets, stored, result, hown, hfetches, _, hresult⟩
  · -- the list was found in Redis, which the refresh has cleared
    cases hfound
    have hrefresher : refreshed.moment.starts[before.moment.starts.length]? =
        some (.refresh character) := hrun.extends.getElem?_starts hstarted.getElem?_starts
    -- the reader has found nothing when it starts
    have hnothing : FoundFresh redis listing before.moment refreshed.moment.starts.length
        asked.moment := by
      intro values value hmem
      cases hasked with
      | start henter =>
          rw [Moment.enter_logOf, hrefreshedFresh.logged.logOf_eq_nil (Nat.le_refl _)] at hmem
          cases hmem
    have henabled : redis = true := by
      rcases Listing.ran_look hlook with ⟨henabled, _⟩ | ⟨hnone, _⟩
      · exact henabled
      · cases hnone
    subst henabled
    have hdeleted := deleted_of_refreshed hrefreshedFresh hrefresher hrefreshed hrefreshes
    have hfound : FoundFresh true listing before.moment refreshed.moment.starts.length
        final.moment :=
      foundFresh_of_reaches haskedFresh (hdeleted.mono hasked.extends) hnothing hlater
    exact fetchedSince_of_look hfound hlook
  · cases herror
  · cases herror
  · -- the list has been fetched by the read itself
    cases result with
    | error error => cases hresult
    | ok value =>
        obtain rfl := Except.ok.inj hresult
        refine ⟨_, fetch, hreader, ⟨looked, gets, stored, hown, hfetches⟩, ?_⟩
        have hle := (hstarted.extends.trans hrun.extends).starts.length_le
        rw [hlogged.logOf_eq_nil hle]
        exact List.forall_mem_nil _

end Runs

/-! ## Refreshes of a character with assets -/

def samplePilot : Auth.CharacterDocument where
  characterId := 7
  characterName := "Pilot"
  ownerHash := "owner"
  scopes := []
  accessToken := "token"
  refreshToken := "refresh"
  accessTokenExpiresAt := 0
  createdAt := 0
  updatedAt := 0

theorem refreshes_sample : Refreshes samplePilot sampleListing := .personal (by decide)

/-- A read has missed, and has been answered by ESI. -/
def inFlightEvents : List RequestEvent :=
  [.start (.read sampleListing sampleFetch), .call 0 (.redis .done),
    .call 0 (.esi (.ok ⟨[sampleAsset], 1⟩))]

/-- It stores the list. -/
def storeEvents : List RequestEvent :=
  [.call 0 (.database .done), .call 0 (.utcnow 0), .call 0 (.database .done),
    .call 0 (.redis .done)]

/-- The calls of the refresh, with that of the key of the assets. -/
def refreshEvents (delivery : Delivery) : List RequestEvent :=
  [.call 1 (.database .done), .call 1 (.redis delivery), .call 1 (.database .done),
    .call 1 (.redis .done), .call 1 (.database .done), .call 1 (.redis .done),
    .call 1 (.database .done), .call 1 (.redis .done)]

/-- The refresh has been started after the first events, and the others have happened. -/
def refreshedAfter (earlier during : List RequestEvent) : RequestConfig :=
  requestedAfter (earlier ++ .start (.refresh samplePilot) :: during)

/-- Then a read has been started, and more events have happened. -/
def readAfter (earlier during after : List RequestEvent) : RequestConfig :=
  requestedAfter (earlier ++ .start (.refresh samplePilot) :: during ++
    .start (.read sampleListing sampleFetch) :: after)

/-- A run in which a read that starts after a refresh gives what was fetched before it. -/
structure StaleRead (earlier during after : List RequestEvent) : Prop where
  reaches : (requesting true).Reaches .free (Config.initial _ _ _ _ emptyWorld)
    (requestedAfter earlier)
  starts : (requesting true).step (requestedAfter earlier) (.start (.refresh samplePilot)) =
    some (refreshedAfter earlier [])
  runs : (requesting true).Reaches .free (refreshedAfter earlier []) (refreshedAfter earlier during)
  refreshed : (refreshedAfter earlier during).threads (requestedAfter earlier).moment.starts.length =
    some (.ret .refreshed)
  asks : (requesting true).step (refreshedAfter earlier during)
    (.start (.read sampleListing sampleFetch)) = some (readAfter earlier during [])
  goesOn : (requesting true).Reaches .free (readAfter earlier during []) (readAfter earlier during after)
  reads : (readAfter earlier during after).threads
    (refreshedAfter earlier during).moment.starts.length = some (.ret (.list [sampleAsset]))
  stale : ¬FetchedSince true sampleListing (requestedAfter earlier).moment
    (readAfter earlier during after).moment [sampleAsset]

/-- The read of the run is the third program, and finds the list of the first one. -/
theorem not_fetchedSince {before : RequestMoment} {final : RequestConfig}
    (hstarts : final.moment.starts = [.read sampleListing sampleFetch, .refresh samplePilot,
      .read sampleListing sampleFetch])
    (hgets : ∃ call ∈ before.logOf 0, IsGet call.op)
    (hlook : Program.Ran (sampleListing.look true) (final.moment.logOf 2)
      (.ok (some [sampleAsset]))) :
    ¬FetchedSince true sampleListing before final.moment [sampleAsset] := by
  rintro ⟨thread, fetch, hstart, hyields, hnone⟩
  rw [hstarts] at hstart
  obtain ⟨hlt, _⟩ := List.getElem?_eq_some_iff.mp hstart
  obtain rfl | rfl | rfl : thread = 0 ∨ thread = 1 ∨ thread = 2 := by
    simp only [List.length_cons, List.length_nil] at hlt
    omega
  · obtain ⟨call, hcall, hget⟩ := hgets
    exact hnone call hcall hget
  · cases hstart
  · exact Listing.not_yields hlook (by simp) _ hyields

/-- What a read finds in Redis. -/
theorem ran_sample_look (world : World) {entries : List Document}
    (hfollow : (sampleListing.look true).follow respond [.redis .done] world =
      some ([⟨.mget [sampleListing.key], .ok [world.cache sampleListing.key]⟩],
        .ok (some entries), world)) :
    Program.Ran (sampleListing.look true)
      [⟨.mget [sampleListing.key], .ok [world.cache sampleListing.key]⟩] (.ok (some entries)) :=
  (Program.ran_of_follow hfollow).1

/-- **A read in flight** sets the key after the refresh has deleted it. -/
theorem read_restores_key :
    StaleRead inFlightEvents (refreshEvents .done ++ storeEvents) [.call 2 (.redis .done)] where
  reaches := reaches_events inFlightEvents rfl
  starts := rfl
  runs := reaches_events (refreshEvents .done ++ storeEvents) rfl
  refreshed := rfl
  asks := rfl
  goesOn := reaches_events [.call 2 (.redis .done)] rfl
  reads := rfl
  stale := not_fetchedSince rfl ⟨_, List.mem_cons_self .., trivial⟩
    (ran_sample_look (readAfter inFlightEvents (refreshEvents .done ++ storeEvents)
      [.call 2 (.redis .done)]).moment.world rfl)

/-- **An error of Redis** leaves the key of a list that has been stored before. -/
theorem error_keeps_key :
    StaleRead (inFlightEvents ++ storeEvents) (refreshEvents (.error []))
      [.call 2 (.redis .done)] where
  reaches := reaches_events (inFlightEvents ++ storeEvents) rfl
  starts := rfl
  runs := reaches_events (refreshEvents (.error [])) rfl
  refreshed := rfl
  asks := rfl
  goesOn := reaches_events [.call 2 (.redis .done)] rfl
  reads := rfl
  stale := not_fetchedSince rfl
    ⟨⟨.get .charactersAssets (some 7) "token" (some 1), .ok ⟨[sampleAsset], 1⟩⟩,
      List.mem_cons_of_mem _ (List.mem_cons_of_mem _ (List.mem_cons_of_mem _
        (List.mem_cons_of_mem _ (List.mem_cons_self ..)))), trivial⟩
    (ran_sample_look (readAfter (inFlightEvents ++ storeEvents) (refreshEvents (.error []))
      [.call 2 (.redis .done)]).moment.world rfl)

/-- The calls of the read after a refresh that has left no key. -/
def fetchAgainEvents : List RequestEvent :=
  [.call 2 (.redis .done), .call 2 (.esi (.ok ⟨[sampleAsset], 1⟩)), .call 2 (.database .done),
    .call 2 (.utcnow 0), .call 2 (.database .done), .call 2 (.redis .done)]

/-- The call of a program that was started with the refresh or after it, and has no error. -/
def Undisturbed : RequestEvent → Prop
  | .call thread (.redis delivery) => 0 < thread ∧ delivery = .done
  | .call thread _ => 0 < thread
  | _ => True

theorem reaches_stored : (requesting true).Reaches .free (Config.initial _ _ _ _ emptyWorld)
    (requestedAfter (inFlightEvents ++ storeEvents)) :=
  reaches_events (inFlightEvents ++ storeEvents) rfl

theorem reaches_undisturbed {config later : RequestConfig} (events : List RequestEvent)
    (hrun : (requesting true).run config events = some later)
    (hevents : ∀ event ∈ events, Undisturbed event) :
    (requesting true).Reaches
      (effective sampleListing (requestedAfter (inFlightEvents ++ storeEvents)).moment)
      config later := by
  have hlogged := logged_of_reaches reaches_stored
  refine System.reaches_of_run hrun fun event hevent config => ?_
  have hundisturbed := hevents event hevent
  cases event with
  | call thread choice =>
      have hthread : 0 < thread := by
        cases choice with
        | redis delivery => exact hundisturbed.1
        | _ => exact hundisturbed
      intro op next _
      constructor
      · rintro _ _ delivery rfl
        obtain ⟨_, rfl⟩ := hundisturbed
        exact Or.inl (List.mem_singleton_self _)
      · intro _ items ttlSeconds delivery _ _ _
        rw [hlogged.logOf_eq_nil hthread]
        exact List.forall_mem_nil _
  | _ => trivial

/-- The read after the refresh fetches the list again. -/
theorem force_refresh_sample :
    FetchedSince true sampleListing (requestedAfter (inFlightEvents ++ storeEvents)).moment
      (readAfter (inFlightEvents ++ storeEvents) (refreshEvents .done) fetchAgainEvents).moment
      [sampleAsset] := by
  have hrun : (requesting true).Reaches
      (effective sampleListing (requestedAfter (inFlightEvents ++ storeEvents)).moment)
      (refreshedAfter (inFlightEvents ++ storeEvents) [])
      (refreshedAfter (inFlightEvents ++ storeEvents) (refreshEvents .done)) :=
    reaches_undisturbed (refreshEvents .done) rfl (by simp [refreshEvents, Undisturbed])
  have hlater : (requesting true).Reaches
      (effective sampleListing (requestedAfter (inFlightEvents ++ storeEvents)).moment)
      (readAfter (inFlightEvents ++ storeEvents) (refreshEvents .done) [])
      (readAfter (inFlightEvents ++ storeEvents) (refreshEvents .done) fetchAgainEvents) :=
    reaches_undisturbed fetchAgainEvents rfl (by simp [fetchAgainEvents, Undisturbed])
  have hask : (requesting true).step
      (refreshedAfter (inFlightEvents ++ storeEvents) (refreshEvents .done))
      (.start (.read sampleListing sampleFetch)) =
      some (readAfter (inFlightEvents ++ storeEvents) (refreshEvents .done) []) := rfl
  exact force_refresh reaches_stored rfl hrun rfl hask hlater rfl refreshes_sample

end EveBuild.Cache
