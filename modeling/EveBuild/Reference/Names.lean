import EveBuild.Reference.Resolving

/-!
# Names and security statuses

Any number of lookups of planets, systems and locations at the same time, of which any request
to ESI can fail.  The stores hold what ESI answers, and never that it has answered nothing
(`HoldsTruth`).  A lookup returns something for each of its identifiers and for no other, and
a `None` only where it has asked ESI itself; it asks for nothing twice, and for nothing that
one of the stores has held when it was started (`resolvers_transparent`).
-/

namespace EveBuild.Reference

open Effect

section Names

variable (esi : Path → ℤ → Document) (float : Number → Number)

/-! ## What is returned -/

/-- What is returned for a location: its name, and the security status of its system. -/
def LocationSettled (accessToken : String) (log : ReferenceLog) (id : ℤ) (info : LocationInfo) :
    Prop :=
  ∃ value, Settled esi (locationResolver accessToken) log id value ∧
    info.name = (member "name" value).getD .null ∧
    match systemIdOf value with
    | some systemId => Settled esi (securityResolver float) log systemId info.securityStatus
    | none => info.securityStatus = .null

/-- What a lookup comes to. -/
def Resolves (start : Start) (outcome : Except ReferenceError Reply) (log : ReferenceLog) : Prop :=
  match start, outcome with
  | _, .error error => OfServers error
  | .planetNames ids, .ok (.values found) => Resolved esi planetNameResolver ids.val log found
  | .systemNames ids, .ok (.values found) => Resolved esi systemNameResolver ids.val log found
  | .locationInfo accessToken ids, .ok (.locations found) =>
      (∀ id, id ∈ found.keys ↔ id ∈ ids.val) ∧ ∀ id info, found.get? id = some info →
        LocationSettled esi float accessToken log id info
  | _, .ok _ => False

variable {esi float} {sde : Collections} {tracked : Kind → Prop} {redis : Bool} {ttlSeconds : ℕ}
  {thread : ℕ} {start : Start} {began : Collections} {log : ReferenceLog}
  {moment : ReferenceMoment}

theorem resolves_error {error : ReferenceError} :
    Resolves esi float start (.error error) log ↔ OfServers error := by
  cases start <;> rfl

/-- A lookup of names. -/
theorem safe_names {resolver : Resolver} (hlawful : resolver.Lawful sde esi float)
    (hpath : ∀ id, start.askedBy (resolver.path id) = some resolver.kind)
    (htracked : tracked resolver.kind) {ids : IdSet}
    (hresolves : ∀ values own, Resolved esi resolver ids.val own values →
      Resolves esi float start (.ok (.values values)) own)
    (hkept : Kept sde esi float tracked moment) (hstage : Stage thread start began [] moment) :
    (contract sde esi float tracked).Safe (looking esi redis ttlSeconds float)
      (lookingUp tracked) thread
      (resolver.resolve redis ttlSeconds ids.val >>= fun found => return .values found)
      (fun outcome later => ∃ own, Stage thread start began own later ∧
        Resolves esi float start outcome own) moment := by
  refine (safe_resolve hlawful hpath htracked ids.property hkept hstage
    fun _ => List.not_mem_nil).bind hkept ?_ ?_
  · rintro found later _ ⟨own, hlater, _, hfound, _⟩
    rw [List.append_nil] at hlater hfound
    exact safe_ret hlater fun final _ hfinal _ =>
      ⟨own, hfinal, hresolves found own (hfound found rfl)⟩
  · rintro error later _ ⟨own, hlater, _, _, herrors⟩
    rw [List.append_nil] at hlater
    exact ⟨own, hlater, resolves_error.mpr (herrors error rfl)⟩

/-- What is returned for the locations. -/
theorem settled_locationInfo {accessToken : String} {ids : List ℤ}
    {locations securities : Dict ℤ Value} {first rest : ReferenceLog}
    (hlocations : Resolved esi (locationResolver accessToken) ids first locations)
    (hsecurities : Resolved esi (securityResolver float)
      (locations.values.filterMap systemIdOf).dedup (rest ++ first) securities) :
    (∀ id, id ∈ (Dict.indexBy Prod.fst (fun entry => locationInfo securities entry.2)
      locations.entries).keys ↔ id ∈ ids) ∧
    ∀ id info, (Dict.indexBy Prod.fst (fun entry => locationInfo securities entry.2)
      locations.entries).get? id = some info →
      LocationSettled esi float accessToken (rest ++ first) id info := by
  refine ⟨fun id => ?_, fun id info hinfo => ?_⟩
  · rw [Dict.mem_keys_indexBy, ← hlocations.keys id, Dict.keys, List.mem_map]
  · rw [Dict.get?_eq_some_iff, Dict.entries_indexBy _ locations.nodup_keys] at hinfo
    obtain ⟨⟨other, value⟩, hentry, heq⟩ := List.mem_map.mp hinfo
    obtain ⟨rfl, rfl⟩ := Prod.mk.inj heq
    refine ⟨value, (hlocations.settled other value (Dict.get?_eq_some_iff.mpr hentry)).mono
      (List.subset_append_right _ _), rfl, ?_⟩
    dsimp only [locationInfo]
    cases hsystem : systemIdOf value with
    | none => rfl
    | some systemId =>
        -- the system is one of those that have been looked up
        have hmem : systemId ∈ securities.keys := by
          rw [hsecurities.keys, List.mem_dedup, List.mem_filterMap]
          exact ⟨value, List.mem_map_of_mem hentry, hsystem⟩
        obtain ⟨status, hstatus⟩ := Dict.mem_keys_iff.mp hmem
        show Settled esi (securityResolver float) _ systemId (securities.getD systemId .null)
        rw [Dict.getD_of_get? hstatus]
        exact hsecurities.settled systemId status hstatus

/-- **A lookup of locations**, and then of their systems. -/
theorem safe_resolveLocationInfo {accessToken : String} {ids : IdSet}
    (hlocation : tracked .locationDetails) (hsecurity : tracked .systemSecurity)
    (hkept : Kept sde esi float tracked moment)
    (hstage : Stage thread (.locationInfo accessToken ids) began [] moment) :
    (contract sde esi float tracked).Safe (looking esi redis ttlSeconds float)
      (lookingUp tracked) thread
      (resolveLocationInfo redis ttlSeconds float accessToken ids.val >>= fun found =>
        return .locations found)
      (fun outcome later => ∃ own, Stage thread (.locationInfo accessToken ids) began own later ∧
        Resolves esi float (.locationInfo accessToken ids) outcome own) moment := by
  rw [resolveLocationInfo, Program.bind_assoc]
  refine (safe_resolve (lawful_locationResolver accessToken) (fun id => ?_) hlocation ids.property
    hkept hstage fun _ => List.not_mem_nil).bind hkept ?_ ?_
  · -- stations and structures are asked for by different paths
    unfold locationResolver
    dsimp only
    split_ifs <;> rfl
  · rintro locations later hlater ⟨first, hfirst, hkinds, hlocations, _⟩
    rw [List.append_nil] at hfirst hlocations
    rw [Program.bind_assoc]
    refine (safe_resolve lawful_securityResolver (fun _ => rfl) hsecurity (List.nodup_dedup _)
      hlater hfirst fun id hasked => ?_).bind hlater ?_ ?_
    · -- so far it has asked for locations only
      cases hkinds _ hasked
    · rintro securities final _ ⟨rest, hrest, _, hsecurities, _⟩
      exact safe_ret hrest fun last _ hlast _ => ⟨_, hlast,
        settled_locationInfo (hlocations locations rfl) (hsecurities securities rfl)⟩
    · rintro error final _ ⟨rest, hrest, _, _, herrors⟩
      exact ⟨_, hrest, herrors error rfl⟩
  · rintro error later _ ⟨own, hown, _, _, herrors⟩
    rw [List.append_nil] at hown
    exact ⟨own, hown, herrors error rfl⟩

/-- **A lookup** of names and security statuses. -/
theorem safe_resolves (hkinds : ∀ kind ∈ start.kinds, ¬ kind.OfSde)
    (hkept : Kept sde esi float (fun kind => ¬ kind.OfSde) moment)
    (hstage : Stage thread start began [] moment) :
    (contract sde esi float fun kind => ¬ kind.OfSde).Safe
      (looking esi redis ttlSeconds float) (lookingUp fun kind => ¬ kind.OfSde) thread
      ((looking esi redis ttlSeconds float).body start)
      (fun outcome later => ∃ own, Stage thread start began own later ∧
        Resolves esi float start outcome own) moment := by
  cases start with
  | planetNames ids =>
      exact safe_names lawful_planetNameResolver (fun _ => rfl) not_false
        (fun values own hresolved => hresolved) hkept hstage
  | systemNames ids =>
      exact safe_names lawful_systemNameResolver (fun _ => rfl) not_false
        (fun values own hresolved => hresolved) hkept hstage
  | locationInfo accessToken ids =>
      exact safe_resolveLocationInfo not_false not_false hkept hstage
  | _ => exact absurd trivial (hkinds _ (List.mem_cons_self ..))

/-! ## What the stores hold -/

variable (float) in
/-- The four resolvers.  What is kept of a location does not depend on the access token. -/
def resolvers : List Resolver :=
  [locationResolver "", securityResolver float, planetNameResolver, systemNameResolver]

variable (esi float) in
/-- The stores hold what ESI answers where that is not `None`, and Redis nothing that MongoDB
does not hold. -/
structure HoldsTruth (world : World) : Prop where
  documents : ∀ resolver ∈ resolvers float, ∀ id document,
    world.documents resolver.kind.store.collectionName id = some document →
      resolver.kind.store.ofDocument document = some (resolver.truth esi id) ∧
        resolver.isResolved (resolver.truth esi id) = true
  cache : ∀ resolver ∈ resolvers float, ∀ id value,
    world.cache.cache (resolver.kind.key id) = some value →
      value = resolver.truth esi id ∧ resolver.isResolved (resolver.truth esi id) = true ∧
        world.documents.Holds resolver.kind id

theorem lawful_of_mem {resolver : Resolver} (hmem : resolver ∈ resolvers float) :
    resolver.Lawful sde esi float := by
  simp only [resolvers, List.mem_cons, List.not_mem_nil, or_false] at hmem
  rcases hmem with rfl | rfl | rfl | rfl
  · exact lawful_locationResolver ""
  · exact lawful_securityResolver
  · exact lawful_planetNameResolver
  · exact lawful_systemNameResolver

theorem exists_resolver (float : Number → Number) {kind : Kind} (hkind : ¬ kind.OfSde) :
    ∃ resolver ∈ resolvers float, resolver.kind = kind := by
  cases kind with
  | locationDetails => exact ⟨locationResolver "", by simp [resolvers], rfl⟩
  | systemSecurity => exact ⟨securityResolver float, by simp [resolvers], rfl⟩
  | planetName => exact ⟨planetNameResolver, by simp [resolvers], rfl⟩
  | systemName => exact ⟨systemNameResolver, by simp [resolvers], rfl⟩
  | _ => exact absurd trivial hkind

/-- What there is to know is what ESI answers. -/
theorem source_eq_some_iff {resolver : Resolver} (hlawful : resolver.Lawful sde esi float)
    {id : ℤ} {value : Value} : source sde esi float resolver.kind id = some value ↔
      value = resolver.truth esi id ∧ resolver.isResolved (resolver.truth esi id) = true := by
  rw [hlawful.source, Resolver.kept, Option.ite_none_right_eq_some, and_comm, Option.some_inj,
    eq_comm]

theorem holdsTruth_iff_sound {world : World} :
    HoldsTruth esi float world ↔ Sound sde esi float (fun kind => ¬ kind.OfSde) world := by
  constructor
  · intro hholds
    refine ⟨fun kind hkind hofSde => absurd hofSde hkind,
      fun kind hkind id document hdocument => ?_, fun kind hkind id value hvalue => ?_⟩
    · obtain ⟨resolver, hmem, rfl⟩ := exists_resolver float hkind
      obtain ⟨hdecoded, hresolved⟩ := hholds.documents resolver hmem id document hdocument
      exact ⟨_, hdecoded, (source_eq_some_iff (lawful_of_mem hmem)).mpr ⟨rfl, hresolved⟩⟩
    · obtain ⟨resolver, hmem, rfl⟩ := exists_resolver float hkind
      obtain ⟨htruth, hresolved, hheld⟩ := hholds.cache resolver hmem id value hvalue
      exact ⟨(source_eq_some_iff (lawful_of_mem hmem)).mpr ⟨htruth, hresolved⟩, hheld⟩
  · intro hsound
    refine ⟨fun resolver hmem id document hdocument => ?_, fun resolver hmem id value hvalue => ?_⟩
    · have hlawful : resolver.Lawful sde esi float := lawful_of_mem hmem
      obtain ⟨value, hdecoded, hsource⟩ :=
        hsound.documents resolver.kind hlawful.ofEsi id document hdocument
      obtain ⟨rfl, hresolved⟩ := (source_eq_some_iff hlawful).mp hsource
      exact ⟨hdecoded, hresolved⟩
    · have hlawful : resolver.Lawful sde esi float := lawful_of_mem hmem
      obtain ⟨hsource, hheld⟩ := hsound.cache resolver.kind hlawful.ofEsi id value hvalue
      obtain ⟨htruth, hresolved⟩ := (source_eq_some_iff hlawful).mp hsource
      exact ⟨htruth, hresolved, hheld⟩

/-! ## What has been held -/

/-- Nothing is deleted from MongoDB in a run, and a lookup that is started in it finds what
was there before. -/
theorem grows_of_reaches {policy : Policy signature ReferenceError World Start Choice Cache.Tick}
    {before config : ReferenceConfig}
    (hreaches : (looking esi redis ttlSeconds float).Reaches policy before config) :
    Grows before.moment.world.documents config.moment.world.documents ∧
      ∀ (thread : ℕ) began, before.moment.world.began.length ≤ thread →
        config.moment.world.began[thread]? = some began →
        Grows before.moment.world.documents began := by
  refine hreaches.invariant (motive := fun later =>
    Grows before.moment.world.documents later.moment.world.documents ∧
      ∀ (thread : ℕ) began, before.moment.world.began.length ≤ thread →
        later.moment.world.began[thread]? = some began →
        Grows before.moment.world.documents began)
    ⟨Grows.refl _, fun thread began hthread hbegan => ?_⟩
    fun middle event after ⟨hgrows, hbegan⟩ _ hstep => ?_
  · rw [List.getElem?_eq_none hthread] at hbegan
    cases hbegan
  cases hstep with
  | start henter =>
      -- what a lookup finds when it is started is what there is by then
      obtain rfl := Option.some.inj henter
      refine ⟨hgrows, fun thread began hthread hlast => ?_⟩
      rcases Nat.lt_or_ge thread middle.moment.world.began.length with hlt | hge
      · exact hbegan thread began hthread ((List.getElem?_append_left hlt).symm.trans hlast)
      · have hnew := List.mem_of_getElem? ((List.getElem?_append_right hge).symm.trans hlast)
        exact List.mem_singleton.mp hnew ▸ hgrows
  | call hthread hrespond =>
      obtain ⟨hlater, hsame⟩ := grows_of_respond hrespond
      refine ⟨hgrows.trans hlater, fun thread began hthread hlast => hbegan thread began hthread ?_⟩
      exact hsame ▸ hlast
  | crash hthread => exact ⟨hgrows, hbegan⟩
  | @tick tick world htick =>
      cases tick with
      | expire key =>
          obtain rfl := Option.some.inj htick
          exact ⟨hgrows, hbegan⟩

/-- One of the stores has something under the identifier. -/
def World.Holds (world : World) (kind : Kind) (id : ℤ) : Prop :=
  world.documents.Holds kind id ∨ world.cache.cache (kind.key id) ≠ none

/-- **The resolvers are transparent, and never remember a failure.**  Any number of lookups run
at the same time, and any request to ESI can fail.  The stores only ever hold what ESI answers;
a lookup asks for nothing twice, and for nothing that one of the stores has held when it was
started; and what it returns is ESI's, or `None` where it has asked itself. -/
theorem resolvers_transparent {documents : Collections} {cache : Cache.World}
    (hholds : HoldsTruth esi float (World.initial documents cache)) {config : ReferenceConfig}
    (hreaches : (looking esi redis ttlSeconds float).Reaches
      (lookingUp fun kind => ¬ kind.OfSde)
      (Config.initial _ _ _ _ (World.initial documents cache)) config) :
    HoldsTruth esi float config.moment.world ∧
    ∀ (thread : ℕ) start, config.moment.starts[thread]? = some start →
      (asked start (config.moment.logOf thread)).Nodup ∧
      (∀ before : ReferenceConfig,
        (looking esi redis ttlSeconds float).Reaches (lookingUp fun kind => ¬ kind.OfSde)
          (Config.initial _ _ _ _ (World.initial documents cache)) before →
        (looking esi redis ttlSeconds float).Reaches (lookingUp fun kind => ¬ kind.OfSde)
          before config →
        before.moment.starts.length ≤ thread → ∀ kind id, ¬ kind.OfSde →
          before.moment.world.Holds kind id →
          (some kind, id) ∉ asked start (config.moment.logOf thread)) ∧
      ∀ program outcome, config.threads thread = some program →
        program.outcome? = some outcome →
        Resolves esi float start outcome (config.moment.logOf thread) := by
  have hsound : Sound (fun _ _ => none) esi float (fun kind => ¬ kind.OfSde)
      (World.initial documents cache) := holdsTruth_iff_sound.mp hholds
  obtain ⟨hkept, houtcomes⟩ := served
    (fun _ _ _ _ hkinds hstart hstage => safe_resolves hkinds hstart hstage) hsound hreaches
  refine ⟨holdsTruth_iff_sound.mpr hkept.sound, fun thread start hstart => ?_⟩
  obtain ⟨began, hbegan⟩ : ∃ began, config.moment.world.began[thread]? = some began := by
    obtain ⟨hlt, _⟩ := List.getElem?_eq_some_iff.mp hstart
    rw [← hkept.began] at hlt
    exact ⟨_, List.getElem?_eq_getElem hlt⟩
  have hasks := hkept.asks thread start began hstart hbegan
  refine ⟨hasks.nodup, fun before hbefore hlater hthread kind id hkind hheld hasked => ?_,
    fun program outcome hprogram houtcome =>
      houtcomes thread start program outcome hstart hprogram houtcome⟩
  obtain ⟨hkeptBefore, _⟩ := served
    (fun _ _ _ _ hkinds hstart hstage => safe_resolves hkinds hstart hstage) hsound hbefore
  -- what Redis holds, MongoDB holds as well
  have hdocument : before.moment.world.documents.Holds kind id := by
    rcases hheld with hdocument | hcached
    · exact hdocument
    · obtain ⟨value, hvalue⟩ := Option.ne_none_iff_exists'.mp hcached
      exact (hkeptBefore.sound.cache kind hkind id value hvalue).2
  have hgrows := (grows_of_reaches hlater).2 thread began (hkeptBefore.began ▸ hthread) hbegan
  obtain ⟨other, heq, hunheld⟩ := hasks.unheld _ hasked
  obtain rfl := Option.some.inj heq
  exact hunheld (hgrows _ _ hdocument)

end Names

/-! ## A request that fails -/

/-- ESI knows the names of planets. -/
def sampleEsi : Path → ℤ → Document
  | .planets, id => Dict.single "name" (.string s!"Planet {id}")
  | _, _ => .empty

/-- A lookup of two planets, of which the second cannot be asked for. -/
def failingRequest : List (Event Start Choice Cache.Tick) :=
  [.start (.planetNames ⟨[1, 2], by decide⟩), .call 0 (.inl (.redis .done)),
    .call 0 (.inr (.database .done)), .call 0 (.inr (.esi .answered)), .call 0 (.inr (.utcnow 0)),
    .call 0 (.inr (.database .done)), .call 0 (.inl (.redis .done)),
    .call 0 (.inr (.esi (.status 502)))]

theorem resolvers_transparent_failingRequest :
    ∃ (later : ReferenceConfig) (found : Dict ℤ Value), (looking sampleEsi true 60 id).run
        (Config.initial _ _ _ _ (World.initial (fun _ _ => none) Cache.emptyWorld))
        failingRequest = some later ∧
      later.threads 0 = some (.ret (.values found)) ∧ found.values = [.string "Planet 1", .null] ∧
      HoldsTruth sampleEsi id later.moment.world ∧
      Resolved sampleEsi planetNameResolver [1, 2] (later.moment.logOf 0) found := by
  obtain ⟨later, found, hrun, hstart, hthread, hvalues⟩ : ∃ (later : ReferenceConfig)
      (found : Dict ℤ Value), (looking sampleEsi true 60 id).run (Config.initial _ _ _ _
        (World.initial (fun _ _ => none) Cache.emptyWorld)) failingRequest = some later ∧
      later.moment.starts[0]? = some (.planetNames ⟨[1, 2], by decide⟩) ∧
      later.threads 0 = some (.ret (.values found)) ∧
      found.values = [.string "Planet 1", .null] := ⟨_, _, rfl, rfl, rfl, rfl⟩
  obtain ⟨hholds, hlookups⟩ := resolvers_transparent
    ⟨fun _ _ _ _ hdocument => (by cases hdocument), fun _ _ _ _ hvalue => (by cases hvalue)⟩
    (System.reaches_of_run hrun fun event hevent _ => by
      rcases List.mem_cons.mp hevent with rfl | hcall
      · exact List.forall_mem_singleton.mpr not_false
      · simp only [List.mem_cons, List.not_mem_nil, or_false] at hcall
        rcases hcall with rfl | rfl | rfl | rfl | rfl | rfl | rfl <;> exact fun _ _ _ => trivial)
  exact ⟨later, found, hrun, hthread, hvalues, hholds, (hlookups 0 _ hstart).2.2 _ _ hthread rfl⟩

end EveBuild.Reference
