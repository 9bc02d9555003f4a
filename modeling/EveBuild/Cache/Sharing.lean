import EveBuild.Cache.Origins

/-!
# Corporation lists that are shared

ESI checks on every request whether a character may see a list of its corporation.  The
cache does not: its key has only the corporation, so that what one character has fetched
is read by every other one, also by one whom ESI would refuse.

`refused_shows_cached` says what a character gets of a list that ESI refuses it, whatever
ESI says of the other lists.  It is the list that its request has found in Redis, if it
has found one; and then ESI has answered it to another request for the same corporation
(or it is from before the run).  Otherwise it is `None`, and a merged list is the personal
one alone.  `refused_reads_cached` is a run in which the list
of a Director is shown to a member whom ESI refuses.
-/

namespace EveBuild.Cache

open Effect

/-! ## Refusals -/

/-- ESI refuses the token on the path of one list, for its character or corporation. -/
def refusing (accessToken : String) (origin : Origin) :
    Policy signature CacheError World Start Choice Tick where
  start _ _ := True
  call _ op choice _ :=
    match op, choice with
    | .get endpoint id token _, .esi answer =>
        token = accessToken → endpoint = origin.endpoint → id = origin.id →
          answer = .error (.httpStatus 401) ∨ answer = .error (.httpStatus 403)
    | _, _ => True
  crash _ _ := True
  tick _ _ := True

/-- An answer that there can be when ESI refuses the token. -/
def Possible (accessToken : String) (origin : Origin) : Call signature CacheError → Prop
  | ⟨.mget keys, .ok values⟩ => values.length = keys.length
  | ⟨.mget _, .error error⟩ => error = .redis
  | ⟨.get endpoint id token _, answer⟩ =>
      token = accessToken → endpoint = origin.endpoint → id = origin.id →
        answer = .error (.httpStatus 401) ∨ answer = .error (.httpStatus 403)
  | _ => True

def Orderly (accessToken : String) (origin : Origin) (log : CacheLog) : Prop :=
  ∀ call ∈ log, Possible accessToken origin call

theorem possible_of_respond {accessToken : String} {origin : Origin} {thread : ℕ} {op : Op}
    {choice : Choice} {moment : CacheMoment} {world : World}
    {answer : Except CacheError op.Answer}
    (hpolicy : (refusing accessToken origin).call thread op choice moment)
    (hrespond : respond op choice moment.world = some (answer, world)) :
    Possible accessToken origin ⟨op, answer⟩ := by
  cases op <;> cases choice <;>
    simp only [respond, Option.some.injEq, Prod.mk.injEq, reduceCtorEq] at hrespond
  case mget.redis keys delivery =>
    obtain ⟨rfl, _⟩ := hrespond
    cases delivery with
    | done => exact List.length_map ..
    | error carriedOut => rfl
  case get.esi endpoint id token page answered =>
    obtain ⟨rfl, _⟩ := hrespond
    exact hpolicy
  all_goals trivial

theorem orderly_of_reaches {redis : Bool} {accessToken : String} {origin : Origin}
    {world : World} {config : CacheConfig}
    (hreaches : (caching redis).Reaches (refusing accessToken origin)
      (Config.initial _ _ _ _ world) config)
    (thread : ℕ) : Orderly accessToken origin (config.moment.logOf thread) := by
  revert thread
  refine hreaches.invariant (motive := fun config =>
    ∀ thread, Orderly accessToken origin (config.moment.logOf thread)) ?_ ?_
  · intro thread call hcall
    cases hcall
  intro before event after hbefore hmeets hstep
  cases hstep with
  | start henter => exact hbefore
  | @call caller choice op next answer world hthread hrespond =>
      intro thread call hcall
      rcases Moment.mem_answer_logOf hcall with hold | ⟨_, rfl⟩
      · exact hbefore thread call hold
      · exact possible_of_respond (hmeets op next hthread) hrespond
  | crash hthread => exact hbefore
  | tick htick => exact hbefore

/-! ## What a request has found -/

/-- The list that a call has found under the key of the origin. -/
def readCall (origin : Origin) : Call signature CacheError → Option (List Document)
  | ⟨.mget keys, .ok [some value]⟩ =>
      if keys = [origin.key] then origin.kind.entryType.decode value else none
  | _ => none

/-- The list that a request has found in Redis. -/
def readList (log : CacheLog) (origin : Origin) : Option (List Document) :=
  log.findSome? (readCall origin)

section Logs

variable {log later : CacheLog} {accessToken : String} {origin : Origin}

theorem Orderly.mono (hsuffix : log <:+ later) (hlater : Orderly accessToken origin later) :
    Orderly accessToken origin log := fun call hcall => hlater call (hsuffix.subset hcall)

/-- Nothing is asked of a program after an answer that there cannot be. -/
theorem records_of_disorderly {β : Type} {post : Except CacheError β → CacheLog → Prop}
    (hlog : ¬ Orderly accessToken origin log) (program : Code β) :
    program.Records (fun _ => True)
      (fun outcome later => Orderly accessToken origin later → post outcome later) log := by
  refine (Program.records_ran program log).mono ?_
  rintro outcome later ⟨own, rfl, _⟩ hlater
  exact absurd (hlater.mono (List.suffix_append _ _)) hlog

theorem readList_nil : readList [] origin = none := rfl

/-- A call that has found nothing. -/
theorem readList_cons {call : Call signature CacheError} (hcall : readCall origin call = none) :
    readList (call :: log) origin = readList log origin := by
  rw [readList, List.findSome?_cons, hcall]
  rfl

/-- A read of the key of the list. -/
theorem records_readList (accessToken : String) {redis : Bool} (hlog : readList log origin = none) :
    (getManyCached redis [origin.key]).Records (fun _ => True) (fun outcome later =>
      Orderly accessToken origin later → ∃ cached, outcome = .ok cached ∧
        (cached.lookup origin.key).bind origin.kind.entryType.decode =
          readList later origin) log := by
  -- an answer without a list leaves the list unread
  have hnothing : ∀ answer, readCall origin ⟨.mget [origin.key], answer⟩ = none →
      readList (⟨.mget [origin.key], answer⟩ :: log) origin = none :=
    fun answer hcall => (readList_cons hcall).trans hlog
  rw [getManyCached]
  split
  · exact fun _ => ⟨[], rfl, hlog.symm⟩
  refine fun answer => ⟨trivial, ?_⟩
  cases answer with
  | error error =>
      show (if error = .redis then (return [] : Code _) else throw error).Records _ _ _
      split
      · exact fun _ => ⟨[], rfl, (hnothing _ rfl).symm⟩
      · rename_i hother
        exact fun horderly => absurd (horderly _ (List.mem_cons_self ..)) hother
  | ok values =>
      intro horderly
      have hlength : values.length = 1 := horderly _ (List.mem_cons_self ..)
      obtain ⟨value, rfl⟩ := List.length_eq_one_iff.mp hlength
      cases value with
      | none => exact ⟨[], rfl, (hnothing _ rfl).symm⟩
      | some value =>
          refine ⟨[(origin.key, value)], rfl, ?_⟩
          have hlookup : [(origin.key, value)].lookup origin.key = some value := by simp
          rw [hlookup, readList, List.findSome?_cons]
          cases hdecode : origin.kind.entryType.decode value with
          | none => simpa [readCall, hdecode, readList] using hlog.symm
          | some entries => simp [readCall, hdecode]

/-- A refusal that is raised. -/
def Raises {β : Type} (outcome : Except CacheError β) : Prop :=
  ∃ error, outcome = .error error ∧ (error = .httpStatus 401 ∨ error = .httpStatus 403)

/-- ESI refuses the fetch of a corporation list. -/
theorem records_refusedFetch (hlog : readList log origin = none) :
    (getPagedList origin.endpoint origin.kind.entryType origin.id accessToken).Records
      (fun _ => True) (fun outcome later => Orderly accessToken origin later →
        readList later origin = none ∧ Raises outcome) log := by
  refine fun answer => ⟨trivial, ?_⟩
  cases answer with
  | ok response =>
      refine records_of_disorderly (fun horderly => ?_) _
      rcases horderly _ (List.mem_cons_self ..) rfl rfl rfl with hrefused | hrefused <;>
        cases hrefused
  | error error =>
      intro horderly
      have hrefused := horderly _ (List.mem_cons_self ..) rfl rfl rfl
      exact ⟨(readList_cons rfl).trans hlog, error, rfl,
        hrefused.imp Except.error.inj Except.error.inj⟩

/-- A cached list whose fetch is refused, and what becomes of it. -/
def RefusedList {β : Type} (accessToken : String) (origin : Origin) (value : List Document → β)
    (outcome : Except CacheError β) (later : CacheLog) : Prop :=
  Orderly accessToken origin later →
    (∃ entries, readList later origin = some entries ∧ outcome = .ok (value entries)) ∨
      readList later origin = none ∧ Raises outcome

theorem records_refusedList {field collectionName : String} {redis : Bool} {ttlSeconds : ℕ}
    (hlog : readList log origin = none) :
    (cachedList field redis collectionName origin.source.cacheKeyPrefix origin.id ttlSeconds
      origin.kind.entryType
      (getPagedList origin.endpoint origin.kind.entryType origin.id accessToken)).Records
      (fun _ => True) (RefusedList accessToken origin id) log := by
  refine (records_readList accessToken hlog).bind ?_ ?_
  · intro cached read hread
    by_cases horderly : Orderly accessToken origin read
    · obtain ⟨_, hcached, hdecode⟩ := hread horderly
      obtain rfl := Except.ok.inj hcached
      change (cached.lookup (cacheKey origin.source.cacheKeyPrefix origin.id)).bind _ = _ at hdecode
      rw [hdecode]
      split
      · -- the list has been read, and ESI is not asked
        rename_i entries hentries
        exact fun _ => Or.inl ⟨entries, hentries, rfl⟩
      · rename_i hnone
        refine (records_refusedFetch hnone).bind (fun entries fetched hfetched => ?_)
          fun error fetched hfetched hlater => ?_
        · -- a fetch of which a request is refused returns no list
          refine records_of_disorderly (fun hlater => ?_) _
          obtain ⟨_, error, herror, _⟩ := hfetched hlater
          cases herror
        · obtain ⟨hnothing, _, herror, hrefusal⟩ := hfetched hlater
          cases herror
          exact Or.inr ⟨hnothing, error, rfl, hrefusal⟩
    · exact records_of_disorderly horderly _
  · intro error read hread horderly
    obtain ⟨cached, hcached, _⟩ := hread horderly
    cases hcached

/-- **What a refused character gets** is what its request has found. -/
theorem records_refused (redis : Bool) (corporationId : Option ℤ) (kind : Kind)
    (hlog : readList log (.corporation kind corporationId) = none) :
    (kind.getCorporationList redis accessToken corporationId).Records (fun _ => True)
      (fun outcome later => Orderly accessToken (.corporation kind corporationId) later →
        outcome = .ok (readList later (.corporation kind corporationId))) log := by
  rw [Kind.getCorporationList_eq]
  refine Program.Records.tryCatch (?_ : Program.Records _ _ (RefusedList accessToken
    (.corporation kind corporationId) some) log) (fun value later hlater horderly => ?_)
    fun error later hlater => ?_
  · refine (records_refusedList hlog).bind (fun entries later hlater horderly => ?_)
      fun error later hlater horderly => ?_
    · rcases hlater horderly with ⟨read, hread, hentries⟩ | ⟨_, _, herror, _⟩
      · obtain rfl := Except.ok.inj hentries
        exact Or.inl ⟨entries, hread, rfl⟩
      · cases herror
    · rcases hlater horderly with ⟨_, _, hentries⟩ | ⟨hnone, _, herror, hrefusal⟩
      · cases hentries
      · cases herror
        exact Or.inr ⟨hnone, error, rfl, hrefusal⟩
  · rcases hlater horderly with ⟨read, hread, hvalue⟩ | ⟨_, _, herror, _⟩
    · rw [hread, hvalue]
    · cases herror
  · by_cases horderly : Orderly accessToken (.corporation kind corporationId) later
    · rcases hlater horderly with ⟨_, _, hvalue⟩ | ⟨hnone, _, herror, hrefusal⟩
      · cases hvalue
      · cases herror
        rw [if_pos hrefusal]
        exact fun _ => congrArg Except.ok hnone.symm
    · exact records_of_disorderly horderly _

/-! ## Merged lists -/

/-- The calls of a personal read look for one key only. -/
def LooksFor (key : String) : Op → Prop
  | .mget keys => keys = [key]
  | _ => True

theorem issues_looksFor (redis : Bool) (token : String) (characterId : ℤ) (kind : Kind) :
    (kind.getCharacterList redis token characterId).Issues
      (LooksFor (Origin.character kind characterId).key) := by
  rw [Kind.getCharacterList_eq]
  refine issues_cachedList trivial trivial (fun _ => trivial) redis _ _ rfl (fun _ => trivial) ?_
  cases kind with
  | industryJobs => exact issues_getUnpagedList (fun _ => trivial) _
  | _ => exact issues_getPagedList (fun _ => trivial) _

/-- A read of another key finds nothing. -/
theorem readCall_of_looksFor {call : Call signature CacheError} {key : String}
    (hlooks : LooksFor key call.op) (hne : key ≠ origin.key) : readCall origin call = none := by
  unfold readCall
  split
  · refine if_neg fun hkeys => hne ?_
    exact (List.singleton_inj.mp (hlooks.symm.trans hkeys))
  · rfl

/-- A personal read finds no corporation list. -/
theorem records_personal (redis : Bool) (token : String) (characterId : ℤ) (kind : Kind)
    (corporationId : Option ℤ) :
    (kind.getCharacterList redis token characterId).Records (fun _ => True)
      (fun outcome later => readList later (.corporation kind corporationId) = none ∧
        Program.Ran (kind.getCharacterList redis token characterId) later outcome) [] := by
  have hne : (Origin.character kind characterId).key ≠
      (Origin.corporation kind corporationId).key := fun heq => by cases Origin.key_injective heq
  have hnothing : (kind.getCharacterList redis token characterId).Records
      (fun later => readList later (.corporation kind corporationId) = none)
      (fun _ later => readList later (.corporation kind corporationId) = none) [] := by
    have hcons : ∀ (call : Call signature CacheError) log, LooksFor _ call.op →
        readList log (.corporation kind corporationId) = none →
        readList (call :: log) (.corporation kind corporationId) = none :=
      fun call log hlooks hlog => (readList_cons (readCall_of_looksFor hlooks hne)).trans hlog
    exact ((issues_looksFor redis token characterId kind).records_of_cons
      (Program.returns_true _) hcons readList_nil).mono fun _ _ hlater => hlater.1
  refine ((Program.records_ran _ []).and hnothing).mono ?_
  rintro outcome later ⟨⟨own, rfl, hran⟩, hnone⟩
  rw [List.append_nil] at hnone ⊢
  exact ⟨hnone, hran⟩

/-- What a merged list is made of. -/
def mergedReply : Except CacheError (List Document) → Option (List Document) →
    Except CacheError Reply
  | .error error, _ => .error error
  | .ok personal, none => .ok (.mergedList personal false)
  | .ok personal, some corpEntries => .ok (.mergedList (personal ++ corpEntries) true)

/-- The personal list, and the list of the corporation that the request has found. -/
def MergedFound (redis : Bool) (kind : Kind) (character : Auth.CharacterDocument)
    (outcome : Except CacheError Reply) (later : CacheLog) : Prop :=
  ∃ earlier personal, earlier <:+ later ∧
    Program.Ran (kind.getCharacterList redis character.accessToken character.characterId) earlier
      personal ∧
    outcome = mergedReply personal (readList later (.corporation kind character.corporationId))

/-- What a request of a character whom ESI refuses the list ends with. -/
def refusedPost (redis : Bool) (accessToken : String) (kind : Kind) (corporationId : Option ℤ)
    (start : Start) (outcome : Except CacheError Reply) (later : CacheLog) : Prop :=
  Orderly accessToken (.corporation kind corporationId) later →
    (start = .corporationList kind accessToken corporationId →
      outcome = .ok (.corporationList (readList later (.corporation kind corporationId)))) ∧
    ∀ character, start = .mergedList kind character → corpDataConnected character = true →
      character.corpAccessToken = some accessToken → character.corporationId = corporationId →
      MergedFound redis kind character outcome later

/-- The merged list and its flag, for the corporation's list that the request has found. -/
def mergedPair (personal : List Document) : Option (List Document) → List Document × Bool
  | none => (personal, false)
  | some corpEntries => (personal ++ corpEntries, true)

theorem records_mergedList (redis : Bool) (kind : Kind) (character : Auth.CharacterDocument)
    (hconnected : corpDataConnected character = true)
    (htoken : character.corpAccessToken = some accessToken) :
    ((caching redis).body (.mergedList kind character)).Records (fun _ => True)
      (fun outcome later =>
        Orderly accessToken (.corporation kind character.corporationId) later →
        MergedFound redis kind character outcome later) [] := by
  -- after the personal list
  have hcorp : ∀ personal earlier,
      readList earlier (.corporation kind character.corporationId) = none →
      (mergeCorp character personal fun token corpId =>
        kind.getCorporationList redis token corpId).Records (fun _ => True)
        (fun outcome later => earlier <:+ later ∧
          (Orderly accessToken (.corporation kind character.corporationId) later →
            outcome = .ok (mergedPair personal
              (readList later (.corporation kind character.corporationId))))) earlier := by
    intro personal earlier hearlier
    have hmerge : (mergeCorp character personal fun token corpId =>
        kind.getCorporationList redis token corpId).Records (fun _ => True)
        (fun outcome later =>
          Orderly accessToken (.corporation kind character.corporationId) later →
          outcome = .ok (mergedPair personal
            (readList later (.corporation kind character.corporationId)))) earlier := by
      rw [mergeCorp, if_neg (by simp [hconnected]), htoken]
      refine (records_refused redis character.corporationId kind hearlier).bind
        (fun result later hlater => ?_) fun error later hlater horderly => ?_
      · cases result with
        | none => exact fun horderly => by rw [← Except.ok.inj (hlater horderly), mergedPair]
        | some corpEntries =>
            exact fun horderly => by rw [← Except.ok.inj (hlater horderly), mergedPair]
      · cases hlater horderly
    refine (hmerge.and (Program.records_ran _ earlier)).mono ?_
    rintro outcome later ⟨hlater, own, rfl, _⟩
    exact ⟨List.suffix_append _ _, hlater⟩
  have hlist : (kind.getMergedList redis character).Records (fun _ => True)
      (fun outcome later => ∃ earlier personal, earlier <:+ later ∧
        Program.Ran (kind.getCharacterList redis character.accessToken character.characterId)
          earlier personal ∧
        (Orderly accessToken (.corporation kind character.corporationId) later →
          (outcome.map fun pair => Reply.mergedList pair.1 pair.2) = mergedReply personal
            (readList later (.corporation kind character.corporationId)))) [] := by
    refine (records_personal redis character.accessToken character.characterId kind
      character.corporationId).bind ?_ ?_
    · rintro personal earlier ⟨hearlier, hran⟩
      refine (hcorp personal earlier hearlier).mono ?_
      rintro outcome later ⟨hsuffix, hlater⟩
      refine ⟨earlier, .ok personal, hsuffix, hran, fun horderly => ?_⟩
      rw [hlater horderly]
      cases readList later (.corporation kind character.corporationId) <;> rfl
    · rintro error earlier ⟨_, hran⟩
      exact ⟨earlier, .error error, List.suffix_refl _, hran, fun _ => rfl⟩
  refine hlist.bind (fun pair later hlater horderly => ?_) fun error later hlater horderly => ?_
  · obtain ⟨earlier, personal, hsuffix, hran, houtcome⟩ := hlater
    exact ⟨earlier, personal, hsuffix, hran, houtcome horderly⟩
  · obtain ⟨earlier, personal, hsuffix, hran, houtcome⟩ := hlater
    exact ⟨earlier, personal, hsuffix, hran, houtcome horderly⟩

theorem records_refusedBody (redis : Bool) (kind : Kind) (corporationId : Option ℤ)
    (start : Start) :
    True ∧ ((caching redis).body start).Records (fun _ => True)
      (refusedPost redis accessToken kind corporationId start) [] := by
  refine ⟨trivial, ?_⟩
  by_cases hlist : start = .corporationList kind accessToken corporationId
  · subst hlist
    show (kind.getCorporationList redis accessToken corporationId >>= fun result =>
      (return .corporationList result : Code Reply)).Records _ _ _
    refine (records_refused redis corporationId kind readList_nil).bind
      (fun result later hlater horderly => ?_) fun error later hlater horderly => ?_
    · refine ⟨fun _ => ?_, fun _ hstart => nomatch hstart⟩
      rw [← Except.ok.inj (hlater horderly)]
    · cases hlater horderly
  by_cases hmerged : ∃ character, start = .mergedList kind character ∧
      corpDataConnected character = true ∧ character.corpAccessToken = some accessToken ∧
      character.corporationId = corporationId
  · obtain ⟨character, rfl, hconnected, htoken, rfl⟩ := hmerged
    refine (records_mergedList redis kind character hconnected htoken).mono ?_
    intro outcome later hlater horderly
    refine ⟨(fun hstart => nomatch hstart), fun other hstart _ _ _ => ?_⟩
    cases hstart
    exact hlater horderly
  -- of any other request nothing is said
  refine (Program.records_ran _ []).mono fun outcome later _ _ => ?_
  exact ⟨fun hstart => absurd hstart hlist, fun character hstart hconnected htoken hcorporation =>
    absurd ⟨character, hstart, hconnected, htoken, hcorporation⟩ hmerged⟩

end Logs

/-! ## What is shown -/

/-- The list was in Redis before the run, or ESI has answered it to a request for the same
corporation. -/
def Shared (world : World) (config : CacheConfig) (origin : Origin) (entries : List Document) :
    Prop :=
  (∃ value, world.cache origin.key = some value ∧
    origin.kind.entryType.decode value = some entries) ∨
  ∃ other, ∀ entry ∈ entries, Fetched (config.moment.logOf other) origin entry

theorem mem_of_readList {log : CacheLog} {origin : Origin} {entries : List Document}
    (hread : readList log origin = some entries) :
    ∃ value, ⟨.mget [origin.key], .ok [some value]⟩ ∈ log ∧
      origin.kind.entryType.decode value = some entries := by
  obtain ⟨call, hcall, hfound⟩ := List.exists_of_findSome?_eq_some hread
  unfold readCall at hfound
  split at hfound
  · rename_i keys value
    split_ifs at hfound with hkeys
    subst hkeys
    exact ⟨value, hcall, hfound⟩
  · cases hfound

theorem shared_of_readList {redis : Bool}
    {policy : Policy signature CacheError World Start Choice Tick} {world : World}
    {config : CacheConfig}
    (hreaches : (caching redis).Reaches policy (Config.initial _ _ _ _ world) config)
    {thread : ℕ} {origin : Origin} {entries : List Document}
    (hread : readList (config.moment.logOf thread) origin = some entries) :
    Shared world config origin entries := by
  obtain ⟨value, hmem, hdecode⟩ := mem_of_readList hread
  rcases origin_of_reads hreaches hmem (List.mem_singleton_self _) with
    hinitial | ⟨other, stored, rfl, hstored⟩
  · exact Or.inl ⟨value, hinitial, hdecode⟩
  · have hinstances : ∀ entry ∈ stored, origin.kind.entryType.IsInstance entry := by
      intro entry hentry
      obtain ⟨_, _, _, raw, _, _, hraw⟩ := hstored entry hentry
      exact EntryType.isInstance_of_ofRaw hraw
    rw [EntryType.decode_encode hinstances] at hdecode
    obtain rfl := Option.some_inj.mp hdecode
    exact Or.inr ⟨other, hstored⟩

/-- **What a refused character is shown.**  In every run in which ESI refuses the token a list
of its corporation, a request for this list with the token ends with what it has found in
Redis, a merged list with the personal list and what it has found, and whatever was found
was answered to a request for the same corporation.  Of what ESI answers to the token on
other paths nothing is assumed. -/
theorem refused_shows_cached {redis : Bool} {accessToken : String} {kind : Kind}
    {corporationId : Option ℤ} {world : World} {config : CacheConfig}
    (hreaches : (caching redis).Reaches (refusing accessToken (.corporation kind corporationId))
      (Config.initial _ _ _ _ world) config)
    {thread : ℕ} {start : Start} {program : Code Reply} {outcome : Except CacheError Reply}
    (hstart : config.moment.starts[thread]? = some start)
    (hthread : config.threads thread = some program) (houtcome : program.outcome? = some outcome) :
    (start = .corporationList kind accessToken corporationId →
      outcome = .ok (.corporationList
        (readList (config.moment.logOf thread) (.corporation kind corporationId)))) ∧
    (∀ character, start = .mergedList kind character → corpDataConnected character = true →
      character.corpAccessToken = some accessToken → character.corporationId = corporationId →
      MergedFound redis kind character outcome (config.moment.logOf thread)) ∧
    ∀ origin entries, readList (config.moment.logOf thread) origin = some entries →
      Shared world config origin entries := by
  have hlogged : System.Logged (fun _ _ => True)
      (refusedPost redis accessToken kind corporationId) config :=
    hreaches.logged (records_refusedBody redis kind corporationId) .initial
  obtain ⟨hlist, hmerged⟩ := hlogged.outcome hstart hthread houtcome
    (orderly_of_reaches hreaches thread)
  exact ⟨hlist, hmerged, fun origin entries hread => shared_of_readList hreaches hread⟩

/-! ## A list that is shown to a member -/

/-- The configuration after the events. -/
def sampleAfter (events : List CacheEvent) : CacheConfig :=
  ((caching true).run (Config.initial _ _ _ _ emptyWorld) events).getD
    (Config.initial _ _ _ _ emptyWorld)

/-- A Director asks for the assets of the corporation, which are not cached. -/
def askedEvents : List CacheEvent :=
  [.start (.corporationList .assets "director" (some 98)), .call 0 (.redis .done)]

def fetchedEvent : CacheEvent := .call 0 (.esi (.ok ⟨[sampleAsset], 1⟩))

/-- The assets are stored, and a member asks for them. -/
def sharedEvents : List CacheEvent :=
  [.call 0 (.database .done), .call 0 (.utcnow 0), .call 0 (.database .done),
    .call 0 (.redis .done), .start (.corporationList .assets "member" (some 98)),
    .call 1 (.redis .done)]

def shownEvents : List CacheEvent := askedEvents ++ fetchedEvent :: sharedEvents

/-- The event is no answer of ESI. -/
def NotEsi : CacheEvent → Bool
  | .call _ (.esi _) => false
  | _ => true

theorem reaches_of_notEsi {accessToken : String} {origin : Origin} {config later : CacheConfig}
    (events : List CacheEvent) (hrun : (caching true).run config events = some later)
    (hevents : events.all NotEsi) :
    (caching true).Reaches (refusing accessToken origin) config later := by
  refine System.reaches_of_run hrun fun event hevent config => ?_
  have hnot := List.all_eq_true.mp hevents event hevent
  cases event with
  | call thread choice =>
      intro op next _
      cases choice with
      | esi answer => cases hnot
      | _ => cases op <;> trivial
  | _ => trivial

/-- The list that ESI refuses the member. -/
def refusedOrigin : Origin := .corporation .assets (some 98)

theorem reaches_shown :
    (caching true).Reaches (refusing "member" refusedOrigin) (Config.initial _ _ _ _ emptyWorld)
      (sampleAfter shownEvents) := by
  have hfetched :
      (refusing "member" refusedOrigin).Meets (sampleAfter askedEvents) fetchedEvent := by
    intro op next hthread
    cases hthread
    exact fun htoken => absurd htoken (by decide)
  refine (reaches_of_notEsi askedEvents rfl rfl).trans ?_
  refine .head ⟨_, hfetched, rfl⟩ ?_
  exact reaches_of_notEsi sharedEvents rfl rfl

/-- **A member is shown what a Director has fetched**, although ESI refuses the token of the
member the assets of the corporation. -/
theorem refused_reads_cached :
    (caching true).Reaches (refusing "member" refusedOrigin) (Config.initial _ _ _ _ emptyWorld)
      (sampleAfter shownEvents) ∧
    (sampleAfter shownEvents).moment.starts[1]? =
      some (.corporationList .assets "member" (some 98)) ∧
    (sampleAfter shownEvents).threads 1 = some (.ret (.corporationList (some [sampleAsset]))) :=
  ⟨reaches_shown, rfl, rfl⟩

/-- The list of the member was answered to the Director. -/
theorem refused_shows_cached_shown :
    Shared emptyWorld (sampleAfter shownEvents) (.corporation .assets (some 98)) [sampleAsset] := by
  have hstart : (sampleAfter shownEvents).moment.starts[1]? =
      some (.corporationList .assets "member" (some 98)) := rfl
  exact (refused_shows_cached reaches_shown hstart rfl rfl).2.2 _ _ rfl

end EveBuild.Cache
