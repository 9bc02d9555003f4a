import EveBuild.Effect.Contract
import EveBuild.Reference.Truth

/-!
# What a lookup finds in the stores

A lookup among others: the world is sound, nothing is deleted from MongoDB, and what has been
there when the lookup was started is not asked of ESI (`Kept`).  `safe_heldById` is the part
of a lookup that reads the two stores: what it finds is what there is to know, and what it
does not find was not in MongoDB when the lookup was started.
-/

namespace EveBuild.Reference

open Effect

/-! ## What ESI is asked for -/

/-- The kinds of data that a lookup works on. -/
def Start.kinds : Start → List Kind
  | .typeDocs _ => [.sdeType]
  | .blueprintDocs _ => [.sdeBlueprint]
  | .categoryDocs _ => [.sdeCategory]
  | .planetNames _ => [.planetName]
  | .systemNames _ => [.systemName]
  | .locationInfo .. => [.locationDetails, .systemSecurity]

/-- What a lookup asks ESI for by a path. -/
def Start.askedBy : Start → Path → Option Kind
  | .planetNames _, .planets => some .planetName
  | .systemNames _, .systems => some .systemName
  | .locationInfo .., .stations => some .locationDetails
  | .locationInfo .., .structures => some .locationDetails
  | .locationInfo .., .systems => some .systemSecurity
  | _, _ => none

/-- What a lookup has asked ESI for, the newest first. -/
def asked (start : Start) (log : ReferenceLog) : List (Option Kind × ℤ) :=
  log.filterMap fun call =>
    match call.op with
    | .inr (.get path id _) => some (start.askedBy path, id)
    | _ => none

/-- Nothing is asked for twice, and nothing that MongoDB has held at the beginning. -/
structure AsksOnce (start : Start) (began : Collections) (log : ReferenceLog) : Prop where
  nodup : (asked start log).Nodup
  unheld : ∀ pair ∈ asked start log, ∃ kind, pair.1 = some kind ∧ ¬ began.Holds kind pair.2

/-- The call is one of ESI. -/
def Gets : signature.Op → Prop
  | .inr (.get ..) => True
  | _ => False

variable {start : Start} {began : Collections} {log : ReferenceLog}

theorem asked_append (first second : ReferenceLog) :
    asked start (first ++ second) = asked start first ++ asked start second :=
  List.filterMap_append

theorem asked_cons_of_not_gets {call : Call signature ReferenceError} (hcall : ¬ Gets call.op) :
    asked start (call :: log) = asked start log := by
  obtain ⟨op, answer⟩ := call
  rcases op with op | op
  · rfl
  · cases op with
    | get path id accessToken => exact absurd trivial hcall
    | _ => rfl

/-! ## The contract -/

section Contract

variable (sde : Collections) (esi : Path → ℤ → Document) (float : Number → Number)
  (tracked : Kind → Prop)

/-- What holds of every moment. -/
structure Kept (moment : ReferenceMoment) : Prop where
  sound : Sound sde esi float tracked moment.world
  began : moment.world.began.length = moment.starts.length
  grows : ∀ began ∈ moment.world.began, Grows began moment.world.documents
  asks : ∀ (thread : ℕ) start began, moment.starts[thread]? = some start →
    moment.world.began[thread]? = some began → AsksOnce start began (moment.logOf thread)

/-- Nothing is deleted from MongoDB. -/
def contract : Contract signature ReferenceError World Start where
  inv := Kept sde esi float tracked
  rely _ moment later := moment.world.began <+: later.world.began ∧
    Grows moment.world.documents later.world.documents
  rely_refl _ _ := ⟨List.prefix_refl _, Grows.refl _⟩
  rely_trans _ _ _ _ hfirst hsecond := ⟨hfirst.1.trans hsecond.1, hfirst.2.trans hsecond.2⟩

/-- Only lookups of the tracked kinds are started. -/
def lookingUp : Policy signature ReferenceError World Start Choice Cache.Tick where
  start start _ := ∀ kind ∈ start.kinds, tracked kind
  call _ _ _ _ := True
  crash _ _ := True
  tick _ _ := True

/-- A lookup that has made the calls of the log. -/
structure Stage (thread : ℕ) (start : Start) (began : Collections) (log : ReferenceLog)
    (moment : ReferenceMoment) : Prop where
  start : moment.starts[thread]? = some start
  began : moment.world.began[thread]? = some began
  logOf : moment.logOf thread = log

variable {sde esi float tracked} {redis : Bool} {ttlSeconds : ℕ} {thread : ℕ}
  {moment later : ReferenceMoment}

theorem getElem?_of_prefix {β : Type} {items more : List β} {index : ℕ} {item : β}
    (hinit : items <+: more) (hitem : items[index]? = some item) : more[index]? = some item := by
  obtain ⟨hlt, rfl⟩ := List.getElem?_eq_some_iff.mp hitem
  exact List.prefix_iff_getElem?.mp hinit index hlt

theorem Stage.of_later (hstage : Stage thread start began log moment)
    (hlater : (contract sde esi float tracked).Later thread moment later) :
    Stage thread start began log later where
  start := getElem?_of_prefix hlater.starts hstage.start
  began := getElem?_of_prefix hlater.rely.1 hstage.began
  logOf := hlater.logOf.trans hstage.logOf

theorem Kept.asksOnce (hkept : Kept sde esi float tracked moment)
    (hstage : Stage thread start began log moment) : AsksOnce start began log :=
  hstage.logOf ▸ hkept.asks thread start began hstage.start hstage.began

theorem Kept.growsFrom (hkept : Kept sde esi float tracked moment)
    (hstage : Stage thread start began log moment) : Grows began moment.world.documents :=
  hkept.grows began (List.mem_of_getElem? hstage.began)

/-- **A call keeps the contract.** -/
theorem Kept.answer (hkept : Kept sde esi float tracked moment)
    (hstage : Stage thread start began log moment) {op : signature.Op} {choice : Choice}
    {answer : Except ReferenceError (signature.Answer op)} {world : World}
    (hkeeps : Keeps sde esi float moment.world op)
    (hasks : AsksOnce start began (⟨op, answer⟩ :: log))
    (hrespond : respond esi op choice moment.world = some (answer, world)) :
    Kept sde esi float tracked (moment.answer thread ⟨op, answer⟩ world) ∧
      Grows moment.world.documents world.documents ∧ world.began = moment.world.began := by
  obtain ⟨hgrows, hbegan⟩ := grows_of_respond hrespond
  refine ⟨⟨hkept.sound.respond hkeeps hrespond, ?_, ?_, ?_⟩, hgrows, hbegan⟩
  · show world.began.length = moment.starts.length
    rw [hbegan, hkept.began]
  · intro other hother
    exact (hkept.grows other (hbegan ▸ hother)).trans hgrows
  · intro other otherStart otherBegan hstart hother
    rw [Moment.answer_world, hbegan] at hother
    rw [Moment.answer_starts] at hstart
    rw [Moment.answer_logOf]
    split_ifs with heq
    · -- the lookup that has made the call
      subst heq
      obtain rfl := Option.some.inj (hstage.start.symm.trans hstart)
      obtain rfl := Option.some.inj (hstage.began.symm.trans hother)
      rw [hstage.logOf]
      exact hasks
    · exact hkept.asks other otherStart otherBegan hstart hother

/-- **One call** of a lookup that writes what there is to know.  It is made at some moment
`before`, and the lookup goes on in the next one. -/
theorem safe_call {β : Type} {op : signature.Op}
    {next : Except ReferenceError (signature.Answer op) → Code β}
    {post : Except ReferenceError β → ReferenceMoment → Prop}
    (hstage : Stage thread start began log moment)
    (hkeeps : ∀ before, Kept sde esi float tracked before →
      Grows moment.world.documents before.world.documents →
      Stage thread start began log before → Keeps sde esi float before.world op)
    (hasks : AsksOnce start began log → ∀ answer, AsksOnce start began (⟨op, answer⟩ :: log))
    (hnext : ∀ before choice answer world, Kept sde esi float tracked before →
      Stage thread start began log before →
      Grows moment.world.documents before.world.documents →
      respond esi op choice before.world = some (answer, world) →
      Grows before.world.documents world.documents →
      Kept sde esi float tracked (before.answer thread ⟨op, answer⟩ world) →
      Stage thread start began (⟨op, answer⟩ :: log)
        (before.answer thread ⟨op, answer⟩ world) →
      (contract sde esi float tracked).Safe (looking esi redis ttlSeconds float)
        (lookingUp tracked) thread (next answer) post
        (before.answer thread ⟨op, answer⟩ world)) :
    (contract sde esi float tracked).Safe (looking esi redis ttlSeconds float)
      (lookingUp tracked) thread (.call op next) post moment := by
  rintro before hbefore hkept answer world ⟨choice, -, hrespond⟩
  -- what the others have done leaves the stage as it is
  have hstageBefore := hstage.of_later hbefore
  obtain ⟨hafter, hgrows, hbegan⟩ := hkept.answer hstageBefore
    (hkeeps before hkept hbefore.rely.2 hstageBefore)
    (hasks (hkept.asksOnce hstageBefore) answer) hrespond
  refine ⟨hafter, fun other _ => ⟨hbegan ▸ List.prefix_refl _, hgrows⟩, ?_⟩
  refine hnext before choice answer world hkept hstageBefore hbefore.rely.2 hrespond hgrows
    hafter ?_
  refine ⟨hstageBefore.start, ?_, ?_⟩
  · show world.began[thread]? = some began
    rw [hbegan, hstageBefore.began]
  · rw [Moment.answer_logOf_self, hstageBefore.logOf]

theorem safe_ret {β : Type} {value : β} {post : Except ReferenceError β → ReferenceMoment → Prop}
    (hstage : Stage thread start began log moment)
    (hpost : ∀ later, Kept sde esi float tracked later → Stage thread start began log later →
      Grows moment.world.documents later.world.documents → post (.ok value) later) :
    (contract sde esi float tracked).Safe (looking esi redis ttlSeconds float)
      (lookingUp tracked) thread (.ret value) post moment :=
  fun later hlater hkept => hpost later hkept (hstage.of_later hlater) hlater.rely.2

theorem safe_raise {β : Type} {error : ReferenceError}
    {post : Except ReferenceError β → ReferenceMoment → Prop}
    (hstage : Stage thread start began log moment)
    (hpost : ∀ later, Kept sde esi float tracked later → Stage thread start began log later →
      Grows moment.world.documents later.world.documents → post (.error error) later) :
    (contract sde esi float tracked).Safe (looking esi redis ttlSeconds float)
      (lookingUp tracked) thread (.raise error : Code β) post moment :=
  fun later hlater hkept => hpost later hkept (hstage.of_later hlater) hlater.rely.2

/-! ## Redis -/

/-- A call of Redis. -/
theorem respond_inl {op : Cache.Op} {choice : Choice} {world after : World}
    {answer : Except ReferenceError (Cache.signature.Answer op)}
    (hrespond : respond esi (.inl op) choice world = some (answer, after)) :
    ∃ cacheChoice result cache, Cache.respond op cacheChoice world.cache = some (result, cache) ∧
      answer = result.mapError .inl := by
  cases choice with
  | inr choice => cases hrespond
  | inl choice =>
      obtain ⟨⟨result, cache⟩, hcached, heq⟩ := Option.map_eq_some_iff.mp hrespond
      exact ⟨choice, result, cache, hcached, (Prod.mk.inj heq).1.symm⟩

/-- The call is one that a lookup makes of Redis. -/
def OfRedis : Cache.Op → Prop
  | .mget _ | .setMany .. => True
  | _ => False

theorem eq_redis_of_respond (op : Cache.Op) (hop : OfRedis op) {choice : Cache.Choice}
    {world after : Cache.World} {error : Cache.CacheError}
    (hrespond : Cache.respond op choice world = some (.error error, after)) : error = .redis := by
  cases op with
  | mget | setMany =>
      cases choice with
      | redis delivery =>
          cases delivery with
          | done => cases hrespond
          | error carriedOut =>
              cases hrespond
              rfl
      | _ => cases hrespond
  | _ => exact absurd hop id

theorem asksOnce_cons {op : signature.Op} (hop : ¬ Gets op)
    (hasks : AsksOnce start began log) (answer : Except ReferenceError (signature.Answer op)) :
    AsksOnce start began (⟨op, answer⟩ :: log) := by
  obtain ⟨hnodup, hunheld⟩ := hasks
  refine ⟨?_, ?_⟩
  · rwa [asked_cons_of_not_gets hop]
  · rwa [asked_cons_of_not_gets hop]

/-- **Reading Redis** raises no error, and finds only what there is to know. -/
theorem safe_getManyCached (hstage : Stage thread start began log moment) (keys : List String) :
    (contract sde esi float tracked).Safe (looking esi redis ttlSeconds float)
      (lookingUp tracked) thread (onCache (Cache.getManyCached redis keys))
      (fun outcome later => ∃ own cached, outcome = .ok cached ∧
        Stage thread start began (own ++ log) later ∧ asked start own = [] ∧
        ∀ kind, tracked kind → ∀ id value, cached.lookup (kind.key id) = some value →
          source sde esi float kind id = some value) moment := by
  by_cases hoff : redis = false ∨ keys = []
  · have hret : onCache (Cache.getManyCached redis keys) = .ret [] := by
      rw [Cache.getManyCached, if_pos hoff]
      rfl
    rw [hret]
    exact safe_ret hstage fun later _ hlater _ =>
      ⟨[], [], rfl, hlater, rfl, fun _ _ _ _ hvalue => by cases hvalue⟩
  · -- one call, whose error is caught
    rw [Cache.getManyCached, if_neg hoff]
    refine safe_call hstage (fun _ _ _ _ => trivial) (fun hasks => asksOnce_cons id hasks)
      fun before choice answer world hkept _ _ hrespond _ _ hafter => ?_
    obtain ⟨cacheChoice, result, cache, hcached, rfl⟩ := respond_inl hrespond
    cases result with
    | ok values =>
        refine safe_ret hafter fun later _ hlater _ => ⟨[_], _, rfl, hlater, rfl, ?_⟩
        intro kind htracked id value hvalue
        obtain ⟨_, _, hsplit, _⟩ := List.lookup_eq_some_iff.mp hvalue
        have hmem : (kind.key id, value) ∈ (keys.zip values).filterMap fun pair =>
            pair.2.map fun raw => (pair.1, raw) := by
          rw [hsplit]
          exact List.mem_append_right _ (List.mem_cons_self ..)
        obtain ⟨⟨key, found⟩, hpair, hfound⟩ := List.mem_filterMap.mp hmem
        obtain ⟨raw, rfl, heq⟩ := Option.map_eq_some_iff.mp hfound
        obtain ⟨rfl, rfl⟩ := Prod.mk.inj heq
        have hread := Cache.cache_of_mget hcached hpair
        exact (hkept.sound.cache kind htracked id raw hread).1
    | error error =>
        -- what Redis cannot read, it has not cached
        obtain rfl := eq_redis_of_respond (.mget keys) trivial hcached
        exact safe_ret hafter fun later _ hlater _ =>
          ⟨[_], [], rfl, hlater, rfl, fun _ _ _ _ hvalue => by cases hvalue⟩

/-- **Writing to Redis** raises no error. -/
theorem safe_setManyCached (hstage : Stage thread start began log moment)
    {items : List (String × Value)}
    (hitems : ∀ item ∈ items, ∃ kind id, item.1 = Kind.key kind id ∧
      source sde esi float kind id = some item.2 ∧ moment.world.documents.Holds kind id) :
    (contract sde esi float tracked).Safe (looking esi redis ttlSeconds float)
      (lookingUp tracked) thread (onCache (Cache.setManyCached redis items ttlSeconds))
      (fun outcome later => ∃ own, outcome = .ok () ∧
        Stage thread start began (own ++ log) later ∧ asked start own = []) moment := by
  by_cases hoff : redis = false ∨ items = []
  · have hret : onCache (Cache.setManyCached redis items ttlSeconds) = .ret () := by
      rw [Cache.setManyCached, if_pos hoff]
      rfl
    rw [hret]
    exact safe_ret hstage fun later _ hlater _ => ⟨[], rfl, hlater, rfl⟩
  · rw [Cache.setManyCached, if_neg hoff]
    refine safe_call hstage ?_ (fun hasks => asksOnce_cons id hasks)
      fun before choice answer world _ _ _ hrespond _ _ hafter => ?_
    · -- what MongoDB has held, it holds when the call is made
      intro before _ hgrows _ item hitem
      obtain ⟨kind, id, hkey, hsource, hheld⟩ := hitems item hitem
      exact ⟨kind, id, hkey, hsource, hgrows _ _ hheld⟩
    obtain ⟨cacheChoice, result, cache, hcached, rfl⟩ := respond_inl hrespond
    cases result with
    | ok value => exact safe_ret hafter fun later _ hlater _ => ⟨[_], rfl, hlater, rfl⟩
    | error error =>
        -- some of the items may have been set, and all of them are true
        obtain rfl := eq_redis_of_respond (.setMany items ttlSeconds) trivial hcached
        exact safe_ret hafter fun later _ hlater _ => ⟨[_], rfl, hlater, rfl⟩

/-! ## Both stores -/

variable (sde esi float) in
/-- What has been found is what there is to know, and the rest was not in MongoDB when the
lookup was started. -/
structure Held (began : Collections) (kind : Kind) (ids : List ℤ) (held : Dict ℤ Value) :
    Prop where
  known : ∀ id value, held.get? id = some value →
    id ∈ ids ∧ source sde esi float kind id = some value
  unknown : ∀ id ∈ ids, id ∉ held.keys →
    ¬ began.Holds kind id ∧ (kind.OfSde → source sde esi float kind id = none)

/-- What has been read from Redis can be decoded. -/
theorem cachedById_eq_some {kind : Kind} {cached : List (String × Value)} {ids : List ℤ}
    (hcached : ∀ id value, cached.lookup (kind.key id) = some value →
      source sde esi float kind id = some value) :
    ∃ entries, cachedById kind cached ids = some entries ∧ ∀ entry ∈ entries,
      entry.1 ∈ ids ∧ source sde esi float kind entry.1 = some entry.2 := by
  have hentries : ∀ entry ∈ ids.filterMap fun id =>
      (cached.lookup (kind.key id)).map fun raw => (id, raw),
      entry.1 ∈ ids ∧ source sde esi float kind entry.1 = some entry.2 := by
    intro entry hentry
    obtain ⟨id, hid, hraw⟩ := List.mem_filterMap.mp hentry
    obtain ⟨raw, hlookup, rfl⟩ := Option.map_eq_some_iff.mp hraw
    exact ⟨hid, hcached id raw hlookup⟩
  refine ⟨_, Cache.mapM_eq_some (fun entry => entry) fun entry hentry => ?_,
    fun entry hentry => ?_⟩
  · obtain ⟨id, raw⟩ := entry
    exact congrArg (Option.map fun value => (id, value))
      (ofCached_of_source (hentries _ hentry).2)
  · rw [List.map_id'] at hentry
    exact hentries entry hentry

/-- What a query finds. -/
theorem mem_find {documents : Collections} {collectionName : String} {ids : List ℤ}
    {notNull : Option String} {id : ℤ} {document : Document} :
    (id, document) ∈ documents.find collectionName ids notNull ↔
      (id ∈ ids ∧ documents collectionName id = some document) ∧
        (notNull.all fun name => document.field name ≠ .null) = true := by
  unfold Collections.find
  rw [List.mem_filter, List.mem_filterMap]
  constructor
  · rintro ⟨⟨other, hother, hdocument⟩, hselected⟩
    obtain ⟨found, hfound, heq⟩ := Option.map_eq_some_iff.mp hdocument
    obtain ⟨rfl, rfl⟩ := Prod.mk.inj heq
    exact ⟨⟨hother, hfound⟩, hselected⟩
  · rintro ⟨⟨hid, hdocument⟩, hselected⟩
    exact ⟨⟨id, hid, by rw [hdocument]; rfl⟩, hselected⟩

/-- The documents of a sound world can be decoded, and none of them is left out. -/
theorem Sound.find {world : World} (hsound : Sound sde esi float tracked world) {kind : Kind}
    (htracked : tracked kind) (ids : List ℤ) :
    ∃ newly, ((world.documents.find kind.store.collectionName ids kind.store.notNull).mapM
        fun entry => (kind.store.ofDocument entry.2).map fun value => (entry.1, value)) = some newly ∧
      (∀ entry ∈ newly, entry.1 ∈ ids ∧ source sde esi float kind entry.1 = some entry.2 ∧
        world.documents.Holds kind entry.1) ∧
      ∀ id ∈ ids, id ∉ newly.map Prod.fst → ¬ world.documents.Holds kind id := by
  refine ⟨_, Cache.mapM_eq_some
    (fun entry => (entry.1, (kind.store.ofDocument entry.2).getD .null)) fun entry hentry => ?_,
    ?_, ?_⟩
  · obtain ⟨id, document⟩ := entry
    obtain ⟨⟨_, hdocument⟩, _⟩ := mem_find.mp hentry
    obtain ⟨value, hvalue, -⟩ := hsound.documents kind htracked id document hdocument
    rw [hvalue]
    rfl
  · intro entry hentry
    obtain ⟨⟨id, document⟩, hfound, rfl⟩ := List.mem_map.mp hentry
    obtain ⟨⟨hid, hdocument⟩, _⟩ := mem_find.mp hfound
    obtain ⟨value, hvalue, hsource⟩ := hsound.documents kind htracked id document hdocument
    refine ⟨hid, ?_, fun hnone => ?_⟩
    · rw [hvalue]
      exact hsource
    · cases hnone.symm.trans hdocument
  · -- an entry that is held is selected by the query
    intro id hid hnotMem hheld
    obtain ⟨document, hdocument⟩ := Option.ne_none_iff_exists'.mp hheld
    obtain ⟨value, hvalue, hsource⟩ := hsound.documents kind htracked id document hdocument
    have hfound := mem_find.mpr ⟨⟨hid, hdocument⟩, selected_of_source hvalue hsource⟩
    refine hnotMem (List.mem_map.mpr ⟨_, List.mem_map_of_mem hfound, rfl⟩)

/-- A query answers with what it finds, or fails. -/
theorem respond_find {collectionName : String} {ids : List ℤ} {notNull : Option String}
    {choice : Choice} {world after : World} {answer : Except ReferenceError (List (ℤ × Document))}
    (hrespond : respond esi (.inr (.find collectionName ids notNull)) choice world =
      some (answer, after)) :
    answer = .ok (world.documents.find collectionName ids notNull) ∨
      answer = .error (.inr .database) := by
  cases choice with
  | inl choice => cases hrespond
  | inr choice =>
      cases choice with
      | database delivery =>
          cases delivery with
          | done =>
              cases hrespond
              exact Or.inl rfl
          | error carriedOut =>
              cases hrespond
              exact Or.inr rfl
      | _ => cases hrespond

variable (kind : Kind) in
/-- The log has a query that has failed. -/
def QueryFailed (log : ReferenceLog) : Prop :=
  ∃ ids, ⟨.inr (.find kind.store.collectionName ids kind.store.notNull),
    .error (.inr .database)⟩ ∈ log

/-- **Reading MongoDB** for what has not been found. -/
theorem safe_missing (hstage : Stage thread start began log moment) {kind : Kind}
    (htracked : tracked kind) {ids : List ℤ} {found : Dict ℤ Value}
    (hfound : ∀ id value, found.get? id = some value →
      id ∈ ids ∧ source sde esi float kind id = some value) :
    (contract sde esi float tracked).Safe (looking esi redis ttlSeconds float)
      (lookingUp tracked) thread
      (do
        let documents ← await (.find kind.store.collectionName
          (ids.filter fun id => id ∉ found.keys) kind.store.notNull)
        let newly ← orKeyError (documents.mapM fun (id, document) =>
          (kind.store.ofDocument document).map fun value => (id, value))
        onCache (Cache.setManyCached redis (newly.map fun (id, value) => (kind.key id, value))
          ttlSeconds)
        return newly.foldl (fun found entry => found.set entry.1 entry.2) found)
      (fun outcome later => ∃ own, Stage thread start began (own ++ log) later ∧
        asked start own = [] ∧
        (∀ held, outcome = .ok held → Held sde esi float began kind ids held) ∧
        ∀ error, outcome = .error error → error = .inr .database ∧ QueryFailed kind own)
      moment := by
  refine safe_call hstage (fun _ _ _ _ => trivial) (fun hasks => asksOnce_cons id hasks)
    fun before choice answer world hbefore hstageBefore _ hrespond hgrows hafter hasked => ?_
  rcases respond_find hrespond with rfl | rfl
  · -- what the query has found is decoded, and written to Redis
    obtain ⟨newly, hnewly, hentry, hall⟩ := hbefore.sound.find htracked
      (ids.filter fun id => id ∉ found.keys)
    show (contract sde esi float tracked).Safe _ _ thread (orKeyError (List.mapM _ _) >>= _) _ _
    rw [hnewly]
    show (contract sde esi float tracked).Safe _ _ thread (onCache _ >>= _) _ _
    refine (safe_setManyCached hasked ?_).bind hafter ?_ ?_
    · intro item hitem
      obtain ⟨⟨id, value⟩, hnew, rfl⟩ := List.mem_map.mp hitem
      obtain ⟨_, hsource, hheld⟩ := hentry _ hnew
      exact ⟨kind, id, rfl, hsource, hgrows _ _ hheld⟩
    · rintro _ final hfinal ⟨stored, _, hstored, hquiet⟩
      rw [List.append_cons] at hstored
      refine safe_ret hstored fun last _ hlast _ => ⟨_, hlast, ?_, ?_, nofun⟩
      · rw [asked_append, hquiet]
        rfl
      · intro held hheld
        obtain rfl := Except.ok.inj hheld
        refine ⟨fun id value hvalue => ?_, fun id hid hnotMem => ?_⟩
        · rcases Dict.of_get?_foldl_set hvalue with hold | hnew
          · exact hfound id value hold
          · exact ⟨(List.mem_filter.mp (hentry _ hnew).1).1, (hentry _ hnew).2.1⟩
        · -- neither store has had it when MongoDB has been asked
          rw [Dict.mem_keys_foldl_set, not_or] at hnotMem
          have hmem : id ∈ ids.filter fun id => id ∉ found.keys :=
            List.mem_filter.mpr ⟨hid, decide_eq_true hnotMem.1⟩
          have hunheld := hall id hmem hnotMem.2
          exact ⟨fun hheld => hunheld (hbefore.growsFrom hstageBefore _ _ hheld),
            hbefore.sound.source_eq_none htracked hunheld⟩
    · rintro error final _ ⟨_, heq, _⟩
      cases heq
  · refine safe_raise hasked fun final _ hfinal _ => ⟨[_], hfinal, rfl, nofun, ?_⟩
    -- the query has failed
    intro error herror
    obtain rfl := Except.error.inj herror
    exact ⟨rfl, _, List.mem_cons_self ..⟩

/-- **Reading both stores.** -/
theorem safe_heldById (hkept : Kept sde esi float tracked moment)
    (hstage : Stage thread start began log moment) {kind : Kind} (htracked : tracked kind)
    (ids : List ℤ) :
    (contract sde esi float tracked).Safe (looking esi redis ttlSeconds float)
      (lookingUp tracked) thread (heldById redis ttlSeconds kind ids)
      (fun outcome later => ∃ own, Stage thread start began (own ++ log) later ∧
        asked start own = [] ∧
        (∀ held, outcome = .ok held → Held sde esi float began kind ids held) ∧
        ∀ error, outcome = .error error → error = .inr .database ∧ QueryFailed kind own)
      moment := by
  refine (safe_getManyCached hstage _).bind hkept ?_ ?_
  · rintro cached later hlater ⟨looked, _, heq, hlooked, hnone, hcached⟩
    obtain rfl := Except.ok.inj heq
    obtain ⟨entries, hentries, hknown⟩ := cachedById_eq_some (hcached kind htracked)
    rw [hentries]
    show (contract sde esi float tracked).Safe _ _ thread (ite _ _ _ : Code (Dict ℤ Value)) _ later
    have hfound : ∀ id value, (Dict.indexBy Prod.fst Prod.snd entries).get? id = some value →
        id ∈ ids ∧ source sde esi float kind id = some value := fun id value hvalue =>
      hknown (id, value) ((Dict.of_get?_foldl_set hvalue).resolve_left nofun)
    generalize Dict.indexBy Prod.fst Prod.snd entries = found at hfound ⊢
    split_ifs with hmissing
    · -- Redis has had them all
      refine safe_ret hlooked fun final _ hfinal _ => ⟨looked, hfinal, hnone, ?_, nofun⟩
      intro held hheld
      obtain rfl := Except.ok.inj hheld
      refine ⟨hfound, fun id hid hnotMem => ?_⟩
      have hmem : id ∈ ids.filter fun id => id ∉ found.keys :=
        List.mem_filter.mpr ⟨hid, decide_eq_true hnotMem⟩
      rw [hmissing] at hmem
      cases hmem
    · -- MongoDB is asked for the others
      refine (safe_missing hlooked htracked hfound).mono ?_
      rintro outcome final _ ⟨own, hfinal, hquiet, hheld, herror⟩
      rw [← List.append_assoc] at hfinal
      refine ⟨_, hfinal, ?_, hheld, fun error heq => ?_⟩
      · rw [asked_append, hquiet, hnone]
        rfl
      · obtain ⟨hdatabase, ids, hquery⟩ := herror error heq
        exact ⟨hdatabase, ids, List.mem_append_left _ hquery⟩
  · rintro error later hlater ⟨_, _, heq, _⟩
    cases heq

/-! ## All lookups together -/

theorem asksOnce_nil : AsksOnce start began [] := ⟨List.nodup_nil, List.forall_mem_nil _⟩

/-- **A lookup is started.** -/
theorem Kept.enter (hkept : Kept sde esi float tracked moment)
    (hlog : moment.logOf moment.starts.length = []) (start : Start) {world : World}
    (hworld : world = { moment.world with began := moment.world.began ++ [moment.world.documents] }) :
    Kept sde esi float tracked (moment.enter start world) ∧
      Stage moment.starts.length start moment.world.documents [] (moment.enter start world) := by
  subst hworld
  refine ⟨⟨⟨hkept.sound.imported, hkept.sound.documents, hkept.sound.cache⟩, ?_, ?_, ?_⟩,
    ⟨List.getElem?_concat_length, ?_, hlog⟩⟩
  · show (moment.world.began ++ [moment.world.documents]).length =
      (moment.starts ++ [start]).length
    rw [List.length_append, List.length_append, hkept.began]
    rfl
  · intro began hbegan
    rcases List.mem_append.mp hbegan with hold | hnew
    · exact hkept.grows began hold
    · exact List.mem_singleton.mp hnew ▸ Grows.refl _
  · intro thread other began hstart hbegan
    rw [Moment.enter_starts] at hstart
    rw [Moment.enter_logOf]
    dsimp only [Moment.enter_world] at hbegan
    rcases Nat.lt_or_ge thread moment.starts.length with hlt | hge
    · rw [List.getElem?_append_left hlt] at hstart
      rw [List.getElem?_append_left (hkept.began ▸ hlt)] at hbegan
      exact hkept.asks thread other began hstart hbegan
    · -- the lookup that has been started has asked nothing
      have hlast := (List.getElem?_eq_some_iff.mp hstart).1
      rw [List.length_append, List.length_singleton] at hlast
      obtain rfl : thread = moment.starts.length := by omega
      rw [hlog]
      exact asksOnce_nil
  · show (moment.world.began ++ [moment.world.documents])[moment.starts.length]? = _
    rw [← hkept.began]
    exact List.getElem?_concat_length

/-- Keys expire. -/
theorem Kept.expire (hkept : Kept sde esi float tracked moment) (key : String) :
    Kept sde esi float tracked (moment.put
      { moment.world with cache := moment.world.cache.deleteCache [key] }) where
  sound := hkept.sound.cache_of_forall fun _ _ hvalue => Or.inl (Cache.deleteCache_eq_some hvalue)
  began := hkept.began
  grows := hkept.grows
  asks := hkept.asks

/-- A world in which no lookup has been started. -/
abbrev World.initial (documents : Collections) (cache : Cache.World) : World :=
  ⟨cache, documents, []⟩

/-- **Runs.**  What each lookup comes to by itself, it comes to among others. -/
theorem served {serves : Start → Except ReferenceError Reply → ReferenceLog → Prop}
    (hbody : ∀ (thread : ℕ) start began moment, (∀ kind ∈ start.kinds, tracked kind) →
      Kept sde esi float tracked moment → Stage thread start began [] moment →
      (contract sde esi float tracked).Safe (looking esi redis ttlSeconds float)
        (lookingUp tracked) thread ((looking esi redis ttlSeconds float).body start)
        (fun outcome later => ∃ own, Stage thread start began own later ∧
          serves start outcome own) moment)
    {documents : Collections} {cache : Cache.World}
    (hsound : Sound sde esi float tracked (World.initial documents cache))
    {config : ReferenceConfig}
    (hreaches : (looking esi redis ttlSeconds float).Reaches (lookingUp tracked)
      (Config.initial _ _ _ _ (World.initial documents cache)) config) :
    Kept sde esi float tracked config.moment ∧ ∀ (thread : ℕ) start program outcome,
      config.moment.starts[thread]? = some start → config.threads thread = some program →
      program.outcome? = some outcome → serves start outcome (config.moment.logOf thread) := by
  have hkept : (contract sde esi float tracked).Kept (looking esi redis ttlSeconds float)
      (lookingUp tracked) fun thread outcome later => ∃ start began own,
        Stage thread start began own later ∧ serves start outcome own := by
    refine ⟨fun moment start world hinv hlog hstart henter => ?_,
      fun moment thread hinv _ _ => ?_, fun moment tick world hinv _ htick => ?_⟩
    · obtain ⟨hkept, hstage⟩ := Kept.enter hinv hlog start (Option.some.inj henter).symm
      refine ⟨hkept, fun other _ => ?_, ?_⟩
      · obtain rfl := (Option.some.inj henter).symm
        exact ⟨List.prefix_append _ _, Grows.refl _⟩
      · refine (hbody _ start _ _ hstart hkept hstage).mono ?_
        rintro outcome later _ ⟨own, hlater, hserves⟩
        exact ⟨start, _, own, hlater, hserves⟩
    · exact ⟨⟨hinv.sound, hinv.began, hinv.grows, hinv.asks⟩,
        fun _ _ => ⟨List.prefix_refl _, Grows.refl _⟩⟩
    · cases tick with
      | expire key =>
          obtain rfl := (Option.some.inj htick).symm
          exact ⟨hinv.expire key, fun _ => ⟨List.prefix_refl _, Grows.refl _⟩⟩
  have hgood := hkept.reaches (Contract.Good.initial ⟨hsound, rfl, List.forall_mem_nil _, nofun⟩)
    hreaches
  refine ⟨hgood.inv, fun thread start program outcome hstart hthread houtcome => ?_⟩
  obtain ⟨other, began, own, hstage, hserves⟩ := hgood.outcome hthread houtcome
  obtain rfl := Option.some.inj (hstage.start.symm.trans hstart)
  rw [hstage.logOf]
  exact hserves

/-- Every call can be answered without an error of MongoDB. -/
theorem exists_respond (op : signature.Op) (world : World) :
    ∃ choice answer later, respond esi op choice world = some (answer, later) ∧
      answer ≠ .error (.inr .database) := by
  cases op with
  | inl op =>
      cases op with
      | mget | setMany | delete => exact ⟨.inl (.redis .done), _, _, rfl, nofun⟩
      | deleteMany | insertMany => exact ⟨.inl (.database .done), _, _, rfl, nofun⟩
      | utcnow => exact ⟨.inl (.utcnow 0), _, _, rfl, nofun⟩
      | get => exact ⟨.inl (.esi (.error .network)), _, _, rfl, nofun⟩
  | inr op =>
      cases op with
      | find | upsert => exact ⟨.inr (.database .done), _, _, rfl, nofun⟩
      | utcnow => exact ⟨.inr (.utcnow 0), _, _, rfl, nofun⟩
      | get => exact ⟨.inr (.esi .answered), _, _, rfl, nofun⟩

end Contract

end EveBuild.Reference
