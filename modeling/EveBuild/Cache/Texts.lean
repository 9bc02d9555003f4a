import EveBuild.Cache.Calls
import EveBuild.Data.Json.Values
import EveBuild.Effect.Coding

/-!
# The texts in Redis

What `Cache.Model` keeps in Redis are values.  `app/services/cache.py` keeps JSON texts of them:
`set_many_cached` writes every value with `json.dumps`, `get_many_cached` reads every text with
`json.loads`, and an error of either is not one of those that are ignored.

`texts` runs the same requests with the texts.  `texts_simulate` says that nothing is different
with them: the same events lead to the same ends, to the same documents in MongoDB and to the same
replies and errors, and the texts stand for the values.  What ESI answers is JSON, so that it can
be written and read back.
-/

namespace EveBuild.Cache.Texts

open Effect Json

variable (format : FloatFormat)

/-! ## Calls -/

inductive Op
  | mget (keys : List String)
  | setMany (items : List (String × List Char)) (ttlSeconds : ℕ)
  | delete (keys : List String)
  | deleteMany (collectionName field : String) (id : Option ℤ)
  | insertMany (collectionName : String) (documents : List Document)
  | utcnow
  | get (endpoint : Endpoint) (id : Option ℤ) (accessToken : String) (page : Option ℤ)

abbrev Op.Answer : Op → Type
  | mget _ => List (Option (List Char))
  | setMany .. => Unit
  | delete _ => Unit
  | deleteMany .. => Unit
  | insertMany .. => Unit
  | utcnow => ℤ
  | get .. => Response

abbrev signature : Signature := ⟨Op, Op.Answer⟩

/-- What is raised: an error of a call, or one of `json`. -/
abbrev Error := CacheError ⊕ JsonError

abbrev Code := Program signature Error

def await (op : Op) : Code op.Answer := Program.perform (S := signature) op

/-! ## Redis -/

/-- `json.loads(raw)`, if there is a text. -/
def loadRaw : Option (List Char) → Except JsonError (Option Value)
  | none => .ok none
  | some raw => (loads format raw).map some

/-- `json.dumps(value)`, next to its key. -/
def dumpItem (item : String × Value) : Except JsonError (String × List Char) :=
  (dumps format item.2).map fun text => (item.1, text)

/-- `except RedisError`. -/
def catchingRedisError {β : Type} (program : Code β) (value : β) : Code β :=
  tryCatch program fun error => if error = .inl .redis then return value else throw error

/-- `get_many_cached`. -/
def getManyCached (redis : Bool) (keys : List String) : Code (List (String × Value)) := do
  if redis = false ∨ keys = [] then return []
  match ← catchingRedisError (do return some (← await (.mget keys))) none with
  | none => return []
  | some rawValues =>
      let values ← .ofExcept ((rawValues.mapM (loadRaw format)).mapError .inr)
      return (keys.zip values).filterMap fun pair => pair.2.map fun value => (pair.1, value)

/-- `set_many_cached`. -/
def setManyCached (redis : Bool) (items : List (String × Value)) (ttlSeconds : ℕ) :
    Code Unit := do
  if redis = false ∨ items = [] then return ()
  catchingRedisError
    (do
      let texts ← .ofExcept ((items.mapM (dumpItem format)).mapError .inr)
      await (.setMany texts ttlSeconds))
    ()

/-- How the calls carry texts. -/
def coding : Coding Cache.signature signature JsonError where
  write
    | .mget keys => .ok ⟨.mget keys, fun rawValues => rawValues.mapM (loadRaw format)⟩
    | .setMany items ttlSeconds =>
        (items.mapM (dumpItem format)).map fun texts => ⟨.setMany texts ttlSeconds, .ok⟩
    | .delete keys => .ok ⟨.delete keys, .ok⟩
    | .deleteMany collectionName field id => .ok ⟨.deleteMany collectionName field id, .ok⟩
    | .insertMany collectionName documents => .ok ⟨.insertMany collectionName documents, .ok⟩
    | .utcnow => .ok ⟨.utcnow, .ok⟩
    | .get endpoint id accessToken page => .ok ⟨.get endpoint id accessToken page, .ok⟩

variable {format}

theorem program_ignoringRedisError {β : Type} (program : Cache.Code β) (value : β) :
    (coding format).program (ignoringRedisError program value) =
      catchingRedisError ((coding format).program program) value := by
  rw [ignoringRedisError, Coding.program_tryCatch, catchingRedisError]
  refine congrArg (tryCatch _) (funext fun error => ?_)
  rcases error with error | error
  · by_cases hredis : error = .redis
    · subst hredis
      rfl
    · simp only [Coding.handler, Sum.inl.injEq, if_neg hredis]
      rfl
  · simp only [Coding.handler, reduceCtorEq, if_false]
    rfl

variable (format)

/-- Writing the calls down makes `get_many_cached` of what reads the values. -/
theorem program_getManyCached (redis : Bool) (keys : List String) :
    (coding format).program (Cache.getManyCached redis keys) = getManyCached format redis keys := by
  unfold Cache.getManyCached getManyCached
  split
  · rfl
  · rw [program_ignoringRedisError]
    refine congrArg (Program.call (S := signature) (Op.mget keys)) (funext fun answer => ?_)
    rcases answer with (error | error) | rawValues
    · by_cases herror : error = .redis
      · subst herror
        rfl
      · have hne : (Sum.inl error : Error) ≠ .inl .redis := fun heq => herror (Sum.inl.inj heq)
        show (if (Sum.inl error : Error) = .inl .redis then _ else _) =
          Program.bind (if (Sum.inl error : Error) = .inl .redis then _ else _) _
        rw [if_neg hne, if_neg hne]
        rfl
    · rfl
    · -- an error of `json.loads` is not one of Redis
      simp only [Coding.goOn]
      show MonadExcept.tryCatch _ _ = Program.ofExcept _ >>= _
      cases rawValues.mapM (loadRaw format) with
      | error error => rfl
      | ok values => rfl

theorem program_setManyCached (redis : Bool) (items : List (String × Value)) (ttlSeconds : ℕ) :
    (coding format).program (Cache.setManyCached redis items ttlSeconds) =
      setManyCached format redis items ttlSeconds := by
  unfold Cache.setManyCached setManyCached
  split
  · rfl
  · refine (program_ignoringRedisError _ _).trans (congrArg (catchingRedisError · ()) ?_)
    show (coding format).program (Program.call _ _) = _
    simp only [Coding.program, coding]
    cases items.mapM (dumpItem format) with
    | error error => rfl
    | ok texts =>
        refine congrArg (Program.call (S := signature) (Op.setMany texts ttlSeconds))
          (funext fun answer => ?_)
        rcases answer with (error | error) | answer <;> rfl

/-- `cached_character_list` and `cached_corporation_list`, of which only the calls of Redis differ
with the texts. -/
def cachedList (field : String) (redis : Bool) (collectionName cacheKeyPrefix : String)
    (id : Option ℤ) (ttlSeconds : ℕ) (entryType : EntryType)
    (fetch : Cache.Code (List Document)) : Code (List Document) := do
  let cached ← getManyCached format redis [cacheKey cacheKeyPrefix id]
  match (cached.lookup (cacheKey cacheKeyPrefix id)).bind entryType.decode with
  | some entries => return entries
  | none =>
      let entries ← (coding format).program fetch
      (coding format).program (replaceDocuments collectionName field id entries)
      setManyCached format redis [(cacheKey cacheKeyPrefix id, EntryType.encode entries)] ttlSeconds
      return entries

/-- **The read of a list with the texts** is what writing down its calls makes of the read with
the values. -/
theorem program_cachedList (field : String) (redis : Bool) (collectionName cacheKeyPrefix : String)
    (id : Option ℤ) (ttlSeconds : ℕ) (entryType : EntryType) (fetch : Cache.Code (List Document)) :
    (coding format).program (Cache.cachedList field redis collectionName cacheKeyPrefix id
        ttlSeconds entryType fetch) =
      cachedList format field redis collectionName cacheKeyPrefix id ttlSeconds entryType
        fetch := by
  rw [Cache.cachedList, Coding.program_bind, program_getManyCached, cachedList]
  refine congrArg (_ >>= ·) (funext fun cached => ?_)
  cases (cached.lookup (cacheKey cacheKeyPrefix id)).bind entryType.decode with
  | some entries => rfl
  | none =>
      simp only [Coding.program_bind, program_setManyCached]
      rfl

/-! ## The system -/

/-- The texts in Redis, and the documents of the collections in MongoDB. -/
structure World where
  cache : String → Option (List Char)
  mirror : String → List Document

namespace World

variable (world : World)

def setCache (items : List (String × List Char)) : World where
  cache := items.foldl (fun cache item => Function.update cache item.1 (some item.2)) world.cache
  mirror := world.mirror

def deleteCache (keys : List String) : World where
  cache := keys.foldl (fun cache key => Function.update cache key none) world.cache
  mirror := world.mirror

/-- MongoDB alone. -/
def database : Cache.World := ⟨fun _ => none, world.mirror⟩

end World

def respond (op : Op) (choice : Choice) (world : World) :
    Option (Except Error op.Answer × World) :=
  match op, choice with
  | .mget keys, .redis delivery =>
      some (delivery.answer (.inl .redis) (keys.map world.cache), world)
  | .setMany items _, .redis delivery =>
      some (delivery.answer (.inl .redis) (), world.setCache (delivery.parts items))
  | .delete keys, .redis delivery =>
      some (delivery.answer (.inl .redis) (), world.deleteCache (delivery.parts keys))
  | .deleteMany collectionName field id, .database delivery =>
      some (delivery.answer (.inl .database) (), { world with
        mirror := (world.database.deleteMany collectionName field id delivery).mirror })
  | .insertMany collectionName documents, .database delivery =>
      some (delivery.answer (.inl .database) (), { world with
        mirror := (world.database.insertMany collectionName (delivery.parts documents)).mirror })
  | .utcnow, .utcnow now => some (.ok now, world)
  | .get .., .esi answer => some (answer.mapError .inl, world)
  | _, _ => none

/-- Any number of requests, with the texts. -/
def texts (redis : Bool) : System signature Error Reply World Start Choice Tick where
  body start := (coding format).program ((caching redis).body start)
  enter _ _ world := some world
  respond _ := respond
  crash _ world := world
  tick
    | .expire key, world => some (world.deleteCache [key])

/-! ## What the programs write -/

/-- The values that a call writes into Redis are JSON. -/
def Sound : Cache.Op → Prop
  | .setMany items _ => ∀ item ∈ items, IsJson item.2
  | _ => True

/-- The entries of a response are JSON. -/
def Trusted : (op : Cache.Op) → op.Answer → Prop
  | .get .., response => ∀ entry ∈ response.entries, IsJson entry.toValue
  | .mget _, _ | .setMany .., _ | .delete _, _ | .deleteMany .., _ | .insertMany .., _
  | .utcnow, _ => True

/-- What ESI answers is JSON. -/
def AnswersJson : Choice → Prop
  | .esi (.ok response) => ∀ entry ∈ response.entries, IsJson entry.toValue
  | .esi (.error _) | .utcnow _ | .redis _ | .database _ => True

/-- The instances are JSON. -/
def AreJson (entries : List Document) : Prop := ∀ entry ∈ entries, IsJson entry.toValue

section Handles

variable {β : Type} {program : Cache.Code β}

/-- A program that makes only sound calls, whatever it is answered. -/
theorem handles_of_issues (hissues : program.Issues Sound) :
    program.Handles Sound Trusted fun _ => True := by
  induction program with
  | ret value => trivial
  | raise error => trivial
  | call op next ih =>
      exact ⟨hissues.1, fun value _ => ih _ (hissues.2 _), fun error => ih _ (hissues.2 _)⟩

theorem isJson_getD {document : Document} (hdocument : IsJson document.toValue) (name : String)
    {default : Value} (hdefault : IsJson default) : IsJson (document.getD name default) := by
  rw [Dict.getD]
  cases hget : document.get? name with
  | none => exact hdefault
  | some value => exact isJson_toValue.mp hdocument _ (Dict.get?_eq_some_iff.mp hget)

theorem isJson_field {document : Document} (hdocument : IsJson document.toValue) (name : String) :
    IsJson (document.field name) := isJson_getD hdocument name isJson_null

theorem isJson_build {entryType : EntryType} {value : String → Value}
    (hvalue : ∀ name, IsJson (value name)) : IsJson (entryType.build value).toValue := by
  refine isJson_toValue.mpr fun member hmember => ?_
  obtain ⟨name, -, rfl⟩ := List.mem_map.mp hmember
  exact hvalue name

/-- A list that is fetched is cached. -/
theorem handles_cachedList (field : String) (redis : Bool)
    {collectionName cacheKeyPrefix : String} {id : Option ℤ} {ttlSeconds : ℕ}
    {entryType : EntryType} {fetch : Cache.Code (List Document)}
    (hfetch : fetch.Handles Sound Trusted AreJson) :
    (Cache.cachedList field redis collectionName cacheKeyPrefix id ttlSeconds entryType
      fetch).Handles Sound Trusted fun _ => True := by
  refine (handles_of_issues (issues_getManyCached redis trivial)).bind fun cached _ => ?_
  split
  · trivial
  · refine hfetch.bind fun entries hentries => ?_
    have hsound : Sound (.setMany [(cacheKey cacheKeyPrefix id, EntryType.encode entries)]
        ttlSeconds) := by
      intro item hitem
      obtain rfl := List.mem_singleton.mp hitem
      refine isJson_array.mpr fun value hvalue => ?_
      obtain ⟨entry, hentry, rfl⟩ := List.mem_map.mp hvalue
      exact hentries entry hentry
    refine (handles_of_issues (issues_replaceDocuments trivial trivial (fun _ => trivial)
      entries)).bind fun _ _ => ?_
    exact (handles_of_issues (issues_setManyCached redis hsound)).bind fun _ _ => trivial

theorem handles_get (endpoint : Endpoint) (id : Option ℤ) (accessToken : String)
    (page : Option ℤ) : (Cache.await (.get endpoint id accessToken page)).Handles Sound Trusted
      fun response => AreJson response.entries :=
  @Program.Handles.perform Cache.signature CacheError Sound Trusted
    (.get endpoint id accessToken page) trivial

theorem handles_getPagesFrom (endpoint : Endpoint) (id : Option ℤ) (accessToken : String)
    (page : ℤ) (remaining : ℕ) {results : List Document} (hresults : AreJson results) :
    (getPagesFrom endpoint id accessToken page remaining results).Handles Sound Trusted
      AreJson := by
  induction remaining generalizing page results with
  | zero => exact hresults
  | succ remaining ih =>
      refine (handles_get endpoint id accessToken (some page)).bind fun response hresponse => ?_
      exact ih _ fun entry hentry =>
        (List.mem_append.mp hentry).elim (hresults entry) (hresponse entry)

theorem handles_parseEntries (entryType : EntryType) {rawEntries : List Document}
    (hraw : AreJson rawEntries) :
    (parseEntries entryType rawEntries).Handles Sound Trusted AreJson := by
  rw [parseEntries]
  split
  · rename_i entries hentries
    intro entry hentry
    obtain ⟨raw, hmem, hof⟩ := exists_of_mem_mapM hentries hentry
    rw [EntryType.ofRaw] at hof
    split at hof
    · cases hof
      exact isJson_build (isJson_field (hraw raw hmem))
    · cases hof
  · trivial

theorem handles_getPagedList (endpoint : Endpoint) (entryType : EntryType) (id : Option ℤ)
    (accessToken : String) :
    (getPagedList endpoint entryType id accessToken).Handles Sound Trusted AreJson := by
  have hpages : (getAllPages endpoint id accessToken).Handles Sound Trusted AreJson :=
    (handles_get endpoint id accessToken (some 1)).bind fun _ hresponse =>
      handles_getPagesFrom endpoint id accessToken 2 _ hresponse
  exact hpages.bind fun _ => handles_parseEntries entryType

theorem handles_getUnpagedList (endpoint : Endpoint) (entryType : EntryType) (id : Option ℤ)
    (accessToken : String) :
    (getUnpagedList endpoint entryType id accessToken).Handles Sound Trusted AreJson :=
  (handles_get endpoint id accessToken none).bind fun _ => handles_parseEntries entryType

theorem handles_getCharacterList (redis : Bool) (accessToken : String) (characterId : ℤ)
    (kind : Kind) :
    (kind.getCharacterList redis accessToken characterId).Handles Sound Trusted fun _ => True := by
  cases kind with
  | assets => exact handles_cachedList _ redis (handles_getPagedList ..)
  | blueprints => exact handles_cachedList _ redis (handles_getPagedList ..)
  | industryJobs => exact handles_cachedList _ redis (handles_getUnpagedList ..)

theorem handles_getCharacterColonyDetail (accessToken : String) (characterId : ℤ)
    (planetId : Value) :
    (getCharacterColonyDetail accessToken characterId planetId).Handles Sound Trusted
      fun data => IsJson data.toValue := by
  refine (handles_get ..).bind fun response hresponse => ?_
  split
  · rename_i data hentries
    exact hresponse data (hentries ▸ List.mem_singleton_self data)
  · trivial

/-- A colony has the fields of its summary and the lists of its detail. -/
theorem isJson_mergeColony {summary data : Document} (hsummary : IsJson summary.toValue)
    (hdata : IsJson data.toValue) : IsJson (mergeColony summary data).toValue := by
  refine isJson_build fun name => ?_
  split
  · exact isJson_field hsummary name
  · exact isJson_getD hdata name (isJson_array.mpr (List.forall_mem_nil _))

theorem handles_fetchColonyDetails (accessToken : String) (characterId : ℤ)
    {summaries : List Document} (hsummaries : AreJson summaries) :
    (fetchColonyDetails accessToken characterId summaries).Handles Sound Trusted AreJson := by
  induction summaries with
  | nil => exact List.forall_mem_nil _
  | cons summary summaries ih =>
      obtain ⟨hsummary, hrest⟩ := List.forall_mem_cons.mp hsummaries
      refine (handles_getCharacterColonyDetail ..).bind fun data hdata => ?_
      refine (ih hrest).bind fun records hrecords => ?_
      exact List.forall_mem_cons.mpr ⟨isJson_mergeColony hsummary hdata, hrecords⟩

theorem handles_getCharacterColonies (redis : Bool) (accessToken : String) (characterId : ℤ) :
    (getCharacterColonies redis accessToken characterId).Handles Sound Trusted fun _ => True :=
  handles_cachedList _ redis ((handles_getUnpagedList ..).bind fun _ hsummaries =>
    handles_fetchColonyDetails accessToken characterId hsummaries)

theorem handles_corpListOrNone (redis : Bool) (source : Source) (corporationId : Option ℤ)
    (ttlSeconds : ℕ) (entryType : EntryType) {fetch : Cache.Code (List Document)}
    (hfetch : fetch.Handles Sound Trusted AreJson) :
    (corpListOrNone redis source corporationId ttlSeconds entryType fetch).Handles Sound Trusted
      fun _ => True := by
  refine Program.Handles.tryCatch ?_ fun error => ?_
  · exact (handles_cachedList _ redis hfetch).bind fun _ _ => trivial
  · split <;> trivial

theorem handles_getCorporationList (redis : Bool) (accessToken : String)
    (corporationId : Option ℤ) (kind : Kind) :
    (kind.getCorporationList redis accessToken corporationId).Handles Sound Trusted
      fun _ => True := by
  cases kind <;> exact handles_corpListOrNone redis _ _ _ _ (handles_getPagedList ..)

theorem handles_getMergedList (redis : Bool) (character : Auth.CharacterDocument) (kind : Kind) :
    (kind.getMergedList redis character).Handles Sound Trusted fun _ => True := by
  refine (handles_getCharacterList redis _ _ kind).bind fun personal _ => ?_
  rw [mergeCorp]
  split
  · trivial
  · refine (handles_getCorporationList redis _ _ kind).bind fun corpEntries _ => ?_
    cases corpEntries <;> trivial

theorem issues_refreshCharacterData_sound (redis : Bool) (character : Auth.CharacterDocument) :
    (refreshCharacterData redis character).Issues Sound := by
  have hinvalidate : ∀ (field : String) (id : Option ℤ) (source : Source),
      (invalidateList field redis source.collectionName source.cacheKeyPrefix id).Issues Sound :=
    fun _ _ _ => issues_invalidateList trivial redis trivial
  refine Program.Issues.bind
    (issues_invalidateAll _ fun source _ => hinvalidate _ _ source) fun _ => ?_
  split
  · exact issues_invalidateAll _ fun source _ => hinvalidate _ _ source
  · trivial

end Handles

/-! ## What the texts stand for -/

/-- The text is that of the value. -/
def IsTextOf (format : FloatFormat) (text : List Char) (value : Value) : Prop :=
  IsJson value ∧ dumps format value = .ok text

/-- The texts are those of the values. -/
def AreTextsOf (format : FloatFormat) (texts : String → Option (List Char))
    (values : String → Option Value) : Prop :=
  ∀ key, Option.Rel (IsTextOf format) (texts key) (values key)

/-- The texts stand for the values, and the documents are the same. -/
structure Stands (format : FloatFormat) (written : World) (world : Cache.World) : Prop where
  cache : AreTextsOf format written.cache world.cache
  mirror : written.mirror = world.mirror

section Stands

variable {format} {texts : String → Option (List Char)} {values : String → Option Value}

theorem AreTextsOf.update (htexts : AreTextsOf format texts values) (key : String)
    {text? : Option (List Char)} {value? : Option Value}
    (hnew : Option.Rel (IsTextOf format) text? value?) :
    AreTextsOf format (Function.update texts key text?) (Function.update values key value?) := by
  intro other
  rcases eq_or_ne other key with rfl | hne
  · simpa using hnew
  · simpa [Function.update_of_ne hne] using htexts other

theorem AreTextsOf.set {written : List (String × List Char)} {items : List (String × Value)}
    (hwritten : List.Forall₂ (fun text item => text.1 = item.1 ∧ IsTextOf format text.2 item.2)
      written items) (htexts : AreTextsOf format texts values) :
    AreTextsOf format
      (written.foldl (fun cache item => Function.update cache item.1 (some item.2)) texts)
      (items.foldl (fun cache item => Function.update cache item.1 (some item.2)) values) := by
  induction hwritten generalizing texts values with
  | nil => exact htexts
  | cons hitem _ ih =>
      obtain ⟨hkey, htext⟩ := hitem
      simp only [List.foldl_cons, hkey]
      exact ih (htexts.update _ (.some htext))

theorem AreTextsOf.delete (keys : List String) (htexts : AreTextsOf format texts values) :
    AreTextsOf format (keys.foldl (fun cache key => Function.update cache key none) texts)
      (keys.foldl (fun cache key => Function.update cache key none) values) := by
  induction keys generalizing texts values with
  | nil => exact htexts
  | cons key keys ih => exact ih (htexts.update key .none)

/-- What is written of values that can be written. -/
theorem forall₂_of_dumpItem {items : List (String × Value)} (hjson : ∀ item ∈ items, IsJson item.2)
    {written : List (String × List Char)} (hwritten : items.mapM (dumpItem format) = .ok written) :
    List.Forall₂ (fun text item => text.1 = item.1 ∧ IsTextOf format text.2 item.2) written
      items := by
  have hdumps := (List.forall₂_and_left _ _).mpr ⟨hjson, forall₂_of_mapM hwritten⟩
  refine (hdumps.imp fun item text hitem => ?_).flip
  obtain ⟨hvalue, hdump⟩ := hitem
  rw [dumpItem] at hdump
  cases htext : dumps format item.2 with
  | error error => simp [htext, Except.map] at hdump
  | ok dumped =>
      simp only [htext, Except.map, Except.ok.injEq] at hdump
      exact hdump ▸ ⟨rfl, hvalue, htext⟩

theorem exists_dumpItems {items : List (String × Value)} (hjson : ∀ item ∈ items, IsJson item.2) :
    ∃ written, items.mapM (dumpItem format) = .ok written := by
  refine exists_mapM_ok fun item hitem => ?_
  obtain ⟨text, htext⟩ := (exists_dumps_iff item.2).mpr (hjson item hitem).writable
  exact ⟨(item.1, text), by rw [dumpItem, htext]; rfl⟩

/-- What has been written is read back. -/
theorem mapM_loadRaw (hformat : format.Faithful) (htexts : AreTextsOf format texts values)
    (keys : List String) : (keys.map texts).mapM (loadRaw format) = .ok (keys.map values) := by
  induction keys with
  | nil => rfl
  | cons key keys ih =>
      have hload : loadRaw format (texts key) = .ok (values key) := by
        have hkey := htexts key
        generalize texts key = text? at hkey ⊢
        generalize values key = value? at hkey ⊢
        cases hkey with
        | none => rfl
        | some htext => rw [loadRaw, loads_dumps hformat htext.1.python htext.2]; rfl
      rw [List.map_cons, List.mapM_cons, hload, ih]
      rfl

theorem answers_ok {op : Cache.Op} {Answer : Type} {read : Answer → Except JsonError op.Answer}
    {trusted : op.Answer → Prop} {answer : Answer} {value : op.Answer} (delivery : Delivery)
    (failure : CacheError) (hread : read answer = .ok value) (htrusted : trusted value) :
    Answers (S := Cache.signature) read trusted (delivery.answer (.inl failure) answer)
      (delivery.answer failure value) := by
  cases delivery with
  | done => exact .ok hread htrusted
  | error carriedOut => exact .error failure

/-- Where no choice fits the call, nothing happens. -/
theorem respond_agrees (hformat : format.Faithful) {op : Cache.Op} {choice : Choice}
    {written : World} {world : Cache.World} {call : Op}
    {read : signature.Answer call → Except JsonError op.Answer} (hsound : Sound op)
    (hallowed : AnswersJson choice) (hstands : Stands format written world)
    (hwrite : (coding format).write op = .ok ⟨call, read⟩) :
    Option.Rel (fun one other => Answers (S := Cache.signature) read (Trusted op) one.1 other.1 ∧
      Stands format one.2 other.2) (respond call choice written)
      (Cache.respond op choice world) := by
  cases op with
  | mget keys =>
      cases hwrite
      cases choice with
      | redis delivery =>
          exact .some ⟨answers_ok delivery _ (mapM_loadRaw hformat hstands.cache keys) trivial,
            hstands⟩
      | _ => exact .none
  | setMany items ttlSeconds =>
      cases hitems : items.mapM (dumpItem format) with
      | error error => simp [coding, hitems, Except.map] at hwrite
      | ok texts =>
          simp only [coding, hitems, Except.map, Except.ok.injEq] at hwrite
          cases hwrite
          cases choice with
          | redis delivery =>
              have hparts := delivery.forall₂_parts (forall₂_of_dumpItem hsound hitems)
              exact .some ⟨answers_ok delivery _ rfl trivial, hstands.cache.set hparts,
                hstands.mirror⟩
          | _ => exact .none
  | delete keys =>
      cases hwrite
      cases choice with
      | redis delivery =>
          exact .some ⟨answers_ok delivery _ rfl trivial, hstands.cache.delete _, hstands.mirror⟩
      | _ => exact .none
  | deleteMany collectionName field id =>
      cases hwrite
      cases choice with
      | database delivery =>
          refine .some ⟨answers_ok delivery _ rfl trivial, hstands.cache, ?_⟩
          simp only [World.database, Cache.World.deleteMany, hstands.mirror]
      | _ => exact .none
  | insertMany collectionName documents =>
      cases hwrite
      cases choice with
      | database delivery =>
          refine .some ⟨answers_ok delivery _ rfl trivial, hstands.cache, ?_⟩
          simp only [World.database, Cache.World.insertMany, hstands.mirror]
      | _ => exact .none
  | utcnow =>
      cases hwrite
      cases choice with
      | utcnow now => exact .some ⟨.ok rfl trivial, hstands⟩
      | _ => exact .none
  | get endpoint id accessToken page =>
      cases hwrite
      cases choice with
      | esi answer =>
          cases answer with
          | ok response => exact .some ⟨.ok rfl hallowed, hstands⟩
          | error error => exact .some ⟨.error error, hstands⟩
      | _ => exact .none

/-- **The system with the texts agrees with the one with the values.** -/
theorem texts_agrees (hformat : format.Faithful) (redis : Bool) :
    Agrees (coding format) Sound Trusted AnswersJson (Stands format) (Texts.texts format redis)
      (caching redis) where
  body _ := rfl
  handles start := by
    cases start with
    | characterList kind accessToken characterId =>
        exact (handles_getCharacterList redis _ _ kind).bind fun _ _ => trivial
    | characterColonies accessToken characterId =>
        exact (handles_getCharacterColonies redis _ _).bind fun _ _ => trivial
    | corporationList kind accessToken corporationId =>
        exact (handles_getCorporationList redis _ _ kind).bind fun _ _ => trivial
    | mergedList kind character =>
        exact (handles_getMergedList redis character kind).bind fun _ _ => trivial
    | refresh character =>
        exact (handles_of_issues (issues_refreshCharacterData_sound redis character)).bind
          fun _ _ => trivial
  enter _ _ _ _ hstands := .some hstands
  write op hsound := by
    cases op with
    | setMany items ttlSeconds =>
        obtain ⟨written, hwritten⟩ := @exists_dumpItems format _ hsound
        exact ⟨_, by simp only [coding, hwritten]; rfl⟩
    | _ => exact ⟨_, rfl⟩
  respond thread op choice written world call read hsound hallowed hstands hwrite :=
    respond_agrees hformat hsound hallowed hstands hwrite
  crash _ _ _ hstands := hstands
  tick tick _ _ hstands := by
    cases tick with
    | expire key => exact .some ⟨hstands.cache.delete [key], hstands.mirror⟩

end Stands

/-! ## The simulation -/

/-- What a program has come to. -/
def outcomeOf {S : Signature} {ε World : Type} (config : Config S ε Reply World Start)
    (thread : ℕ) : Option (Except ε Reply) :=
  (config.threads thread).bind Program.outcome?

variable {format} in
/-- **The texts make no difference.**  From worlds that stand for each other, any events, of which
ESI answers JSON, happen with the texts exactly if they happen with the values; the worlds stand
for each other again, and all requests come to the same, with no error of `json`. -/
theorem texts_simulate (hformat : format.Faithful) (redis : Bool) {written : World}
    {world : Cache.World} (hstands : Stands format written world) {events : List CacheEvent}
    (hevents : ∀ thread choice, .call thread choice ∈ events → AnswersJson choice) :
    Option.Rel (fun later config => Stands format later.moment.world config.moment.world ∧
        ∀ thread, outcomeOf later thread = (outcomeOf config thread).map (Except.mapError .inl))
      ((texts format redis).run (Config.initial _ _ _ _ written) events)
      ((caching redis).run (Config.initial _ _ _ _ world) events) := by
  have hagrees := texts_agrees hformat redis
  have hrun := hagrees.run hevents (Simulates.initial hstands)
  generalize (texts format redis).run _ events = later? at hrun ⊢
  generalize (caching redis).run _ events = config? at hrun ⊢
  cases hrun with
  | none => exact .none
  | some hsimulates => exact .some ⟨hsimulates.world, hagrees.outcome hsimulates⟩

/-- A colony with one pin. -/
def sampleDetail : Document := .single "pins" (.array [.object [("pin_id", .int 1)]])

/-- The colonies are fetched, and the list with its lists of pins is written into Redis. -/
def sampleEvents : List CacheEvent :=
  [.start (.characterColonies "token" 7), .call 0 (.redis .done),
    .call 0 (.esi (.ok ⟨[colonyEntry.build fun _ => .int 7], 1⟩)),
    .call 0 (.esi (.ok ⟨[sampleDetail], 1⟩)), .call 0 (.database .done), .call 0 (.utcnow 5),
    .call 0 (.database .done), .call 0 (.redis .done)]

theorem texts_simulate_sample :
    Option.Rel (fun later config =>
        Stands sampleFormat later.moment.world config.moment.world ∧
        ∀ thread, outcomeOf later thread = (outcomeOf config thread).map (Except.mapError .inl))
      ((texts sampleFormat true).run (Config.initial _ _ _ _ ⟨fun _ => none, fun _ => []⟩)
        sampleEvents)
      ((caching true).run (Config.initial _ _ _ _ emptyWorld) sampleEvents) :=
  texts_simulate sampleFormat_faithful true ⟨fun _ => .none, rfl⟩ (by
    have hint : ∀ n : ℤ, n.natAbs < 10 → IsJson (.int n) := fun n hn =>
      ⟨trivial, Numerals.short_of_natAbs_lt (hn.trans (by decide))⟩
    intro thread choice hmem
    simp only [sampleEvents, List.mem_cons, List.not_mem_nil, or_false, reduceCtorEq,
      Event.call.injEq, false_or] at hmem
    rcases hmem with ⟨-, rfl⟩ | ⟨-, rfl⟩ | ⟨-, rfl⟩ | ⟨-, rfl⟩ | ⟨-, rfl⟩ | ⟨-, rfl⟩ | ⟨-, rfl⟩
    case inr.inl =>
      intro entry hentry
      obtain rfl := List.mem_singleton.mp hentry
      exact isJson_build fun _ => hint 7 (by decide)
    case inr.inr.inl =>
      intro entry hentry
      obtain rfl := List.mem_singleton.mp hentry
      refine isJson_toValue.mpr fun member hmember => ?_
      obtain rfl := List.mem_singleton.mp hmember
      refine isJson_array.mpr fun item hitem => ?_
      obtain rfl := List.mem_singleton.mp hitem
      exact (@isJson_toValue (.single "pin_id" (.int 1))).mpr fun pin hpin => by
        obtain rfl := List.mem_singleton.mp hpin
        exact hint 1 (by decide)
    all_goals trivial)

end EveBuild.Cache.Texts
