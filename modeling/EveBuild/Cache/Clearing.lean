import EveBuild.Auth.Writes
import EveBuild.Cache.ForceRefresh
import EveBuild.Effect.Sum

/-!
# Clearing the data of a character

`clear_data` reads the character of the session, deletes the documents and the keys of its
personal lists, and then the character.  `serving` runs it at the same time as any number of
reads, refreshes and requests of the routes of authentication.

What it has erased stays so in every run in which no read inserts documents of the character
or sets a key of it after the clearing has deleted them, the calls of Redis leave no key, and
nobody logs in as the character (`clear_final`).  Reads in flight are not stopped, so that one
of them can bring the documents and the key of a list back (`read_restores_list`).  A token
refresh cannot bring the character back, because it does not insert one.
-/

namespace EveBuild.Cache

open Effect

/-! ## The service -/

/-- The calls for lists, and the calls for characters. -/
abbrev serviceSignature : Signature := signature.sum Auth.signature

abbrev ServiceError := CacheError ⊕ Auth.AuthError

abbrev ServiceCode := Program serviceSignature ServiceError

def onLists {β : Type} (program : Code β) : ServiceCode β :=
  program.left Auth.signature Auth.AuthError

def onCharacters {β : Type} (program : Auth.Code β) : ServiceCode β :=
  program.right signature CacheError

/-- `clear_character_data`. -/
def clearCharacterData (redis : Bool) (character : Auth.CharacterDocument) :
    ServiceCode Unit := do
  onLists (invalidateAll (fun source => invalidateCharacterList redis source.collectionName
    source.cacheKeyPrefix character.characterId) personalSources)
  onCharacters (Auth.await (.deleteCharacter character.characterId))

/-- `clear_data`. -/
def clearData (redis : Bool) (session : Auth.Session) : ServiceCode Auth.Reply := do
  match ← onCharacters (Auth.currentCharacterOptional session) with
  | (none, session) => return ⟨session, .httpException 401 "Not authenticated"⟩
  | (some character, _) =>
      clearCharacterData redis character
      return ⟨{}, .redirect "/"⟩

structure ServiceWorld where
  lists : World
  accounts : Auth.World

inductive ServiceStart
  | request (request : Request)
  | account (start : Auth.Start)

abbrev ServiceReply := Reply ⊕ Auth.Reply

abbrev ServiceChoice := Choice ⊕ Auth.Choice

abbrev ServiceTick := Tick ⊕ Auth.Tick

def serviceRespond (op : serviceSignature.Op) (choice : ServiceChoice) (world : ServiceWorld) :
    Option (Except ServiceError (serviceSignature.Answer op) × ServiceWorld) :=
  match op, choice with
  | .inl op, .inl choice =>
      (respond op choice world.lists).map fun answered =>
        (answered.1.mapError .inl, { world with lists := answered.2 })
  | .inr op, .inr choice =>
      (Auth.respond op choice world.accounts).map fun answered =>
        (answered.1.mapError .inr, { world with accounts := answered.2 })
  | _, _ => none

/-- Any number of requests of all kinds. -/
def serving (redis : Bool) : System serviceSignature ServiceError ServiceReply ServiceWorld
    ServiceStart ServiceChoice ServiceTick where
  body
    | .request request => do return .inl (← onLists ((requesting redis).body request))
    | .account (.clearData session) => do return .inr (← clearData redis session)
    | .account start => do return .inr (← onCharacters (Auth.auth.body start))
  enter _ _ world := some world
  respond _ := serviceRespond
  crash _ world := world
  tick
    | .inl (.expire key), world => some { world with lists := world.lists.deleteCache [key] }
    | .inr tick, world =>
        (Auth.auth.tick tick world.accounts).map fun accounts => { world with accounts }

abbrev ServiceLog := List (Call serviceSignature ServiceError)

abbrev ServiceMoment := Moment serviceSignature ServiceError ServiceWorld ServiceStart

abbrev ServiceConfig := Config serviceSignature ServiceError ServiceReply ServiceWorld ServiceStart

abbrev ServiceEvent := Event ServiceStart ServiceChoice ServiceTick

abbrev ServicePolicy :=
  Policy serviceSignature ServiceError ServiceWorld ServiceStart ServiceChoice ServiceTick

/-! ## What a clearing deletes -/

/-- The program has deleted the documents of the list. -/
def Unstocked (listing : Listing) (log : ServiceLog) : Prop :=
  ⟨.inl (.deleteMany listing.collectionName listing.field listing.id), .ok ()⟩ ∈ log

/-- The program has tried to delete the key of the list. -/
def Unkeyed (listing : Listing) (log : ServiceLog) : Prop :=
  ∃ answer, ⟨.inl (.delete [listing.key]), answer⟩ ∈ log

/-- The program has deleted the character. -/
def Forgotten (characterId : ℤ) (log : ServiceLog) : Prop :=
  ⟨.inr (.deleteCharacter characterId), .ok ()⟩ ∈ log

section Logs

variable {redis : Bool} {own : ServiceLog}

/-- **What the clearing of a character has done** when it has returned. -/
theorem ran_clearCharacterData {character : Auth.CharacterDocument} {characterId : ℤ}
    (hran : Program.Ran (clearCharacterData redis character) own (.ok ()))
    (hforgotten : Forgotten characterId own) :
    ∀ listed ∈ Listed.personal, Unstocked ⟨listed, some characterId⟩ own ∧
      (redis = true → Unkeyed ⟨listed, some characterId⟩ own) := by
  rcases hran.of_bind with ⟨_, first, rest, rfl, hfirst, hrest⟩ | ⟨error, herror, _⟩
  · obtain ⟨lists, rfl, hlists⟩ := hfirst.of_left
    obtain ⟨calls, rfl, hcalls⟩ := hrest.of_right
    obtain rfl := hcalls.of_perform
    -- the only character that is deleted is the one of the request
    obtain rfl : characterId = character.characterId := by
      rcases List.mem_append.mp hforgotten with hmem | hmem
      · cases List.mem_singleton.mp hmem
        rfl
      · obtain ⟨call, _, heq⟩ := List.mem_map.mp hmem
        cases heq
    intro listed hlisted
    obtain ⟨part, hpart, hinvalidate⟩ := ran_invalidatePersonal hlists hlisted
    obtain ⟨deletes, rfl, hdeletes⟩ := Listing.ran_invalidate hinvalidate
    have hdeleted := hpart.subset (List.mem_append_right _ (List.mem_singleton_self _))
    refine ⟨List.mem_append_right _ (List.mem_map_of_mem hdeleted), ?_⟩
    rintro rfl
    -- the key is deleted too, where Redis is enabled
    rcases hdeletes with ⟨hdisabled, _⟩ | ⟨_, answer, rfl⟩
    · cases hdisabled
    · have hkey := hpart.subset (List.mem_append_left _ (List.mem_singleton_self _))
      exact ⟨answer.mapError .inl, List.mem_append_right _ (List.mem_map_of_mem hkey)⟩
  · cases herror

/-- **What a request to clear has done** when it has returned, and has deleted a character. -/
theorem ran_clearData {session : Auth.Session} {reply : Auth.Reply} {characterId : ℤ}
    (hran : Program.Ran (clearData redis session) own (.ok reply))
    (hforgotten : Forgotten characterId own) :
    ∀ listed ∈ Listed.personal, Unstocked ⟨listed, some characterId⟩ own ∧
      (redis = true → Unkeyed ⟨listed, some characterId⟩ own) := by
  rcases hran.of_bind with ⟨⟨found, left⟩, first, rest, rfl, hfirst, hrest⟩ | ⟨error, herror, _⟩
  · obtain ⟨calls, rfl, hcalls⟩ := hfirst.of_right
    -- no character is deleted while that of the session is read
    have hrestForgotten : Forgotten characterId rest := by
      rcases List.mem_append.mp hforgotten with hmem | hmem
      · exact hmem
      · obtain ⟨⟨op, answer⟩, hcall, heq⟩ := List.mem_map.mp hmem
        have hupdates := (Auth.issues_currentCharacterOptional session).of_ran hcalls _ hcall
        obtain rfl : op = .deleteCharacter characterId :=
          Sum.inr_injective (congrArg Call.op heq)
        exact absurd hupdates id
    cases found with
    | none =>
        obtain ⟨rfl, _⟩ := hrest.of_ret
        cases hrestForgotten
    | some character =>
        rcases hrest.of_bind with ⟨_, cleared, last, rfl, hcleared, hlast⟩ | ⟨error, herror, _⟩
        · obtain ⟨rfl, _⟩ := hlast.of_ret
          intro listed hlisted
          obtain ⟨hunstocked, hunkeyed⟩ :=
            ran_clearCharacterData hcleared hrestForgotten listed hlisted
          refine ⟨List.mem_append_left _ hunstocked, fun henabled => ?_⟩
          obtain ⟨answer, hkey⟩ := hunkeyed henabled
          exact ⟨answer, List.mem_append_left _ hkey⟩
        · cases herror
  · cases herror

end Logs

/-! ## The condition -/

/-- The documents and the keys of the character stay erased: after the program has deleted
the documents of a personal list, none is inserted; its calls of Redis leave no key, and none
is set after them; and the character is not inserted after it has been deleted. -/
def StaysErased (characterId : ℤ) (clearer thread : ℕ) (op : serviceSignature.Op)
    (choice : ServiceChoice) (moment : ServiceMoment) : Prop :=
  match op, choice with
  | .inl (.insertMany collectionName documents), .inl (.database delivery) =>
      ∀ listed ∈ Listed.personal, listed.source.collectionName = collectionName →
        Unstocked ⟨listed, some characterId⟩ (moment.logOf clearer) →
        ∀ document ∈ delivery.parts documents,
          document.field listed.field ≠ idValue (some characterId)
  | .inl (.setMany items _), .inl (.redis delivery) =>
      ∀ listed ∈ Listed.personal, Unkeyed ⟨listed, some characterId⟩ (moment.logOf clearer) →
        (Listing.mk listed (some characterId)).key ∉ (delivery.parts items).map Prod.fst
  | .inl (.delete keys), .inl (.redis delivery) =>
      thread = clearer → ∀ key ∈ keys,
        key ∈ delivery.parts keys ∨ moment.world.lists.cache key = none
  | .inr (.updateCharacter id _ upsert), .inr (.database delivery) =>
      Forgotten characterId (moment.logOf clearer) → id = characterId → upsert ≠ none →
        delivery = .failed
  | _, _ => True

def lasting (characterId : ℤ) (clearer : ℕ) : ServicePolicy where
  start _ _ := True
  call := StaysErased characterId clearer
  crash _ _ := True
  tick _ _ := True

/-! ## What has been erased -/

/-- What the program has deleted is not there. -/
structure Erased (characterId : ℤ) (clearer : ℕ) (moment : ServiceMoment) : Prop where
  documents : ∀ listed ∈ Listed.personal,
    Unstocked ⟨listed, some characterId⟩ (moment.logOf clearer) →
      (Listing.mk listed (some characterId)).documents moment.world.lists = []
  keys : ∀ listed ∈ Listed.personal,
    Unkeyed ⟨listed, some characterId⟩ (moment.logOf clearer) →
      moment.world.lists.cache (Listing.mk listed (some characterId)).key = none
  character : Forgotten characterId (moment.logOf clearer) →
    moment.world.accounts.characters characterId = none

section Runs

variable {redis : Bool} {characterId : ℤ} {clearer : ℕ} {moment : ServiceMoment}

/-- A call of a list. -/
theorem respond_left {op : Op} {choice : ServiceChoice} {world later : ServiceWorld}
    {answer : Except ServiceError (serviceSignature.Answer (.inl op))}
    (hrespond : serviceRespond (.inl op) choice world = some (answer, later)) :
    ∃ listChoice listAnswer lists, choice = .inl listChoice ∧
      respond op listChoice world.lists = some (listAnswer, lists) ∧
      answer = listAnswer.mapError .inl ∧ later = { world with lists } := by
  cases choice with
  | inl choice =>
      obtain ⟨⟨listAnswer, lists⟩, hlists, heq⟩ := Option.map_eq_some_iff.mp hrespond
      obtain ⟨rfl, rfl⟩ := Prod.mk.inj heq
      exact ⟨choice, listAnswer, lists, rfl, hlists, rfl, rfl⟩
  | inr choice => cases hrespond

/-- A call of a character. -/
theorem respond_right {op : Auth.Op} {choice : ServiceChoice} {world later : ServiceWorld}
    {answer : Except ServiceError (serviceSignature.Answer (.inr op))}
    (hrespond : serviceRespond (.inr op) choice world = some (answer, later)) :
    ∃ accountChoice accountAnswer accounts, choice = .inr accountChoice ∧
      Auth.respond op accountChoice world.accounts = some (accountAnswer, accounts) ∧
      answer = accountAnswer.mapError .inr ∧ later = { world with accounts } := by
  cases choice with
  | inl choice => cases hrespond
  | inr choice =>
      obtain ⟨⟨accountAnswer, accounts⟩, haccounts, heq⟩ := Option.map_eq_some_iff.mp hrespond
      obtain ⟨rfl, rfl⟩ := Prod.mk.inj heq
      exact ⟨choice, accountAnswer, accounts, rfl, haccounts, rfl, rfl⟩

/-- Documents of a list that is empty only come from an insertion. -/
theorem documents_of_respond_empty {listing : Listing} {op : Op} {choice : Choice}
    {world later : World} {answer : Except CacheError op.Answer}
    (hrespond : respond op choice world = some (answer, later))
    (hempty : listing.documents world = [])
    (hinsert : ∀ documents delivery, op = .insertMany listing.collectionName documents →
      choice = .database delivery → ∀ document ∈ delivery.parts documents,
        document.field listing.field ≠ idValue listing.id) :
    listing.documents later = [] := by
  have hmirror : ∀ other : World, other.mirror = world.mirror → listing.documents other = [] := by
    intro other hother
    rw [Listing.documents, hother]
    exact hempty
  cases op <;> cases choice <;>
    simp only [respond, Option.some.injEq, Prod.mk.injEq, reduceCtorEq] at hrespond
  -- a deletion leaves a part of the collection
  case deleteMany.database collectionName field id delivery =>
    obtain ⟨_, rfl⟩ := hrespond
    refine List.eq_nil_of_sublist_nil (hempty ▸ List.Sublist.filter _ ?_)
    exact World.mirror_deleteMany_sublist _ _ _ _ _ _
  -- an insertion adds documents of other lists only
  case insertMany.database collectionName documents delivery =>
    obtain ⟨_, rfl⟩ := hrespond
    by_cases hcollection : listing.collectionName = collectionName
    · subst hcollection
      rw [Listing.documents, World.mirror_insertMany_self, List.filter_append,
        List.append_eq_nil_iff]
      refine ⟨hempty, List.filter_eq_nil_iff.mpr fun document hdocument => ?_⟩
      simpa using hinsert documents delivery rfl rfl document hdocument
    · rw [Listing.documents, World.mirror_insertMany_of_ne _ _ _ hcollection]
      exact hempty
  all_goals
    obtain ⟨_, rfl⟩ := hrespond
    exact hmirror _ rfl

/-- **Documents.** -/
theorem documents_call {thread : ℕ} {op : Op} {choice : Choice}
    {answer : Except CacheError op.Answer} {lists : World}
    (hmeets : StaysErased characterId clearer thread (.inl op) (.inl choice) moment)
    (hrespond : respond op choice moment.world.lists = some (answer, lists))
    {listed : Listed} (hlisted : listed ∈ Listed.personal)
    (herased : Unstocked ⟨listed, some characterId⟩ (moment.logOf clearer) →
      (Listing.mk listed (some characterId)).documents moment.world.lists = [])
    (hunstocked : Unstocked ⟨listed, some characterId⟩ ((moment.answer thread
      ⟨.inl op, answer.mapError .inl⟩ { moment.world with lists }).logOf clearer)) :
    (Listing.mk listed (some characterId)).documents lists = [] := by
  rcases Moment.mem_answer_logOf hunstocked with hold | ⟨_, heq⟩
  · -- they have been deleted before, and the policy keeps insertions out
    refine documents_of_respond_empty hrespond (herased hold) ?_
    rintro documents delivery rfl rfl
    exact hmeets listed hlisted rfl hold
  · -- the documents are deleted now
    obtain rfl := Sum.inl_injective (congrArg Call.op heq)
    cases choice with
    | database delivery =>
        simp only [respond, Option.some.injEq, Prod.mk.injEq] at hrespond
        obtain ⟨rfl, rfl⟩ := hrespond
        cases delivery with
        | done => exact Listing.documents_deleteMany_done _
        | error carriedOut => cases heq
    | _ => cases hrespond

/-- **Keys.** -/
theorem keys_call {thread : ℕ} {op : Op} {choice : Choice}
    {answer : Except CacheError op.Answer} {lists : World}
    (hmeets : StaysErased characterId clearer thread (.inl op) (.inl choice) moment)
    (hrespond : respond op choice moment.world.lists = some (answer, lists))
    {listed : Listed} (hlisted : listed ∈ Listed.personal)
    (herased : Unkeyed ⟨listed, some characterId⟩ (moment.logOf clearer) →
      moment.world.lists.cache (Listing.mk listed (some characterId)).key = none)
    (hunkeyed : Unkeyed ⟨listed, some characterId⟩ ((moment.answer thread
      ⟨.inl op, answer.mapError .inl⟩ { moment.world with lists }).logOf clearer)) :
    lists.cache (Listing.mk listed (some characterId)).key = none := by
  by_contra hne
  obtain ⟨value, hvalue⟩ := Option.ne_none_iff_exists'.mp hne
  obtain ⟨deleted, hmem⟩ := hunkeyed
  rcases Moment.mem_answer_logOf hmem with hold | ⟨hthread, heq⟩
  · have hnone := herased ⟨deleted, hold⟩
    -- a value that is new has been set, against the condition
    rcases cache_of_respond hrespond hvalue with hcache | ⟨items, ttlSeconds, rfl, _⟩
    · cases hnone.symm.trans hcache
    · cases choice with
      | redis delivery =>
          rcases cache_of_setMany hrespond hvalue with hcache | hitem
          · cases hnone.symm.trans hcache
          · exact hmeets listed hlisted ⟨deleted, hold⟩ (List.mem_map_of_mem hitem)
      | _ => cases hrespond
  · -- the key is deleted now
    obtain rfl := Sum.inl_injective (congrArg Call.op heq)
    cases choice with
    | redis delivery =>
        exact absurd hvalue
          (cache_of_delete hrespond (hmeets hthread _ (List.mem_singleton_self _)) value)
    | _ => cases hrespond

/-- **Characters.** -/
theorem character_call {thread : ℕ} {op : Auth.Op} {choice : Auth.Choice}
    {answer : Except Auth.AuthError op.Answer} {accounts : Auth.World}
    (hmeets : StaysErased characterId clearer thread (.inr op) (.inr choice) moment)
    (hrespond : Auth.respond op choice moment.world.accounts = some (answer, accounts))
    (herased : Forgotten characterId (moment.logOf clearer) →
      moment.world.accounts.characters characterId = none)
    (hforgotten : Forgotten characterId ((moment.answer thread
      ⟨.inr op, answer.mapError .inr⟩ { moment.world with accounts }).logOf clearer)) :
    accounts.characters characterId = none := by
  rcases Moment.mem_answer_logOf hforgotten with hold | ⟨_, heq⟩
  · have hnone := herased hold
    rcases Auth.characters_of_respond hrespond with
      ⟨⟨delivery, rfl, hdelivered⟩, heffect⟩ | ⟨_, hsame⟩
    · -- an update of the character does nothing where there is none, unless it inserts one
      rw [heffect]
      cases op with
      | updateCharacter id updates upsert =>
          rcases eq_or_ne id characterId with rfl | hne
          · rw [Auth.Op.effect, Auth.Characters.update, Function.update_self, hnone]
            refine Option.map_eq_none_iff.mpr (not_not.mp fun hupsert => ?_)
            exact hdelivered (hmeets hold rfl hupsert)
          · rw [Auth.Op.effect, Auth.Characters.update, Function.update_of_ne hne.symm]
            exact hnone
      | deleteCharacter id =>
          rcases eq_or_ne id characterId with rfl | hne
          · exact Function.update_self ..
          · rw [Auth.Op.effect, Function.update_of_ne hne.symm]
            exact hnone
      | _ => exact hnone
    · rw [hsame]
      exact hnone
  · -- the character is deleted now
    obtain rfl := Sum.inr_injective (congrArg Call.op heq)
    rcases Auth.characters_of_respond hrespond with ⟨_, heffect⟩ | ⟨hfailed, _⟩
    · rw [heffect]
      exact Function.update_self ..
    · cases choice with
      | database delivery =>
          obtain rfl := hfailed delivery rfl
          simp only [Auth.respond, Option.some.injEq, Prod.mk.injEq] at hrespond
          obtain ⟨rfl, _⟩ := hrespond
          cases heq
      | _ => cases hrespond

/-- **A call.** -/
theorem erased_call {thread : ℕ} {op : serviceSignature.Op} {choice : ServiceChoice}
    {answer : Except ServiceError (serviceSignature.Answer op)} {world : ServiceWorld}
    (herased : Erased characterId clearer moment)
    (hmeets : StaysErased characterId clearer thread op choice moment)
    (hrespond : serviceRespond op choice moment.world = some (answer, world)) :
    Erased characterId clearer (moment.answer thread ⟨op, answer⟩ world) := by
  cases op with
  | inl op =>
      obtain ⟨listChoice, listAnswer, lists, rfl, hlists, rfl, rfl⟩ := respond_left hrespond
      refine ⟨fun listed hlisted hunstocked => ?_, fun listed hlisted hunkeyed => ?_,
        fun hforgotten => herased.character ?_⟩
      · exact documents_call hmeets hlists hlisted (herased.documents listed hlisted) hunstocked
      · exact keys_call hmeets hlists hlisted (herased.keys listed hlisted) hunkeyed
      · exact Moment.mem_logOf_of_ne hforgotten fun heq => by cases congrArg Call.op heq
  | inr op =>
      obtain ⟨accountChoice, accountAnswer, accounts, rfl, haccounts, rfl, rfl⟩ :=
        respond_right hrespond
      refine ⟨fun listed hlisted hunstocked => herased.documents listed hlisted ?_,
        fun listed hlisted ⟨deleted, hunkeyed⟩ => herased.keys listed hlisted ⟨deleted, ?_⟩,
        character_call hmeets haccounts herased.character⟩
      · exact Moment.mem_logOf_of_ne hunstocked fun heq => by cases congrArg Call.op heq
      · exact Moment.mem_logOf_of_ne hunkeyed fun heq => by cases congrArg Call.op heq

/-- **One step.** -/
theorem erased_step {config after : ServiceConfig} {event : ServiceEvent}
    (herased : Erased characterId clearer config.moment)
    (hmeets : (lasting characterId clearer).Meets config event)
    (hstep : (serving redis).Steps config event after) :
    Erased characterId clearer after.moment := by
  cases hstep with
  | start henter =>
      obtain rfl := Option.some_inj.mp henter
      exact ⟨herased.documents, herased.keys, herased.character⟩
  | @call thread choice op next answer world hthread hrespond =>
      exact erased_call herased (hmeets op next hthread) hrespond
  | crash hthread => exact ⟨herased.documents, herased.keys, herased.character⟩
  | @tick tick world htick =>
      cases tick with
      | inl tick =>
          cases tick with
          | expire key =>
              obtain rfl := Option.some_inj.mp htick
              -- a key that expires is one key less
              refine ⟨herased.documents, fun listed hlisted hunkeyed => ?_, herased.character⟩
              by_contra hne
              obtain ⟨value, hvalue⟩ := Option.ne_none_iff_exists'.mp hne
              cases (herased.keys listed hlisted hunkeyed).symm.trans (deleteCache_eq_some hvalue)
      | inr tick =>
          cases tick with
          | revoke refreshToken =>
              obtain rfl := Option.some_inj.mp htick
              exact ⟨herased.documents, herased.keys, herased.character⟩

/-- **Clearing is final.**  In every run that meets the condition, a request to clear that has
deleted a character and has returned leaves no document of a personal list of the character,
no key of such a list, and no character, from then on. -/
theorem clear_final {world : ServiceWorld} {config : ServiceConfig} {session : Auth.Session}
    {reply : Auth.Reply}
    (hreaches : (serving redis).Reaches (lasting characterId clearer)
      (Config.initial _ _ _ _ world) config)
    (hstart : config.moment.starts[clearer]? = some (.account (.clearData session)))
    (hthread : config.threads clearer = some (.ret (.inr reply)))
    (hforgotten : Forgotten characterId (config.moment.logOf clearer)) :
    (∀ listed ∈ Listed.personal,
      (Listing.mk listed (some characterId)).documents config.moment.world.lists = [] ∧
      (redis = true →
        config.moment.world.lists.cache (Listing.mk listed (some characterId)).key = none)) ∧
    config.moment.world.accounts.characters characterId = none := by
  have herased : Erased characterId clearer config.moment := by
    refine hreaches.invariant (motive := fun config => Erased characterId clearer config.moment) ?_
      fun _ _ _ herased hmeets hstep => erased_step herased hmeets hstep
    refine ⟨fun _ _ hunstocked => ?_, fun _ _ ⟨_, hunkeyed⟩ => ?_, fun hforgotten => ?_⟩
    · cases hunstocked
    · cases hunkeyed
    · cases hforgotten
  -- what the request has done is a run of its program
  have hlogged : System.Logged (fun _ _ => True) (fun start outcome log =>
      Program.Ran ((serving redis).body start) log outcome) config := by
    refine hreaches.logged (fun start => ⟨trivial, (Program.records_ran _ []).mono ?_⟩) .initial
    rintro outcome later ⟨own, rfl, hran⟩
    rwa [List.append_nil]
  have hran := hlogged.outcome hstart hthread rfl
  rcases hran.of_bind with ⟨value, first, rest, heq, hfirst, hrest⟩ | ⟨error, herror, _⟩
  · obtain ⟨rfl, hvalue⟩ := hrest.of_ret
    cases hvalue
    rw [List.nil_append] at heq
    rw [← heq] at hfirst
    have hdone := ran_clearData hfirst hforgotten
    refine ⟨fun listed hlisted => ⟨?_, fun henabled => ?_⟩, herased.character hforgotten⟩
    · exact herased.documents listed hlisted (hdone listed hlisted).1
    · exact herased.keys listed hlisted ((hdone listed hlisted).2 henabled)
  · cases herror

end Runs

/-! ## The calls of a clearing -/

/-- Nothing is inserted, and no key is set. -/
def Clears : serviceSignature.Op → Prop
  | .inl (.insertMany ..) => False
  | .inl (.setMany ..) => False
  | .inr (.updateCharacter _ _ upsert) => upsert = none
  | _ => True

theorem issues_clearData (redis : Bool) (session : Auth.Session) :
    (clearData redis session).Issues Clears := by
  have hfind : (onCharacters (Auth.currentCharacterOptional session)).Issues Clears := by
    refine Program.Issues.right ((Auth.issues_currentCharacterOptional session).mono ?_)
    intro op hupdates
    cases op with
    | updateCharacter characterId updates upsert => exact hupdates.1
    | _ => trivial
  refine Program.Issues.bind hfind ?_
  rintro ⟨_ | character, left⟩
  · trivial
  · refine Program.Issues.bind (Program.Issues.bind ?_ fun _ => ?_) fun _ => trivial
    · refine Program.Issues.left (issues_invalidateAll personalSources fun source _ => ?_)
      exact issues_invalidateList trivial redis trivial
    · exact Program.Issues.right (Program.Issues.perform trivial)

/-- A clearing only breaks the condition by an error of Redis. -/
theorem staysErased_of_clears {op : serviceSignature.Op} {choice : ServiceChoice} (hop : Clears op)
    (hchoice : ∀ delivery, choice = .inl (.redis delivery) → delivery = .done)
    (characterId : ℤ) (clearer thread : ℕ) (moment : ServiceMoment) :
    StaysErased characterId clearer thread op choice moment := by
  rcases op with op | op
  · cases op with
    | insertMany collectionName documents => exact absurd hop not_false
    | setMany items ttlSeconds => exact absurd hop not_false
    | delete keys =>
        rcases choice with choice | choice
        · cases choice with
          | redis delivery =>
              obtain rfl := hchoice delivery rfl
              exact fun _ key hkey => Or.inl hkey
          | _ => trivial
        · trivial
    | _ => trivial
  · cases op with
    | updateCharacter id updates upsert =>
        rcases choice with choice | choice
        · trivial
        · cases choice with
          | database delivery => exact fun _ _ hupsert => absurd hop hupsert
          | _ => trivial
    | _ => trivial

/-! ## A clearing with a read -/

/-- A character whose token has not expired. -/
def sampleAccount : Auth.CharacterDocument := { samplePilot with accessTokenExpiresAt := 1000 }

def sampleBrowser : Auth.Session := { characterId := some 7 }

/-- The character has logged in, and these lists are stored. -/
def serviceWorld (lists : World) : ServiceWorld where
  lists := lists
  accounts :=
    { characters := Function.update (fun _ => none) 7 (some sampleAccount)
      accepted := []
      seen := [] }

/-- A request for a list as a request of the service. -/
def serviceEvent : RequestEvent → ServiceEvent
  | .start request => .start (.request request)
  | .call thread choice => .call thread (.inl choice)
  | .crash thread => .crash thread
  | .tick tick => .tick (.inl tick)

/-- What the calls of a clearing come to, with that of the key of the assets. -/
def clearChoices (delivery : Delivery) : List ServiceChoice :=
  [.inr (.database .done), .inr (.utcnow 0), .inl (.database .done), .inl (.redis delivery),
    .inl (.database .done), .inl (.redis .done), .inl (.database .done), .inl (.redis .done),
    .inl (.database .done), .inl (.redis .done), .inr (.database .done)]

def clearEvents (thread : ℕ) (delivery : Delivery) : List ServiceEvent :=
  (clearChoices delivery).map (.call thread)

/-- The configuration after the events. -/
def servedAfter (lists : World) (events : List ServiceEvent) : ServiceConfig :=
  ((serving true).run (Config.initial _ _ _ _ (serviceWorld lists)) events).getD
    (Config.initial _ _ _ _ (serviceWorld lists))

/-- A run of a read and a clearing of character 7, in which both have come to their end and
nobody has logged in since. -/
structure ClearedBeside (events : List ServiceEvent) : Prop where
  reaches : (serving true).Reaches .free (Config.initial _ _ _ _ (serviceWorld emptyWorld))
    (servedAfter emptyWorld events)
  starts : (servedAfter emptyWorld events).moment.starts =
    [.request (.read sampleListing sampleFetch), .account (.clearData sampleBrowser)]
  read : (servedAfter emptyWorld events).threads 0 = some (.ret (.inl (.list [sampleAsset])))
  cleared : (servedAfter emptyWorld events).threads 1 = some (.ret (.inr ⟨{}, .redirect "/"⟩))
  forgotten : Forgotten 7 ((servedAfter emptyWorld events).moment.logOf 1)

/-- The read has been answered by ESI, and stores the list after the clearing. -/
def restoringEvents : List ServiceEvent :=
  inFlightEvents.map serviceEvent ++ .start (.account (.clearData sampleBrowser)) ::
    clearEvents 1 .done ++ storeEvents.map serviceEvent

/-- The read has stored the list, and Redis does not delete its key. -/
def keepingEvents : List ServiceEvent :=
  (inFlightEvents ++ storeEvents).map serviceEvent ++
    .start (.account (.clearData sampleBrowser)) :: clearEvents 1 (.error [])

theorem reaches_served {events : List ServiceEvent}
    (hrun : (serving true).run (Config.initial _ _ _ _ (serviceWorld emptyWorld)) events =
      some (servedAfter emptyWorld events)) :
    (serving true).Reaches .free (Config.initial _ _ _ _ (serviceWorld emptyWorld))
      (servedAfter emptyWorld events) :=
  System.reaches_of_run hrun fun event _ config => Policy.free_meets config event

theorem clearedBeside_restoring : ClearedBeside restoringEvents where
  reaches := reaches_served rfl
  starts := rfl
  read := rfl
  cleared := rfl
  forgotten := List.mem_cons_self ..

theorem clearedBeside_keeping : ClearedBeside keepingEvents where
  reaches := reaches_served rfl
  starts := rfl
  read := rfl
  cleared := rfl
  forgotten := List.mem_cons_self ..

/-- **A read in flight** brings documents and the key of a list back. -/
theorem read_restores_list : ClearedBeside restoringEvents ∧
    sampleListing.documents (servedAfter emptyWorld restoringEvents).moment.world.lists =
      [taggedDocument "character_id" (some 7) 0 sampleAsset] ∧
    (servedAfter emptyWorld restoringEvents).moment.world.lists.cache sampleListing.key =
      some (EntryType.encode [sampleAsset]) :=
  ⟨clearedBeside_restoring, rfl, rfl⟩

/-- **An error of Redis** leaves the key of a list that has been stored before. -/
theorem error_keeps_list : ClearedBeside keepingEvents ∧
    (servedAfter emptyWorld keepingEvents).moment.world.lists.cache sampleListing.key =
      some (EntryType.encode [sampleAsset]) :=
  ⟨clearedBeside_keeping, rfl⟩

/-- The lists after a read of the assets. -/
def storedLists : World := (requestedAfter (inFlightEvents ++ storeEvents)).moment.world

def clearedEvents : List ServiceEvent :=
  .start (.account (.clearData sampleBrowser)) :: clearEvents 0 .done

theorem reaches_cleared :
    (serving true).Reaches (lasting 7 0) (Config.initial _ _ _ _ (serviceWorld storedLists))
      (servedAfter storedLists clearedEvents) := by
  have hissues : (servedAfter storedLists [.start (.account (.clearData sampleBrowser))]).Issues
      Clears := by
    intro thread program hthread
    rcases of_update_eq_some hthread with ⟨_, hprogram⟩ | ⟨_, hthread⟩
    · obtain rfl := Option.some_inj.mp hprogram
      exact Program.Issues.bind (issues_clearData true sampleBrowser) fun _ => trivial
    · cases hthread
  have hrun : (serving true).run
      (servedAfter storedLists [.start (.account (.clearData sampleBrowser))])
      (clearEvents 0 .done) = some (servedAfter storedLists clearedEvents) := rfl
  have hdone : ∀ choice ∈ clearChoices .done, ∀ delivery,
      choice = .inl (.redis delivery) → delivery = .done := by
    simp [clearChoices]
  refine .head ⟨.start (.account (.clearData sampleBrowser)), trivial, rfl⟩
    (System.reaches_of_calls hissues hrun fun event hevent => ?_)
  obtain ⟨choice, hchoice, rfl⟩ := List.mem_map.mp hevent
  exact ⟨0, choice, rfl, fun op hop moment => staysErased_of_clears hop (hdone choice hchoice) ..⟩

/-- After a clearing whose calls are all carried out, nothing that a read has stored is left. -/
theorem clear_final_sample :
    (∀ listed ∈ Listed.personal,
      (Listing.mk listed (some 7)).documents
        (servedAfter storedLists clearedEvents).moment.world.lists = [] ∧
      (true = true → (servedAfter storedLists clearedEvents).moment.world.lists.cache
        (Listing.mk listed (some 7)).key = none)) ∧
    (servedAfter storedLists clearedEvents).moment.world.accounts.characters 7 = none :=
  clear_final reaches_cleared rfl rfl (List.mem_cons_self ..)

end EveBuild.Cache
