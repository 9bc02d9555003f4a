import EveBuild.Cache.Clearing
import EveBuild.Effect.Frame
import EveBuild.Reference.Keys

/-!
# Operations are isolated per owner

`operating` runs any number of reads, refreshes and clearings at the same time, with keys that
expire and calls that fail.  Which lists an operation may touch is said by `Touches`: those of
its character, and those of the corporation where it reads them or is connected.

A call of an operation writes and deletes only keys and documents of the lists that the
operation touches (`issues_operation`), so that whatever belongs to no such list is the same
after a run (`changes_only`).  For the operations on behalf of one character that is
everything but the lists of the character and of its corporation (`operations_isolated`).
-/

namespace EveBuild.Cache

open Effect

/-! ## Operations -/

inductive Operation
  | characterList (kind : Kind) (accessToken : String) (characterId : ℤ)
  | characterColonies (accessToken : String) (characterId : ℤ)
  | corporationList (kind : Kind) (accessToken : String) (corporationId : Option ℤ)
  | mergedList (kind : Kind) (character : Auth.CharacterDocument)
  | refresh (character : Auth.CharacterDocument)
  | clear (character : Auth.CharacterDocument)

/-- Any number of operations. -/
def operating (redis : Bool) : System serviceSignature ServiceError (Option Reply) ServiceWorld
    Operation ServiceChoice Tick where
  body
    | .characterList kind accessToken characterId => do
        return some (.list (← onLists (kind.getCharacterList redis accessToken characterId)))
    | .characterColonies accessToken characterId => do
        return some (.list (← onLists (getCharacterColonies redis accessToken characterId)))
    | .corporationList kind accessToken corporationId => do
        return some (.corporationList
          (← onLists (kind.getCorporationList redis accessToken corporationId)))
    | .mergedList kind character => do
        let (entries, included) ← onLists (kind.getMergedList redis character)
        return some (.mergedList entries included)
    | .refresh character => do
        onLists (refreshCharacterData redis character)
        return some .refreshed
    | .clear character => do
        clearCharacterData redis character
        return none
  enter _ _ world := some world
  respond _ := serviceRespond
  crash _ world := world
  tick
    | .expire key, world => some { world with lists := world.lists.deleteCache [key] }

abbrev OperationConfig :=
  Config serviceSignature ServiceError (Option Reply) ServiceWorld Operation

abbrev OperationEvent := Event Operation ServiceChoice Tick

/-! ## What an operation touches -/

/-- The operation may write or delete the list. -/
inductive Touches : Operation → Listing → Prop
  | characterList {kind accessToken characterId} :
      Touches (.characterList kind accessToken characterId) ⟨kind.listed, some characterId⟩
  | characterColonies {accessToken characterId} :
      Touches (.characterColonies accessToken characterId) ⟨.colonies, some characterId⟩
  | corporationList {kind accessToken corporationId} :
      Touches (.corporationList kind accessToken corporationId) ⟨kind.corpListed, corporationId⟩
  | mergedPersonal {kind character} :
      Touches (.mergedList kind character) ⟨kind.listed, some character.characterId⟩
  | mergedCorp {kind character} (hconnected : corpDataConnected character = true) :
      Touches (.mergedList kind character) ⟨kind.corpListed, character.corporationId⟩
  | refresh {character listing} (hrefreshes : Refreshes character listing) :
      Touches (.refresh character) listing
  | clear {character listed} (hlisted : listed ∈ Listed.personal) :
      Touches (.clear character) ⟨listed, some character.characterId⟩

/-- The operation may delete the character. -/
def Forgets : Operation → ℤ → Prop
  | .clear character, characterId => character.characterId = characterId
  | _, _ => False

/-- A call for lists that writes and deletes keys and documents of the touched ones only. -/
def TouchesOnly (touched : Listing → Prop) : Op → Prop
  | .setMany items _ => ∀ item ∈ items, ∃ listing, touched listing ∧ item.1 = listing.key
  | .delete keys => ∀ key ∈ keys, ∃ listing, touched listing ∧ key = listing.key
  | .deleteMany collectionName field id => ∃ listing, touched listing ∧
      collectionName = listing.collectionName ∧ field = listing.field ∧ id = listing.id
  | .insertMany collectionName documents => ∃ listing, touched listing ∧
      collectionName = listing.collectionName ∧
      ∀ document ∈ documents, document.field listing.field = idValue listing.id
  | _ => True

/-- A call of an operation. -/
def ServesOnly (touched : Listing → Prop) (forgotten : ℤ → Prop) : serviceSignature.Op → Prop
  | .inl op => TouchesOnly touched op
  | .inr (.deleteCharacter characterId) => forgotten characterId
  | .inr _ => False

section Issues

variable {touched wider : Listing → Prop} {listing : Listing} {redis : Bool}

theorem TouchesOnly.mono (hwider : ∀ listing, touched listing → wider listing) {op : Op}
    (htouches : TouchesOnly touched op) : TouchesOnly wider op := by
  cases op with
  | setMany items ttlSeconds =>
      intro item hitem
      obtain ⟨listing, hlisting, hkey⟩ := htouches item hitem
      exact ⟨listing, hwider listing hlisting, hkey⟩
  | delete keys =>
      intro key hkey
      obtain ⟨listing, hlisting, hkey⟩ := htouches key hkey
      exact ⟨listing, hwider listing hlisting, hkey⟩
  | deleteMany collectionName field id =>
      obtain ⟨listing, hlisting, hrest⟩ := htouches
      exact ⟨listing, hwider listing hlisting, hrest⟩
  | insertMany collectionName documents =>
      obtain ⟨listing, hlisting, hrest⟩ := htouches
      exact ⟨listing, hwider listing hlisting, hrest⟩
  | _ => trivial

/-- The documents of instances are tagged. -/
theorem returns_taggedDocuments {entries : List Document}
    (hentries : ∀ entry ∈ entries, listing.entryType.IsInstance entry) :
    (taggedDocuments listing.field listing.id entries).Returns fun documents =>
      ∀ document ∈ documents, document.field listing.field = idValue listing.id := by
  induction entries with
  | nil => exact List.forall_mem_nil _
  | cons entry entries ih =>
      obtain ⟨hentry, hrest⟩ := List.forall_mem_cons.mp hentries
      refine Program.Returns.bind (Program.returns_true _) fun now _ => ?_
      refine Program.Returns.bind (ih hrest) fun documents hdocuments => ?_
      exact List.forall_mem_cons.mpr ⟨Listing.field_taggedDocument hentry now, hdocuments⟩

/-- Storing a list touches the list. -/
theorem touches_store {entries : List Document}
    (hentries : ∀ entry ∈ entries, listing.entryType.IsInstance entry) :
    (listing.store redis entries).Issues (TouchesOnly (· = listing)) := by
  refine Program.Issues.bind (Program.Issues.bind (Program.Issues.perform ?_) fun _ => ?_)
    fun _ => ?_
  · exact ⟨listing, rfl, rfl, rfl, rfl⟩
  · split
    · trivial
    · exact Program.Issues.bind_of_returns (issues_taggedDocuments trivial entries)
        (returns_taggedDocuments hentries) fun documents hdocuments =>
          Program.Issues.perform ⟨listing, rfl, rfl, hdocuments⟩
  · refine issues_setManyCached redis fun item hitem => ?_
    rw [List.mem_singleton.mp hitem]
    exact ⟨listing, rfl, rfl⟩

/-- **A read touches its list.** -/
theorem touches_read (fetch : Fetch listing.entryType) :
    (listing.read redis fetch).Issues (TouchesOnly (· = listing)) := by
  rw [Listing.read_eq]
  refine Program.Issues.bind (Listing.issues_look trivial) fun found => ?_
  cases found with
  | some entries => trivial
  | none =>
      have hfetch : fetch.program.Issues (TouchesOnly (· = listing)) := by
        refine fetch.requests.mono fun op hget => ?_
        cases op <;> trivial
      refine Program.Issues.bind_of_returns hfetch fetch.instances fun entries hentries => ?_
      exact Program.Issues.bind (touches_store hentries) fun _ => trivial

theorem touches_invalidate (listing : Listing) (redis : Bool) :
    (listing.invalidate redis).Issues (TouchesOnly (· = listing)) := by
  refine issues_invalidateList ⟨listing, rfl, rfl, rfl, rfl⟩ redis fun key hkey => ?_
  rw [List.mem_singleton.mp hkey]
  exact ⟨listing, rfl, rfl⟩

/-- Invalidating lists touches these lists. -/
theorem touches_invalidateAll {invalidate : Source → Code Unit} {id : Option ℤ}
    (lists : List Listed) (hinvalidate : ∀ listed ∈ lists,
      (Listing.mk listed id).invalidate redis = invalidate listed.source)
    (htouched : ∀ listed ∈ lists, touched ⟨listed, id⟩) :
    (invalidateAll invalidate (lists.map Listed.source)).Issues (TouchesOnly touched) := by
  refine issues_invalidateAll _ fun source hsource => ?_
  obtain ⟨listed, hlisted, rfl⟩ := List.mem_map.mp hsource
  rw [← hinvalidate listed hlisted]
  exact (touches_invalidate _ redis).mono fun op => TouchesOnly.mono fun _ heq =>
    heq ▸ htouched listed hlisted

theorem touches_invalidatePersonal (characterId : ℤ)
    (htouched : ∀ listed ∈ Listed.personal, touched ⟨listed, some characterId⟩) :
    (invalidateAll (fun source => invalidateCharacterList redis source.collectionName
      source.cacheKeyPrefix characterId) personalSources).Issues (TouchesOnly touched) := by
  rw [← Listed.map_source_personal]
  exact touches_invalidateAll Listed.personal
    (fun listed hlisted => Listing.invalidate_personal hlisted redis characterId) htouched

theorem touches_invalidateCorp (corporationId : Option ℤ)
    (htouched : ∀ listed ∈ Listed.corp, touched ⟨listed, corporationId⟩) :
    (invalidateAll (fun source => invalidateCorporationList redis source.collectionName
      source.cacheKeyPrefix corporationId) corpSources).Issues (TouchesOnly touched) := by
  rw [← Listed.map_source_corp]
  exact touches_invalidateAll Listed.corp
    (fun listed hlisted => Listing.invalidate_corp hlisted redis corporationId) htouched

theorem touches_getCharacterList (kind : Kind) (accessToken : String) (characterId : ℤ)
    (htouched : touched ⟨kind.listed, some characterId⟩) :
    (kind.getCharacterList redis accessToken characterId).Issues (TouchesOnly touched) := by
  rw [getCharacterList_eq_read]
  exact (touches_read _).mono fun op => TouchesOnly.mono fun _ heq => heq ▸ htouched

theorem touches_getCorporationList (kind : Kind) (accessToken : String)
    (corporationId : Option ℤ) (htouched : touched ⟨kind.corpListed, corporationId⟩) :
    (kind.getCorporationList redis accessToken corporationId).Issues (TouchesOnly touched) := by
  rw [getCorporationList_eq_read]
  refine Program.Issues.tryCatch (Program.Issues.bind ?_ fun _ => trivial) fun error => ?_
  · exact (touches_read _).mono fun op => TouchesOnly.mono fun _ heq => heq ▸ htouched
  · split <;> trivial

theorem touches_refreshCharacterData (character : Auth.CharacterDocument) :
    (refreshCharacterData redis character).Issues (TouchesOnly (Refreshes character)) := by
  refine Program.Issues.bind (touches_invalidatePersonal _ fun listed hlisted =>
    .personal hlisted) fun _ => ?_
  split
  · rename_i hconnected
    exact touches_invalidateCorp _ fun listed hlisted => .corp hlisted hconnected
  · trivial

theorem touches_getMergedList (kind : Kind) (character : Auth.CharacterDocument) :
    (kind.getMergedList redis character).Issues
      (TouchesOnly (Touches (.mergedList kind character))) := by
  refine Program.Issues.bind (touches_getCharacterList _ _ _ .mergedPersonal) fun personal => ?_
  unfold mergeCorp
  split
  · trivial
  · rename_i hconnected
    refine Program.Issues.bind (touches_getCorporationList _ _ _ (.mergedCorp ?_)) fun found => ?_
    · simpa using hconnected
    · cases found <;> trivial

/-- **The calls of an operation.** -/
theorem issues_operation (operation : Operation) :
    ((operating redis).body operation).Issues
      (ServesOnly (Touches operation) (Forgets operation)) := by
  cases operation with
  | characterList kind accessToken characterId =>
      exact Program.Issues.bind (Program.Issues.left
        (touches_getCharacterList kind _ _ .characterList)) fun _ => trivial
  | characterColonies accessToken characterId =>
      refine Program.Issues.bind (Program.Issues.left ?_) fun _ => trivial
      rw [getCharacterColonies_eq_read]
      exact (touches_read _).mono fun op =>
        TouchesOnly.mono fun _ heq => heq ▸ .characterColonies
  | corporationList kind accessToken corporationId =>
      exact Program.Issues.bind (Program.Issues.left
        (touches_getCorporationList kind _ _ .corporationList)) fun _ => trivial
  | mergedList kind character =>
      exact Program.Issues.bind (Program.Issues.left
        (touches_getMergedList kind character)) fun _ => trivial
  | refresh character =>
      refine Program.Issues.bind (Program.Issues.left ?_) fun _ => trivial
      -- the lists of a refresh depend on the corporation that is connected
      exact (touches_refreshCharacterData character).mono fun op =>
        TouchesOnly.mono fun _ hrefreshes => .refresh hrefreshes
  | clear character =>
      refine Program.Issues.bind (Program.Issues.bind (Program.Issues.left ?_) fun _ => ?_)
        fun _ => trivial
      · exact touches_invalidatePersonal _ fun listed hlisted => .clear hlisted
      · exact Program.Issues.right (Program.Issues.perform rfl)

end Issues

/-! ## What a run changes -/

/-- What is different belongs to a touched list, a forgotten character or an expired key. -/
structure ChangesOnly (touched : Listing → Prop) (forgotten : ℤ → Prop) (expired : String → Prop)
    (before after : ServiceWorld) : Prop where
  documents : ∀ collectionName (keep : Document → Bool),
    (∀ listing, touched listing → listing.collectionName = collectionName →
      ∀ document, keep document = true → document.field listing.field ≠ idValue listing.id) →
    (after.lists.mirror collectionName).filter keep =
      (before.lists.mirror collectionName).filter keep
  keys : ∀ key, (∀ listing, touched listing → key ≠ listing.key) → ¬ expired key →
    after.lists.cache key = before.lists.cache key
  characters : ∀ characterId, ¬ forgotten characterId →
    after.accounts.characters characterId = before.accounts.characters characterId

section Frames

variable {touched : Listing → Prop} {forgotten : ℤ → Prop} {world after : World}

theorem setCache_of_notMem (world : World) {items : List (String × Value)} {key : String}
    (hkey : ∀ item ∈ items, key ≠ item.1) : (world.setCache items).cache key = world.cache key := by
  simp only [World.setCache]
  generalize world.cache = cache
  induction items generalizing cache with
  | nil => rfl
  | cons item items ih =>
      obtain ⟨hitem, hitems⟩ := List.forall_mem_cons.mp hkey
      rw [List.foldl_cons, ih hitems, Function.update_of_ne hitem]

/-- A call leaves the keys of other lists. -/
theorem cache_of_touchesOnly {op : Op} {choice : Choice} {answer : Except CacheError op.Answer}
    (htouches : TouchesOnly touched op) (hrespond : respond op choice world = some (answer, after))
    {key : String} (hkey : ∀ listing, touched listing → key ≠ listing.key) :
    after.cache key = world.cache key := by
  cases op <;> cases choice <;>
    simp only [respond, Option.some.injEq, Prod.mk.injEq, reduceCtorEq] at hrespond
  case setMany.redis items ttlSeconds delivery =>
    obtain ⟨-, rfl⟩ := hrespond
    -- only keys of touched lists are set
    refine setCache_of_notMem world fun item hitem => ?_
    obtain ⟨listing, hlisting, heq⟩ := htouches item (Delivery.mem_of_mem_parts hitem)
    rw [heq]
    exact hkey listing hlisting
  case delete.redis keys delivery =>
    obtain ⟨-, rfl⟩ := hrespond
    have hmem : key ∉ delivery.parts keys := by
      intro hpart
      obtain ⟨listing, hlisting, heq⟩ := htouches key (Delivery.mem_of_mem_parts hpart)
      exact hkey listing hlisting heq
    rw [cache_deleteCache, if_neg hmem]
  all_goals
    obtain ⟨-, rfl⟩ := hrespond
    rfl

/-- A call leaves the documents of other lists. -/
theorem mirror_of_touchesOnly {op : Op} {choice : Choice} {answer : Except CacheError op.Answer}
    (htouches : TouchesOnly touched op) (hrespond : respond op choice world = some (answer, after))
    {collectionName : String} {keep : Document → Bool}
    (hkeep : ∀ listing, touched listing → listing.collectionName = collectionName →
      ∀ document, keep document = true → document.field listing.field ≠ idValue listing.id) :
    (after.mirror collectionName).filter keep = (world.mirror collectionName).filter keep := by
  cases op <;> cases choice <;>
    simp only [respond, Option.some.injEq, Prod.mk.injEq, reduceCtorEq] at hrespond
  case deleteMany.database name field id delivery =>
    obtain ⟨-, rfl⟩ := hrespond
    obtain ⟨listing, hlisting, rfl, rfl, rfl⟩ := htouches
    rcases eq_or_ne collectionName listing.collectionName with rfl | hne
    · exact World.filter_mirror_deleteMany _ _ _ _ _ (hkeep listing hlisting rfl)
    · rw [World.mirror_deleteMany_of_ne _ _ _ _ _ hne]
  case insertMany.database name documents delivery =>
    obtain ⟨-, rfl⟩ := hrespond
    obtain ⟨listing, hlisting, rfl, htagged⟩ := htouches
    rcases eq_or_ne collectionName listing.collectionName with rfl | hne
    · -- what is inserted has the tag of a touched list, and is not kept
      have hnone : (delivery.parts documents).filter keep = [] := by
        refine List.filter_eq_nil_iff.mpr fun document hdocument hkept => ?_
        exact hkeep listing hlisting rfl document hkept
          (htagged document (Delivery.mem_of_mem_parts hdocument))
      rw [World.mirror_insertMany_self, List.filter_append, hnone, List.append_nil]
    · rw [World.mirror_insertMany_of_ne _ _ _ hne]
  all_goals
    obtain ⟨-, rfl⟩ := hrespond
    rfl

end Frames

section Runs

variable {redis : Bool} {touched : Listing → Prop} {forgotten : ℤ → Prop}
  {events : List OperationEvent}

/-- A view that neither the calls for touched lists, nor the deletion of a forgotten character,
nor a key that expires can change. -/
theorem frames_operating {σ : Type} (view : ServiceWorld → σ)
    (htouched : ∀ operation, .start operation ∈ events →
      ∀ listing, Touches operation listing → touched listing)
    (hforgotten : ∀ operation, .start operation ∈ events →
      ∀ characterId, Forgets operation characterId → forgotten characterId)
    (hlists : ∀ {op choice answer lists} {world : ServiceWorld}, TouchesOnly touched op →
      respond op choice world.lists = some (answer, lists) →
      view { world with lists } = view world)
    (hcharacters : ∀ {characterId} (delivery) (world : ServiceWorld), forgotten characterId →
      view { world with accounts :=
        world.accounts.carryOut (.deleteCharacter characterId) delivery } = view world)
    (htick : ∀ key, .tick (.expire key) ∈ events → ∀ world : ServiceWorld,
      view { world with lists := world.lists.deleteCache [key] } = view world) :
    (operating redis).Frames (ServesOnly touched forgotten) view events where
  body operation hoperation := by
    refine (issues_operation operation).mono fun op hserves => ?_
    rcases op with op | op
    · exact TouchesOnly.mono (htouched operation hoperation) hserves
    · cases op with
      | deleteCharacter characterId => exact hforgotten operation hoperation characterId hserves
      | _ => exact hserves
  enter henter := by rw [Option.some.inj henter]
  respond {_ op choice world answer later} hserves hrespond := by
    rcases op with op | op
    · -- the calls of the lists, and those of the accounts
      obtain ⟨_, _, lists, -, hcall, -, rfl⟩ := respond_left hrespond
      exact hlists hserves hcall
    · obtain ⟨choice, _, accounts, -, hcall, -, rfl⟩ := respond_right hrespond
      cases op with
      | deleteCharacter characterId =>
          cases choice with
          | database delivery =>
              simp only [Auth.respond, Option.some.injEq, Prod.mk.injEq] at hcall
              obtain ⟨-, rfl⟩ := hcall
              exact hcharacters delivery world hserves
          | _ => cases hcall
      | _ => exact absurd hserves not_false
  crash _ _ := rfl
  tick tick htickMem world later hlater := by
    obtain ⟨key⟩ := tick
    rw [← Option.some.inj hlater]
    exact htick key htickMem world

/-- **What a run changes** belongs to what its operations touch. -/
theorem changes_only {world : ServiceWorld} {later : OperationConfig}
    (hrun : (operating redis).run (Config.initial _ _ _ _ world) events = some later)
    (htouched : ∀ operation, .start operation ∈ events →
      ∀ listing, Touches operation listing → touched listing)
    (hforgotten : ∀ operation, .start operation ∈ events →
      ∀ characterId, Forgets operation characterId → forgotten characterId) :
    ChangesOnly touched forgotten (fun key => .tick (.expire key) ∈ events) world
      later.moment.world where
  documents collectionName keep hkeep := by
    refine (frames_operating (fun world => (world.lists.mirror collectionName).filter keep)
      htouched hforgotten ?_ ?_ ?_).run .initial hrun
    · exact fun htouches hrespond => mirror_of_touchesOnly htouches hrespond hkeep
    · exact fun _ _ _ => rfl
    · exact fun _ _ _ => rfl
  keys key hkey hexpired := by
    refine (frames_operating (fun world => world.lists.cache key) htouched hforgotten
      ?_ ?_ ?_).run .initial hrun
    · exact fun htouches hrespond => cache_of_touchesOnly htouches hrespond hkey
    · exact fun _ _ _ => rfl
    · intro other hevent world
      -- only an expiry of the key itself can remove it
      have hmem : key ∉ [other] := by
        intro hother
        exact hexpired (List.mem_singleton.mp hother ▸ hevent)
      exact (cache_deleteCache world.lists [other] key).trans (if_neg hmem)
  characters characterId hkept := by
    refine (frames_operating (fun world => world.accounts.characters characterId)
      htouched hforgotten ?_ ?_ ?_).run .initial hrun
    · exact fun _ _ => rfl
    · intro other delivery world hother
      -- the character that is deleted is another one
      have hne : characterId ≠ other := fun heq => hkept (heq ▸ hother)
      show (world.accounts.carryOut _ delivery).characters characterId = _
      unfold Auth.World.carryOut
      split
      · rfl
      · exact Function.update_of_ne hne _ _
    · exact fun _ _ _ => rfl

end Runs

/-! ## Operations on behalf of a character -/

/-- The operation is one of the character, or of its corporation. -/
def OnBehalf (characterId : ℤ) (corporationId : Option ℤ) : Operation → Prop
  | .characterList _ _ id | .characterColonies _ id => id = characterId
  | .corporationList _ _ id => id = corporationId
  | .mergedList _ character | .refresh character | .clear character =>
      character.characterId = characterId ∧ character.corporationId = corporationId

/-- The operation gets to the lists of the corporation. -/
def ReachesCorporation : Operation → Prop
  | .corporationList .. => True
  | .mergedList _ character | .refresh character => corpDataConnected character = true
  | _ => False

/-- The list is a personal one of the character. -/
def OfCharacter (characterId : ℤ) (listing : Listing) : Prop :=
  listing.listed ∈ Listed.personal ∧ listing.id = some characterId

/-- The list is one of the corporation. -/
def OfCorporation (corporationId : Option ℤ) (listing : Listing) : Prop :=
  listing.listed ∈ Listed.corp ∧ listing.id = corporationId

/-- An operation touches the lists of its character, and those of its corporation if it gets
to them. -/
theorem owned_of_touches {characterId : ℤ} {corporationId : Option ℤ} {operation : Operation}
    {listing : Listing} (hbehalf : OnBehalf characterId corporationId operation)
    (htouches : Touches operation listing) :
    OfCharacter characterId listing ∨
      ReachesCorporation operation ∧ OfCorporation corporationId listing := by
  have hpersonal : ∀ kind : Kind, kind.listed ∈ Listed.personal := by
    intro kind
    cases kind <;> decide
  have hcorp : ∀ kind : Kind, kind.corpListed ∈ Listed.corp := by
    intro kind
    cases kind <;> decide
  cases htouches with
  | characterList => exact .inl ⟨hpersonal _, congrArg some hbehalf⟩
  | characterColonies => exact .inl ⟨by simp [Listed.personal], congrArg some hbehalf⟩
  | corporationList => exact .inr ⟨trivial, hcorp _, hbehalf⟩
  | mergedPersonal => exact .inl ⟨hpersonal _, congrArg some hbehalf.1⟩
  | mergedCorp hconnected => exact .inr ⟨hconnected, hcorp _, hbehalf.2⟩
  | refresh hrefreshes =>
      cases hrefreshes with
      | personal hlisted => exact .inl ⟨hlisted, congrArg some hbehalf.1⟩
      | corp hlisted hconnected => exact .inr ⟨hconnected, hlisted, hbehalf.2⟩
  | clear hlisted => exact .inl ⟨hlisted, congrArg some hbehalf.1⟩

/-- What operations on behalf of a character leave as it is. -/
structure Isolated (characterId : ℤ) (corporationId : Option ℤ) (events : List OperationEvent)
    (before after : ServiceWorld) : Prop where
  /-- Everything but the lists of the character and its corporation, and the character. -/
  others : ChangesOnly
    (fun listing => OfCharacter characterId listing ∨ OfCorporation corporationId listing)
    (· = characterId) (fun key => .tick (.expire key) ∈ events) before after
  /-- The lists of the corporation too, if no operation gets to them. -/
  unreached : (∀ operation, .start operation ∈ events → ¬ ReachesCorporation operation) →
    ChangesOnly (OfCharacter characterId) (· = characterId)
      (fun key => .tick (.expire key) ∈ events) before after

/-- No two lists share a key, and no list has a key of reference data. -/
structure KeysDiffer : Prop where
  lists : ∀ listing other : Listing, listing ≠ other → listing.key ≠ other.key
  reference : ∀ (listing : Listing) (kind : Reference.Kind) (value : ℤ),
    listing.key ≠ kind.key value

theorem keysDiffer : KeysDiffer where
  lists listing other hne heq := hne (Listing.key_injective heq)
  reference listing kind value heq := by
    have htext : cacheKey listing.listed.source.cacheKeyPrefix listing.id =
      cacheKey kind.keyPrefix (some value) := heq
    obtain ⟨hinit, -⟩ := cacheKey_inj listing.listed.colon_notMem kind.colon_notMem htext
    revert hinit
    generalize listing.listed = listed
    cases listed <;> cases kind <;> decide

/-- **Operations are isolated per owner.**  However the operations on behalf of a character
interleave and fail, they only write and delete documents and keys of its personal lists and
of the lists of its corporation, and the character; the latter lists only through operations
that get to them.  The keys are those of no other list and of no reference data. -/
theorem operations_isolated {redis : Bool} {characterId : ℤ} {corporationId : Option ℤ}
    {events : List OperationEvent} {world : ServiceWorld} {later : OperationConfig}
    (hrun : (operating redis).run (Config.initial _ _ _ _ world) events = some later)
    (hbehalf : ∀ operation, .start operation ∈ events →
      OnBehalf characterId corporationId operation) :
    Isolated characterId corporationId events world later.moment.world ∧ KeysDiffer := by
  have hforgotten : ∀ operation, .start operation ∈ events →
      ∀ id, Forgets operation id → id = characterId := by
    intro operation hoperation id hforgets
    cases operation with
    | clear character => exact hforgets.symm.trans (hbehalf _ hoperation).1
    | _ => exact absurd hforgets not_false
  refine ⟨⟨?_, fun hunreached => ?_⟩, keysDiffer⟩
  · refine changes_only hrun (fun operation hoperation listing htouches => ?_) hforgotten
    exact (owned_of_touches (hbehalf operation hoperation) htouches).imp_right And.right
  · refine changes_only hrun (fun operation hoperation listing htouches => ?_) hforgotten
    exact (owned_of_touches (hbehalf operation hoperation) htouches).resolve_right fun hreaches =>
      hunreached operation hoperation hreaches.1

/-- The assets of a character are read and stored, while a refresh deletes them and a key
expires. -/
def isolatedEvents : List OperationEvent :=
  [.start (.characterList .assets "token" 7), .start (.refresh samplePilot),
    .call 0 (.inl (.redis .done)), .call 1 (.inl (.database .done)),
    .call 0 (.inl (.esi (.ok ⟨[sampleAsset], 1⟩))), .call 0 (.inl (.database .done)),
    .tick (.expire "sde_type:34"), .call 0 (.inl (.utcnow 5)), .call 0 (.inl (.database .done)),
    .call 1 (.inl (.redis .done)), .call 0 (.inl (.redis .done))]

theorem operations_isolated_refresh :
    ∃ later, (operating true).run (Config.initial _ _ _ _ (serviceWorld emptyWorld))
        isolatedEvents = some later ∧
      (later.moment.world.lists.cache "character_assets:7").isSome = true ∧
      Isolated 7 none isolatedEvents (serviceWorld emptyWorld) later.moment.world ∧
      KeysDiffer := by
  obtain ⟨later, hrun, hstored⟩ : ∃ later,
      (operating true).run (Config.initial _ _ _ _ (serviceWorld emptyWorld)) isolatedEvents =
        some later ∧ (later.moment.world.lists.cache "character_assets:7").isSome = true :=
    ⟨_, rfl, rfl⟩
  refine ⟨later, hrun, hstored, operations_isolated hrun fun operation hoperation => ?_⟩
  have hstarts : operation = .characterList .assets "token" 7 ∨
      operation = .refresh samplePilot := by
    simpa [isolatedEvents] using hoperation
  rcases hstarts with rfl | rfl
  · rfl
  · exact ⟨rfl, rfl⟩

end EveBuild.Cache
