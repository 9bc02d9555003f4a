import EveBuild.Cache.Calls

/-!
# The lists of all sources

A `Listing` is the list of one of the seven sources for a character or a corporation.  It
has a key in Redis and documents in MongoDB, which are those of its collection that are
tagged with its identifier.  `Listing.read` is `cached_character_list` or
`cached_corporation_list` with any fetch, and each list of `character_data` is read so.

Different listings share neither a key nor a document.
-/

namespace EveBuild.Cache

open Effect

/-! ## Sources -/

/-- The sources, personal ones and those of corporations. -/
inductive Listed
  | assets
  | blueprints
  | industryJobs
  | colonies
  | corpAssets
  | corpBlueprints
  | corpIndustryJobs
deriving DecidableEq

namespace Listed

def source : Listed → Source
  | assets => assetsSource
  | blueprints => blueprintsSource
  | industryJobs => industryJobsSource
  | colonies => coloniesSource
  | corpAssets => corpAssetsSource
  | corpBlueprints => corpBlueprintsSource
  | corpIndustryJobs => corpIndustryJobsSource

def entryType : Listed → EntryType
  | assets | corpAssets => assetEntry
  | blueprints | corpBlueprints => blueprintEntry
  | industryJobs | corpIndustryJobs => industryJobEntry
  | colonies => colonyRecord

def ttlSeconds : Listed → ℕ
  | assets | corpAssets => assetsCacheTtlSeconds
  | blueprints | corpBlueprints => blueprintsCacheTtlSeconds
  | industryJobs | corpIndustryJobs => industryJobsCacheTtlSeconds
  | colonies => coloniesCacheTtlSeconds

/-- The field that the documents are tagged with. -/
def field : Listed → String
  | assets | blueprints | industryJobs | colonies => "character_id"
  | corpAssets | corpBlueprints | corpIndustryJobs => "corporation_id"

def personal : List Listed := [assets, blueprints, industryJobs, colonies]

def corp : List Listed := [corpAssets, corpBlueprints, corpIndustryJobs]

theorem map_source_personal : personal.map source = personalSources := rfl

theorem map_source_corp : corp.map source = corpSources := rfl

theorem field_of_mem_personal {listed : Listed} (hlisted : listed ∈ personal) :
    listed.field = "character_id" := by
  revert listed
  decide

theorem field_of_mem_corp {listed : Listed} (hlisted : listed ∈ corp) :
    listed.field = "corporation_id" := by
  revert listed
  decide

theorem colon_notMem (listed : Listed) : ':' ∉ listed.source.cacheKeyPrefix.toList := by
  cases listed <;> decide

theorem cacheKeyPrefix_injective {listed other : Listed}
    (heq : listed.source.cacheKeyPrefix = other.source.cacheKeyPrefix) : listed = other := by
  revert heq
  cases listed <;> cases other <;> decide

theorem collectionName_injective {listed other : Listed}
    (heq : listed.source.collectionName = other.source.collectionName) : listed = other := by
  revert heq
  cases listed <;> cases other <;> decide

theorem field_ne (listed : Listed) : listed.field ≠ "cached_at" := by
  cases listed <;> decide

/-- An entry has no field of the document around it. -/
theorem names_notMem (listed : Listed) :
    ∀ name ∈ listed.entryType.names, name ∉ [listed.field, "cached_at", "_id"] := by
  cases listed <;> decide

end Listed

/-! ## Lists -/

/-- The list of a source for a character or a corporation. -/
structure Listing where
  listed : Listed
  id : Option ℤ
deriving DecidableEq

/-- A request to ESI. -/
def IsGet : Op → Prop
  | .get .. => True
  | _ => False

/-- The call changes nothing. -/
def Reads : Op → Prop
  | .mget _ | .utcnow | .get .. => True
  | _ => False

/-- A fetch of a list: it makes requests to ESI, and returns instances. -/
structure Fetch (entryType : EntryType) where
  program : Code (List Document)
  requests : program.Issues IsGet
  instances : program.Returns fun entries => ∀ entry ∈ entries, entryType.IsInstance entry

namespace Listing

variable (listing : Listing)

def key : String := cacheKey listing.listed.source.cacheKeyPrefix listing.id

abbrev collectionName : String := listing.listed.source.collectionName

abbrev field : String := listing.listed.field

abbrev entryType : EntryType := listing.listed.entryType

/-- `cached_character_list` and `cached_corporation_list`. -/
def read (redis : Bool) (fetch : Fetch listing.entryType) : Code (List Document) :=
  cachedList listing.field redis listing.collectionName listing.listed.source.cacheKeyPrefix
    listing.id listing.listed.ttlSeconds listing.entryType fetch.program

/-- `invalidate_character_list` and `invalidate_corporation_list`. -/
def invalidate (redis : Bool) : Code Unit :=
  invalidateList listing.field redis listing.collectionName listing.listed.source.cacheKeyPrefix
    listing.id

theorem invalidate_personal {listed : Listed} (hlisted : listed ∈ Listed.personal) (redis : Bool)
    (characterId : ℤ) :
    (Listing.mk listed (some characterId)).invalidate redis =
      invalidateCharacterList redis listed.source.collectionName listed.source.cacheKeyPrefix
        characterId := by
  rw [invalidate, field, Listed.field_of_mem_personal hlisted]
  rfl

theorem invalidate_corp {listed : Listed} (hlisted : listed ∈ Listed.corp) (redis : Bool)
    (corporationId : Option ℤ) :
    (Listing.mk listed corporationId).invalidate redis =
      invalidateCorporationList redis listed.source.collectionName listed.source.cacheKeyPrefix
        corporationId := by
  rw [invalidate, field, Listed.field_of_mem_corp hlisted]
  rfl

theorem key_injective : Function.Injective key := by
  rintro ⟨listed, id⟩ ⟨other, otherId⟩ heq
  obtain ⟨hsource, rfl⟩ := cacheKey_inj listed.colon_notMem other.colon_notMem heq
  obtain rfl := Listed.cacheKeyPrefix_injective hsource
  rfl

end Listing

/-! ## The lists of `character_data` -/

theorem returns_parseEntries (entryType : EntryType) (rawEntries : List Document) :
    (parseEntries entryType rawEntries).Returns fun entries =>
      ∀ entry ∈ entries, entryType.IsInstance entry := by
  unfold parseEntries
  split
  · rename_i entries hentries
    intro entry hentry
    obtain ⟨raw, _, hraw⟩ := exists_of_mem_mapM hentries hentry
    exact EntryType.isInstance_of_ofRaw hraw
  · trivial

/-- A list that comes in pages. -/
def Fetch.paged (endpoint : Endpoint) (entryType : EntryType) (id : Option ℤ)
    (accessToken : String) : Fetch entryType where
  program := getPagedList endpoint entryType id accessToken
  requests := issues_getPagedList (fun _ => trivial) entryType
  instances := Program.Returns.bind (Program.returns_true _) fun rawEntries _ =>
    returns_parseEntries entryType rawEntries

/-- A list that comes at once. -/
def Fetch.unpaged (endpoint : Endpoint) (entryType : EntryType) (id : Option ℤ)
    (accessToken : String) : Fetch entryType where
  program := getUnpagedList endpoint entryType id accessToken
  requests := issues_getUnpagedList (fun _ => trivial) entryType
  instances := Program.Returns.bind (Program.returns_true _) fun response _ =>
    returns_parseEntries entryType response.entries

theorem returns_fetchColonyDetails (accessToken : String) (characterId : ℤ)
    (summaries : List Document) :
    (fetchColonyDetails accessToken characterId summaries).Returns fun entries =>
      ∀ entry ∈ entries, colonyRecord.IsInstance entry := by
  induction summaries with
  | nil => exact List.forall_mem_nil _
  | cons summary summaries ih =>
      refine Program.Returns.bind (Program.returns_true _) fun data _ => ?_
      refine Program.Returns.bind ih fun records hrecords => ?_
      exact List.forall_mem_cons.mpr ⟨⟨_, rfl⟩, hrecords⟩

/-- The colonies, with their details. -/
def Fetch.colonies (accessToken : String) (characterId : ℤ) : Fetch colonyRecord where
  program := fetchColonyRecords accessToken characterId
  requests := issues_fetchColonyRecords fun _ _ => trivial
  instances := Program.Returns.bind (Program.returns_true _) fun summaries _ =>
    returns_fetchColonyDetails accessToken characterId summaries

namespace Kind

def listed : Kind → Listed
  | assets => .assets
  | blueprints => .blueprints
  | industryJobs => .industryJobs

def corpListed : Kind → Listed
  | assets => .corpAssets
  | blueprints => .corpBlueprints
  | industryJobs => .corpIndustryJobs

/-- The fetch of a character's list. -/
def fetch (accessToken : String) (characterId : ℤ) : (kind : Kind) → Fetch kind.listed.entryType
  | assets => .paged .charactersAssets assetEntry (some characterId) accessToken
  | blueprints => .paged .charactersBlueprints blueprintEntry (some characterId) accessToken
  | industryJobs => .unpaged .charactersIndustryJobs industryJobEntry (some characterId) accessToken

/-- The fetch of a corporation's list. -/
def corpFetch (accessToken : String) (corporationId : Option ℤ) :
    (kind : Kind) → Fetch kind.corpListed.entryType
  | assets => .paged .corporationsAssets assetEntry corporationId accessToken
  | blueprints => .paged .corporationsBlueprints blueprintEntry corporationId accessToken
  | industryJobs => .paged .corporationsIndustryJobs industryJobEntry corporationId accessToken

end Kind

section Reads

variable (redis : Bool) (accessToken : String)

theorem getCharacterList_eq_read (characterId : ℤ) (kind : Kind) :
    kind.getCharacterList redis accessToken characterId =
      (Listing.mk kind.listed (some characterId)).read redis
        (kind.fetch accessToken characterId) := by
  cases kind <;> rfl

theorem getCharacterColonies_eq_read (characterId : ℤ) :
    getCharacterColonies redis accessToken characterId =
      (Listing.mk .colonies (some characterId)).read redis (.colonies accessToken characterId) :=
  rfl

/-- A corporation's list is read so too; what is made of an error of ESI comes after. -/
theorem getCorporationList_eq_read (corporationId : Option ℤ) (kind : Kind) :
    kind.getCorporationList redis accessToken corporationId =
      tryCatch (do
        let entries ← (Listing.mk kind.corpListed corporationId).read redis
          (kind.corpFetch accessToken corporationId)
        return some entries) fun error =>
          if error = .httpStatus 401 ∨ error = .httpStatus 403 then return none
          else throw error := by
  cases kind <;> rfl

end Reads

/-! ## Documents of a list -/

/-- The value of an identifier determines it. -/
theorem idValue_injective : Function.Injective idValue := by
  rintro (_ | id) (_ | other) heq
  · rfl
  · cases heq
  · cases heq
  · simpa [idValue] using heq

/-- What an entry has been stored as, without the tag, the time and the identifier of the
document. -/
def stripped (field : String) (document : Document) : Document :=
  document.without [field, "cached_at", "_id"]

namespace Listing

variable (listing : Listing)

/-- The documents of the list. -/
def documents (world : World) : List Document :=
  (world.mirror listing.collectionName).filter fun document =>
    document.field listing.field = idValue listing.id

/-- The entries that the documents have been made of. -/
def mirrored (world : World) : List Document :=
  (listing.documents world).map (stripped listing.field)

variable {listing}

/-- The entry of a list as a document. -/
theorem entries_taggedDocument {entry : Document} (hentry : listing.entryType.IsInstance entry)
    (now : ℤ) :
    (taggedDocument listing.field listing.id now entry).entries =
      (listing.field, idValue listing.id) :: ("cached_at", .date now) :: entry.entries := by
  obtain ⟨value, rfl⟩ := hentry
  have hnames := listing.listed.names_notMem
  have hnew : "cached_at" ∉ (Dict.single listing.field (idValue listing.id)).keys := by
    simpa [Dict.keys, Dict.single] using listing.listed.field_ne.symm
  have hhead := Dict.entries_set_of_notMem hnew (.date now)
  rw [taggedDocument, Dict.entries_foldl_set, hhead]
  · rfl
  · exact (listing.entryType.build value).nodup_keys
  · intro pair hpair
    have hname : pair.1 ∈ listing.entryType.names := by
      rw [← EntryType.keys_build value]
      exact Dict.mem_keys_of_mem hpair
    have hother := hnames pair.1 hname
    rw [Dict.keys, hhead]
    simp_all [Dict.single]

theorem field_taggedDocument {entry : Document} (hentry : listing.entryType.IsInstance entry)
    (now : ℤ) :
    (taggedDocument listing.field listing.id now entry).field listing.field =
      idValue listing.id := by
  refine Dict.getD_of_get? (Dict.get?_eq_some_iff.mpr ?_) _
  rw [entries_taggedDocument hentry]
  exact List.mem_cons_self ..

/-- **What a document has been made of** is found by taking off what it was given. -/
theorem stripped_taggedDocument {entry : Document} (hentry : listing.entryType.IsInstance entry)
    (now : ℤ) :
    stripped listing.field (taggedDocument listing.field listing.id now entry) = entry := by
  refine Dict.ext ?_
  rw [stripped, Dict.entries_without, entries_taggedDocument hentry]
  obtain ⟨value, rfl⟩ := hentry
  have hkeep : ∀ pair ∈ (listing.entryType.build value).entries,
      pair.1 ∉ [listing.field, "cached_at", "_id"] := by
    intro pair hpair
    refine listing.listed.names_notMem pair.1 ?_
    rw [← EntryType.keys_build value]
    exact Dict.mem_keys_of_mem hpair
  simpa using hkeep

/-- The documents of a list are tagged, and made of its entries. -/
structure Documents (listing : Listing) (entries documents : List Document) : Prop where
  tagged : ∀ document ∈ documents, document.field listing.field = idValue listing.id
  stripped : documents.map (Cache.stripped listing.field) = entries

theorem documents_cons {entry : Document} {entries documents : List Document} {now : ℤ}
    (hentry : listing.entryType.IsInstance entry)
    (hdocuments : listing.Documents entries documents) :
    listing.Documents (entry :: entries)
      (taggedDocument listing.field listing.id now entry :: documents) where
  tagged := List.forall_mem_cons.mpr ⟨field_taggedDocument hentry now, hdocuments.tagged⟩
  stripped := by rw [List.map_cons, stripped_taggedDocument hentry, hdocuments.stripped]

end Listing

/-! ## What calls do to the documents of a list -/

namespace World

variable (world : World) (collectionName field : String) (id : Option ℤ) (delivery : Delivery)

/-- Which documents of a collection are kept. -/
theorem exists_mirror_deleteMany :
    ∃ keep : Document × ℕ → Bool,
      (world.deleteMany collectionName field id delivery).mirror collectionName =
        ((world.mirror collectionName).zipIdx.filter keep).map Prod.fst ∧
      ∀ pair ∈ (world.mirror collectionName).zipIdx, pair.1.field field ≠ idValue id →
        keep pair = true := by
  refine ⟨_, Function.update_self .., fun pair hpair hne => ?_⟩
  obtain ⟨hlt, hget⟩ := List.mem_zipIdx' hpair
  refine decide_eq_true fun hmem => hne ?_
  have hmatch := (List.mem_filter.mp (Delivery.mem_of_mem_parts hmem)).2
  simpa [hlt, hget] using hmatch

theorem mirror_deleteMany_of_ne {other : String} (hne : other ≠ collectionName) :
    (world.deleteMany collectionName field id delivery).mirror other = world.mirror other :=
  Function.update_of_ne hne _ _

theorem mirror_deleteMany_sublist (other : String) :
    ((world.deleteMany collectionName field id delivery).mirror other).Sublist
      (world.mirror other) := by
  rcases eq_or_ne other collectionName with rfl | hne
  · obtain ⟨keep, hmirror, _⟩ := world.exists_mirror_deleteMany other field id delivery
    have hmap := (List.filter_sublist (p := keep) (l := (world.mirror other).zipIdx)).map Prod.fst
    rwa [List.zipIdx_map_fst, ← hmirror] at hmap
  · rw [mirror_deleteMany_of_ne _ _ _ _ _ hne]

/-- Documents that the query does not match are not touched. -/
theorem filter_mirror_deleteMany {keep : Document → Bool}
    (hkeep : ∀ document, keep document = true → document.field field ≠ idValue id) :
    ((world.deleteMany collectionName field id delivery).mirror collectionName).filter keep =
      (world.mirror collectionName).filter keep := by
  obtain ⟨kept, hmirror, hothers⟩ :=
    world.exists_mirror_deleteMany collectionName field id delivery
  conv_rhs => rw [← List.zipIdx_map_fst 0 (world.mirror collectionName), List.filter_map]
  rw [hmirror, List.filter_map, List.filter_filter]
  refine congrArg (List.map Prod.fst) (List.filter_congr fun pair hpair => ?_)
  cases hpairKeep : keep pair.1 with
  | false => simp [hpairKeep]
  | true => simp [hpairKeep, hothers pair hpair (hkeep _ hpairKeep)]

theorem mirror_insertMany_of_ne {other : String} (documents : List Document)
    (hne : other ≠ collectionName) :
    (world.insertMany collectionName documents).mirror other = world.mirror other :=
  Function.update_of_ne hne _ _

theorem mirror_insertMany_self (documents : List Document) :
    (world.insertMany collectionName documents).mirror collectionName =
      world.mirror collectionName ++ documents :=
  Function.update_self ..

end World

namespace Listing

variable {listing other : Listing} (world : World)

/-- Different lists of one source have different tags. -/
theorem idValue_ne (hne : listing ≠ other)
    (hcollection : listing.collectionName = other.collectionName) :
    listing.field = other.field ∧ idValue listing.id ≠ idValue other.id := by
  have hlisted := Listed.collectionName_injective hcollection
  refine ⟨congrArg Listed.field hlisted, fun hvalue => hne ?_⟩
  obtain ⟨listed, id⟩ := listing
  obtain rfl := hlisted
  obtain rfl := idValue_injective hvalue
  rfl

/-- What a deletion leaves of a list. -/
theorem documents_deleteMany (delivery : Delivery) :
    listing.documents
        (world.deleteMany listing.collectionName listing.field listing.id delivery) =
      delivery.rest (listing.documents world) := by
  have hall := List.zipIdx_map_fst 0 (world.mirror listing.collectionName)
  have hmatching : ((List.range (world.mirror listing.collectionName).length).filter fun index =>
      ((world.mirror listing.collectionName)[index]?.map fun document =>
        document.field listing.field) = some (idValue listing.id)) =
      ((world.mirror listing.collectionName).zipIdx.filter fun pair =>
        pair.1.field listing.field = idValue listing.id).map Prod.snd := by
    rw [List.range_eq_range', ← List.zipIdx_map_snd 0, List.filter_map]
    refine congrArg (List.map Prod.snd) (List.filter_congr fun pair hpair => ?_)
    simp [List.mem_zipIdx_iff_getElem?.mp hpair]
  have hnodup : (((world.mirror listing.collectionName).zipIdx.filter fun pair =>
      pair.1.field listing.field = idValue listing.id).map Prod.snd).Nodup := by
    rw [← hmatching]
    exact List.nodup_range.filter _
  rw [Listing.documents, World.deleteMany]
  dsimp only
  rw [Function.update_self, hmatching, List.filter_map, List.filter_comm]
  refine (Delivery.map_filter_notMem_parts delivery hnodup).trans (congrArg _ ?_)
  conv_rhs => rw [Listing.documents, ← hall, List.filter_map]
  rfl

theorem documents_deleteMany_done :
    listing.documents (world.deleteMany listing.collectionName listing.field listing.id .done) =
      [] := documents_deleteMany world .done

/-- Deleting documents of one list leaves those of the others. -/
theorem documents_deleteMany_of_ne (hne : listing ≠ other) (delivery : Delivery) :
    listing.documents (world.deleteMany other.collectionName other.field other.id delivery) =
      listing.documents world := by
  rcases eq_or_ne listing.collectionName other.collectionName with hcollection | hcollection
  · obtain ⟨hfield, htag⟩ := idValue_ne hne hcollection
    have hkeep : ∀ document : Document,
        decide (document.field listing.field = idValue listing.id) = true →
        document.field other.field ≠ idValue other.id := by
      intro document htagged
      rw [← hfield, of_decide_eq_true htagged]
      exact htag
    rw [documents, documents, hcollection]
    exact World.filter_mirror_deleteMany _ _ _ _ _ hkeep
  · rw [documents, World.mirror_deleteMany_of_ne _ _ _ _ _ hcollection, documents]

/-- Documents of the list are added to it. -/
theorem documents_insertMany {documents : List Document}
    (htagged : ∀ document ∈ documents, document.field listing.field = idValue listing.id) :
    listing.documents (world.insertMany listing.collectionName documents) =
      listing.documents world ++ documents := by
  rw [Listing.documents, World.mirror_insertMany_self, List.filter_append, Listing.documents]
  refine congrArg _ (List.filter_eq_self.mpr fun document hdocument => ?_)
  exact decide_eq_true (htagged document hdocument)

/-- Inserting documents of one list leaves those of the others. -/
theorem documents_insertMany_of_ne (hne : listing ≠ other) {documents : List Document}
    (htagged : ∀ document ∈ documents, document.field other.field = idValue other.id) :
    listing.documents (world.insertMany other.collectionName documents) =
      listing.documents world := by
  rcases eq_or_ne listing.collectionName other.collectionName with hcollection | hcollection
  · obtain ⟨hfield, htag⟩ := idValue_ne hne hcollection
    have hnone : documents.filter (fun document =>
        document.field listing.field = idValue listing.id) = [] := by
      refine List.filter_eq_nil_iff.mpr fun document hdocument => ?_
      rw [hfield, htagged document hdocument]
      simpa using htag.symm
    rw [Listing.documents, hcollection, World.mirror_insertMany_self, List.filter_append, hnone,
      List.append_nil, Listing.documents, hcollection]
  · rw [Listing.documents, World.mirror_insertMany_of_ne _ _ _ hcollection, Listing.documents]

end Listing

/-! ## Samples -/

def sampleListing : Listing := ⟨.assets, some 7⟩

def sampleFetch : Fetch sampleListing.entryType := Kind.assets.fetch "token" 7

end EveBuild.Cache
