import EveBuild.Reference.Lookups

/-!
# Documents of the SDE

Any number of lookups of `sde_types`, `sde_blueprints` and `sde_categories` at the same time,
with Redis or without it.  Each of them returns the documents that MongoDB has under the
identifiers that it was asked for, and nothing else (`redis_transparent`).  It raises an error
only if a query of its own has failed, and every key that it leaves in Redis is the document
of its identifier.
-/

namespace EveBuild.Reference

open Effect

/-- What a lookup of the SDE looks up. -/
def Start.documents? : Start → Option (Kind × IdSet)
  | .typeDocs ids => some (.sdeType, ids)
  | .blueprintDocs ids => some (.sdeBlueprint, ids)
  | .categoryDocs ids => some (.sdeCategory, ids)
  | _ => none

/-- Exactly the documents of the identifiers that are in the collection. -/
def Exact (documents : Collections) (kind : Kind) (ids : IdSet) (found : Dict ℤ Value) : Prop :=
  ∀ id, found.get? id =
    if id ∈ ids.val then (documents kind.store.collectionName id).map Document.toValue else none

/-- The lookup has returned its documents, or one of its queries has failed. -/
def ReturnsDocuments (documents : Collections) (start : Start)
    (outcome : Except ReferenceError Reply) (log : ReferenceLog) : Prop :=
  ∀ kind ids, start.documents? = some (kind, ids) →
    match outcome with
    | .ok reply => ∃ found, reply = .values found ∧ Exact documents kind ids found
    | .error error => error = .inr .database ∧ QueryFailed kind log

/-- The collections have the documents, and so has each key that is in Redis. -/
structure HoldsDocuments (documents : Collections) (world : World) : Prop where
  collections : ∀ kind : Kind, kind.OfSde →
    world.documents kind.store.collectionName = documents kind.store.collectionName
  keys : ∀ kind : Kind, kind.OfSde → ∀ id value, world.cache.cache (kind.key id) = some value →
    ∃ document, documents kind.store.collectionName id = some document ∧
      Document.ofValue? value = some document

section Documents

variable {esi : Path → ℤ → Document} {redis : Bool} {ttlSeconds : ℕ} {float : Number → Number}
  {documents began : Collections} {thread : ℕ} {start : Start} {moment : ReferenceMoment}

/-- What is held of the SDE is all there is to know. -/
theorem Held.exact {kind : Kind} {ids : IdSet} {held : Dict ℤ Value}
    (hheld : Held documents esi float began kind ids.val held) (hofSde : kind.OfSde) :
    Exact documents kind ids held := by
  intro id
  have hsource : source documents esi float kind id = _ := source_of_ofSde hofSde id
  rw [← hsource]
  cases hget : held.get? id with
  | some value =>
      obtain ⟨hid, hknown⟩ := hheld.known id value hget
      rw [if_pos hid, hknown]
  | none =>
      split_ifs with hid
      · exact ((hheld.unknown id hid (Dict.get?_eq_none_iff.mp hget)).2 hofSde).symm
      · rfl

/-- **One kind of documents.** -/
theorem safe_found {kind : Kind} {ids : IdSet} (hrequest : start.documents? = some (kind, ids))
    (hofSde : kind.OfSde) (hkept : Kept documents esi float Kind.OfSde moment)
    (hstage : Stage thread start began [] moment) :
    (contract documents esi float Kind.OfSde).Safe (looking esi redis ttlSeconds float)
      (lookingUp Kind.OfSde) thread
      (heldById redis ttlSeconds kind ids.val >>= fun found => return .values found)
      (fun outcome later => ∃ own, Stage thread start began own later ∧
        ReturnsDocuments documents start outcome own) moment := by
  refine (safe_heldById hkept hstage hofSde ids.val).bind hkept ?_ ?_
  · rintro found later _ ⟨own, hlater, _, hfound, _⟩
    rw [List.append_nil] at hlater
    refine safe_ret hlater fun final _ hfinal _ => ⟨own, hfinal, fun other otherIds hother => ?_⟩
    obtain ⟨rfl, rfl⟩ := Prod.mk.inj (Option.some.inj (hrequest.symm.trans hother))
    exact ⟨found, rfl, (hfound found rfl).exact hofSde⟩
  · rintro error later _ ⟨own, hlater, _, _, hraised⟩
    rw [List.append_nil] at hlater
    refine ⟨own, hlater, fun other otherIds hother => ?_⟩
    obtain ⟨rfl, rfl⟩ := Prod.mk.inj (Option.some.inj (hrequest.symm.trans hother))
    exact hraised error rfl

/-- **A lookup of the SDE.** -/
theorem safe_documents (hkinds : ∀ kind ∈ start.kinds, kind.OfSde)
    (hkept : Kept documents esi float Kind.OfSde moment)
    (hstage : Stage thread start began [] moment) :
    (contract documents esi float Kind.OfSde).Safe (looking esi redis ttlSeconds float)
      (lookingUp Kind.OfSde) thread ((looking esi redis ttlSeconds float).body start)
      (fun outcome later => ∃ own, Stage thread start began own later ∧
        ReturnsDocuments documents start outcome own) moment := by
  cases start with
  | typeDocs ids => exact safe_found rfl trivial hkept hstage
  | blueprintDocs ids => exact safe_found rfl trivial hkept hstage
  | categoryDocs ids => exact safe_found rfl trivial hkept hstage
  | _ => exact absurd (hkinds _ (List.mem_cons_self ..)) not_false

/-- What MongoDB has to begin with is what there is to know of the SDE. -/
theorem sound_initial {cache : Cache.World}
    (hcache : ∀ kind : Kind, kind.OfSde → ∀ id value, cache.cache (kind.key id) = some value →
      (documents kind.store.collectionName id).map Document.toValue = some value) :
    Sound documents esi float Kind.OfSde (World.initial documents cache) where
  imported _ _ _ := rfl
  documents kind hofSde id document hdocument := by
    have hsource : source documents esi float kind id = _ := source_of_ofSde hofSde id
    rw [show documents kind.store.collectionName id = some document from hdocument] at hsource
    refine ⟨document.toValue, ?_, hsource⟩
    cases kind with
    | sdeType | sdeBlueprint | sdeCategory => rfl
    | _ => exact absurd hofSde not_false
  cache kind hofSde id value hvalue := by
    have hdocument := hcache kind hofSde id value hvalue
    refine ⟨(source_of_ofSde hofSde id).trans hdocument, fun hnone => ?_⟩
    rw [show documents kind.store.collectionName id = none from hnone] at hdocument
    cases hdocument

/-- What has ended, has returned its documents. -/
theorem served_documents {cache : Cache.World}
    (hcache : ∀ kind : Kind, kind.OfSde → ∀ id value, cache.cache (kind.key id) = some value →
      (documents kind.store.collectionName id).map Document.toValue = some value)
    {config : ReferenceConfig}
    (hreaches : (looking esi redis ttlSeconds float).Reaches (lookingUp Kind.OfSde)
      (Config.initial _ _ _ _ (World.initial documents cache)) config) :
    Kept documents esi float Kind.OfSde config.moment ∧ ∀ (thread : ℕ) start program outcome,
      config.moment.starts[thread]? = some start → config.threads thread = some program →
      program.outcome? = some outcome →
      ReturnsDocuments documents start outcome (config.moment.logOf thread) :=
  served (fun _ _ _ _ hkinds hkept hstage => safe_documents hkinds hkept hstage)
    (sound_initial hcache) hreaches

/-- **Redis is transparent.**  Any number of lookups of the SDE run at the same time, with
Redis or without it.  A lookup returns exactly the documents of its identifiers, whatever
becomes of the calls of Redis, unless a query of its own fails; it can always be brought to do
so while none has failed. -/
theorem redis_transparent {cache : Cache.World}
    (hcache : ∀ kind : Kind, kind.OfSde → ∀ id value, cache.cache (kind.key id) = some value →
      (documents kind.store.collectionName id).map Document.toValue = some value)
    {config : ReferenceConfig}
    (hreaches : (looking esi redis ttlSeconds float).Reaches (lookingUp Kind.OfSde)
      (Config.initial _ _ _ _ (World.initial documents cache)) config) :
    HoldsDocuments documents config.moment.world ∧
    ∀ (thread : ℕ) start program, config.moment.starts[thread]? = some start →
      config.threads thread = some program →
      (∀ outcome, program.outcome? = some outcome →
        ReturnsDocuments documents start outcome (config.moment.logOf thread)) ∧
      ∀ kind ids, start.documents? = some (kind, ids) →
        ¬ QueryFailed kind (config.moment.logOf thread) →
        ∃ (choices : List Choice) (later : ReferenceConfig) (found : Dict ℤ Value),
          (looking esi redis ttlSeconds float).run config (choices.map (Event.call thread)) =
            some later ∧
          later.threads thread = some (.ret (.values found)) ∧ Exact documents kind ids found := by
  obtain ⟨hkept, houtcomes⟩ := served_documents hcache hreaches
  refine ⟨⟨fun kind hofSde => hkept.sound.imported kind hofSde hofSde,
      fun kind hofSde id value hvalue => ?_⟩,
    fun thread start program hstart hthread => ⟨fun outcome houtcome =>
      houtcomes thread start program outcome hstart hthread houtcome,
      fun kind ids hrequest hqueries => ?_⟩⟩
  · -- what is in Redis is what the SDE has
    have hsource := (hkept.sound.cache kind hofSde id value hvalue).1
    rw [source_of_ofSde hofSde] at hsource
    obtain ⟨document, hdocument, rfl⟩ := Option.map_eq_some_iff.mp hsource
    exact ⟨document, hdocument, Document.ofValue?_toValue document⟩
  · -- the lookup is left to go on, and no more queries fail
    obtain ⟨choices, later, final, outcome, hrun, hfinal, houtcome, hcalls⟩ :=
      (looking esi redis ttlSeconds float).exists_outcome
        (fun call => call.answer ≠ .error (.inr .database))
        (fun _ op world => exists_respond op world) hthread
    have hlater : (looking esi redis ttlSeconds float).Reaches (lookingUp Kind.OfSde) config
        later := System.reaches_of_run hrun fun event hevent _ => by
      obtain ⟨choice, _, rfl⟩ := List.mem_map.mp hevent
      exact fun _ _ _ => trivial
    have hreturns := (served_documents hcache (hreaches.trans hlater)).2 thread start final outcome
      (hlater.extends.getElem?_starts hstart) hfinal houtcome kind ids hrequest
    cases final with
    | ret reply =>
        obtain rfl := Option.some.inj houtcome
        obtain ⟨found, rfl, hfound⟩ := hreturns
        exact ⟨choices, later, found, hrun, hfinal, hfound⟩
    | raise error =>
        obtain rfl := Option.some.inj houtcome
        -- it could only raise after a query that has failed
        obtain ⟨_, missing, hfailed⟩ := hreturns
        rcases hcalls _ hfailed with hold | hnew
        · exact absurd ⟨missing, hold⟩ hqueries
        · exact absurd rfl hnew
    | call op next => cases houtcome

end Documents

/-! ## A failing pipeline -/

/-- One type. -/
def sampleDocuments : Collections := fun collectionName id =>
  if collectionName = "sde_types" ∧ id = 34 then some (Dict.single "name" (.string "Tritanium"))
  else none

/-- A lookup of two types while Redis cannot be read, and is written to in part only. -/
def sampleEvents : List (Event Start Choice Cache.Tick) :=
  [.start (.typeDocs ⟨[34, 35], by decide⟩), .call 0 (.inl (.redis (.error []))),
    .call 0 (.inr (.database .done)), .call 0 (.inl (.redis (.error [true])))]

theorem redis_transparent_failingPipeline : ∃ (later : ReferenceConfig) (found : Dict ℤ Value),
    (looking (fun _ _ => .empty) true 60 id).run (Config.initial _ _ _ _
      (World.initial sampleDocuments Cache.emptyWorld)) sampleEvents = some later ∧
    later.threads 0 = some (.ret (.values found)) ∧
    HoldsDocuments sampleDocuments later.moment.world ∧
    Exact sampleDocuments .sdeType ⟨[34, 35], by decide⟩ found := by
  obtain ⟨later, found, hrun, hstart, hthread⟩ : ∃ (later : ReferenceConfig)
      (found : Dict ℤ Value), (looking (fun _ _ => .empty) true 60 id).run (Config.initial _ _ _ _
        (World.initial sampleDocuments Cache.emptyWorld)) sampleEvents = some later ∧
      later.moment.starts[0]? = some (.typeDocs ⟨[34, 35], by decide⟩) ∧
      later.threads 0 = some (.ret (.values found)) := ⟨_, _, rfl, rfl, rfl⟩
  obtain ⟨hholds, hlookups⟩ := redis_transparent (fun _ _ _ _ hvalue => by cases hvalue)
    (System.reaches_of_run hrun fun event hevent _ => by
      rcases List.mem_cons.mp hevent with rfl | hcall
      · exact List.forall_mem_singleton.mpr trivial
      · simp only [List.mem_cons, List.not_mem_nil, or_false] at hcall
        rcases hcall with rfl | rfl | rfl <;> exact fun _ _ _ => trivial)
  obtain ⟨other, heq, hfound⟩ := (hlookups 0 _ _ hstart hthread).1 _ rfl _ _ rfl
  obtain rfl : found = other := by injection heq
  exact ⟨later, found, hrun, hthread, hholds, hfound⟩

end EveBuild.Reference
