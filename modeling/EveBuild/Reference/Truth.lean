import EveBuild.Cache.Origins
import EveBuild.Reference.Model

/-!
# What is kept of reference data is true

`source` is what there is to know under an identifier: the document of the SDE, or what is
made of the answer of ESI if that is not `None`.  In a `Sound` world MongoDB holds nothing
else, and Redis holds nothing that MongoDB does not hold.

The calls of a lookup that keep a world sound are said by `Keeps`, and `Sound.respond` is the
step.  Which of the seven kinds are `tracked` is left open, so that what the lookups of some
kinds keep does not depend on what the others are started with.
-/

namespace EveBuild.Reference

open Effect

/-! ## What there is to know -/

section Source

variable (sde : Collections) (esi : Path → ℤ → Document) (float : Number → Number)

/-- What ESI's answer for an identifier comes to. -/
def Resolver.truth (resolver : Resolver) (id : ℤ) : Value :=
  resolver.ofAnswer (esi (resolver.path id) id)

/-- The answer, if it is not `None`. -/
def Resolver.kept (resolver : Resolver) (id : ℤ) : Option Value :=
  if resolver.isResolved (resolver.truth esi id) then some (resolver.truth esi id) else none

def Kind.OfSde : Kind → Prop
  | .sdeType | .sdeBlueprint | .sdeCategory => True
  | _ => False

/-- What there is to know under an identifier. -/
def source (kind : Kind) (id : ℤ) : Option Value :=
  match kind with
  | .locationDetails => (locationResolver "").kept esi id
  | .systemSecurity => (securityResolver float).kept esi id
  | .planetName => planetNameResolver.kept esi id
  | .systemName => systemNameResolver.kept esi id
  | kind => (sde kind.store.collectionName id).map Document.toValue

/-- The `cached_at` of a document. -/
def IsStamp (stamp : List (String × Value)) : Prop :=
  stamp = [] ∨ ∃ now, stamp = [("cached_at", .date now)]

/-- A resolver keeps what there is to know, so that it can be read back. -/
structure Resolver.Lawful (resolver : Resolver) : Prop where
  ofEsi : ¬ resolver.kind.OfSde
  source : ∀ id, source sde esi float resolver.kind id = resolver.kept esi id
  failed : resolver.isResolved resolver.failed = false
  ofDocument : ∀ (data document : Document) (stamp : List (String × Value)), IsStamp stamp →
    resolver.isResolved (resolver.ofAnswer data) = true →
    resolver.kind.store.ofDocument ((resolver.fields (resolver.ofAnswer data) ++ stamp).foldl
      (fun document pair => document.set pair.1 pair.2) document) = some (resolver.ofAnswer data)

variable {sde esi float}

theorem Kind.collectionName_injective {kind other : Kind}
    (heq : kind.store.collectionName = other.store.collectionName) : kind = other := by
  revert heq
  cases kind <;> cases other <;> decide

/-- A field that is set last but for the stamp. -/
theorem get?_stamped {document : Document} {stamp : List (String × Value)} (hstamp : IsStamp stamp)
    {name : String} (hname : name ≠ "cached_at") :
    (stamp.foldl (fun document pair => document.set pair.1 pair.2) document).get? name =
      document.get? name := by
  obtain rfl | ⟨now, rfl⟩ := hstamp
  · rfl
  · rw [List.foldl_cons, List.foldl_nil, Dict.get?_set, if_neg hname]

theorem lawful_locationResolver (accessToken : String) :
    (locationResolver accessToken).Lawful sde esi float where
  ofEsi := not_false
  source _ := rfl
  failed := rfl
  ofDocument data document stamp hstamp hresolved := by
    rw [List.foldl_append]
    show (do
      let name ← Dict.get? _ "name"
      return location name (Dict.getD _ "system_id" .null) : Option Value) = _
    rw [get?_stamped hstamp (by decide), Dict.getD, get?_stamped hstamp (by decide)]
    simp [locationResolver, Dict.get?_set]

theorem lawful_single {resolver : Resolver} {name : String} (hname : name ≠ "cached_at")
    (hkind : ¬ resolver.kind.OfSde)
    (hsource : ∀ id, source sde esi float resolver.kind id = resolver.kept esi id)
    (hfailed : resolver.isResolved resolver.failed = false)
    (hfields : ∀ value, resolver.fields value = [(name, value)])
    (hdocument : ∀ document, resolver.kind.store.ofDocument document = document.get? name) :
    resolver.Lawful sde esi float where
  ofEsi := hkind
  source := hsource
  failed := hfailed
  ofDocument data document stamp hstamp _ := by
    rw [List.foldl_append, hdocument, get?_stamped hstamp hname, hfields, List.foldl_cons,
      List.foldl_nil, Dict.get?_set_self]

theorem lawful_securityResolver : (securityResolver float).Lawful sde esi float :=
  lawful_single (by decide) not_false (fun _ => rfl) rfl (fun _ => rfl) fun _ => rfl

theorem lawful_planetNameResolver : planetNameResolver.Lawful sde esi float :=
  lawful_single (by decide) not_false (fun _ => rfl) rfl (fun _ => rfl) fun _ => rfl

theorem lawful_systemNameResolver : systemNameResolver.Lawful sde esi float :=
  lawful_single (by decide) not_false (fun _ => rfl) rfl (fun _ => rfl) fun _ => rfl

theorem source_of_ofSde {kind : Kind} (hofSde : kind.OfSde) (id : ℤ) :
    source sde esi float kind id = (sde kind.store.collectionName id).map Document.toValue := by
  cases kind with
  | sdeType | sdeBlueprint | sdeCategory => rfl
  | _ => exact absurd hofSde not_false

/-- What there is to know can be read back from Redis. -/
theorem ofCached_of_source {kind : Kind} {id : ℤ} {value : Value}
    (hsource : source sde esi float kind id = some value) :
    kind.store.ofCached value = some value := by
  cases kind with
  | locationDetails =>
      obtain ⟨-, htruth⟩ := Option.ite_none_right_eq_some.mp hsource
      rw [← Option.some.inj htruth]
      rfl
  | _ => rfl

/-- A query finds each document of what there is to know. -/
theorem selected_of_source {kind : Kind} {id : ℤ} {document : Document} {value : Value}
    (hdocument : kind.store.ofDocument document = some value)
    (hsource : source sde esi float kind id = some value) :
    (kind.store.notNull.all fun name => document.field name ≠ .null) = true := by
  cases kind with
  | locationDetails =>
      obtain ⟨hresolved, htruth⟩ := Option.ite_none_right_eq_some.mp hsource
      obtain ⟨name, hname, hlocation⟩ := Option.bind_eq_some_iff.mp hdocument
      have hfield : document.field "name" = name := Dict.getD_of_get? hname _
      have hmember : member "name" value = some name := by
        rw [← Option.some.inj hlocation]
        rfl
      rw [Option.some.inj htruth] at hresolved
      have hne : member "name" value ≠ some .null := of_decide_eq_true hresolved
      rw [hmember] at hne
      show decide (document.field "name" ≠ .null) = true
      rw [hfield]
      exact decide_eq_true fun hnull => hne (congrArg some hnull)
  | _ => rfl

end Source

/-! ## Sound worlds -/

section Sound

variable (sde : Collections) (esi : Path → ℤ → Document) (float : Number → Number)
  (tracked : Kind → Prop)

/-- MongoDB has a document under the identifier. -/
def Collections.Holds (documents : Collections) (kind : Kind) (id : ℤ) : Prop :=
  documents kind.store.collectionName id ≠ none

/-- The stores hold what there is to know, and nothing else. -/
structure Sound (world : World) : Prop where
  imported : ∀ kind, tracked kind → kind.OfSde →
    world.documents kind.store.collectionName = sde kind.store.collectionName
  documents : ∀ kind, tracked kind → ∀ id document,
    world.documents kind.store.collectionName id = some document →
      ∃ value, kind.store.ofDocument document = some value ∧
        source sde esi float kind id = some value
  cache : ∀ kind, tracked kind → ∀ id value, world.cache.cache (kind.key id) = some value →
    source sde esi float kind id = some value ∧ world.documents.Holds kind id

/-- The call writes what there is to know: to Redis what MongoDB holds, and to MongoDB what
ESI has answered. -/
def Keeps (world : World) : signature.Op → Prop
  | .inl (.mget _) => True
  | .inl (.setMany items _) => ∀ item ∈ items, ∃ kind id, item.1 = kind.key id ∧
      source sde esi float kind id = some item.2 ∧ world.documents.Holds kind id
  | .inl _ => False
  | .inr (.upsert collectionName id fields) => ∃ resolver : Resolver, ∃ stamp,
      resolver.Lawful sde esi float ∧ IsStamp stamp ∧
      collectionName = resolver.kind.store.collectionName ∧
      resolver.isResolved (resolver.truth esi id) = true ∧
      fields = resolver.fields (resolver.truth esi id) ++ stamp
  | .inr _ => True

/-- Nothing is deleted from MongoDB. -/
def Grows (documents later : Collections) : Prop :=
  ∀ collectionName id, documents collectionName id ≠ none → later collectionName id ≠ none

variable {sde esi float tracked} {world later : World}

/-- MongoDB holds all that there is to know of the SDE. -/
theorem Sound.source_eq_none (hsound : Sound sde esi float tracked world) {kind : Kind} {id : ℤ}
    (htracked : tracked kind) (hunheld : ¬ world.documents.Holds kind id) (hofSde : kind.OfSde) :
    source sde esi float kind id = none := by
  rw [source_of_ofSde hofSde, ← hsound.imported kind htracked hofSde,
    Decidable.not_not.mp hunheld]
  rfl

theorem Grows.refl (documents : Collections) : Grows documents documents := fun _ _ => id

theorem Grows.trans {first second third : Collections} (hfirst : Grows first second)
    (hsecond : Grows second third) : Grows first third :=
  fun collectionName id hheld => hsecond collectionName id (hfirst collectionName id hheld)

/-- A document has been written. -/
def World.upsert (world : World) (collectionName : String) (id : ℤ)
    (fields : List (String × Value)) : World :=
  { world with documents := world.documents.upsert collectionName id fields }

theorem upsert_documents (world : World) (collectionName other : String) (id otherId : ℤ)
    (fields : List (String × Value)) :
    (world.upsert collectionName id fields).documents other otherId =
      if other = collectionName ∧ otherId = id then
        some (fields.foldl (fun document pair => document.set pair.1 pair.2)
          ((world.documents collectionName id).getD (Dict.single "_id" (.int id))))
      else world.documents other otherId := by
  show Collections.upsert _ _ _ _ other otherId = _
  unfold Collections.upsert
  split_ifs with heq
  · obtain ⟨rfl, rfl⟩ := heq
    rw [Function.update_self, Function.update_self]
  · rcases eq_or_ne other collectionName with rfl | hne
    · rw [Function.update_self, Function.update_of_ne fun hid => heq ⟨rfl, hid⟩]
    · rw [Function.update_of_ne hne]

theorem grows_upsert (world : World) (collectionName : String) (id : ℤ)
    (fields : List (String × Value)) :
    Grows world.documents (world.upsert collectionName id fields).documents := by
  intro other otherId hheld
  rw [upsert_documents]
  split_ifs
  · exact Option.some_ne_none _
  · exact hheld

/-- What ESI has answered is written. -/
theorem Sound.upsert (hsound : Sound sde esi float tracked world) {resolver : Resolver} {id : ℤ}
    {stamp : List (String × Value)} (hlawful : resolver.Lawful sde esi float)
    (hstamp : IsStamp stamp) (hresolved : resolver.isResolved (resolver.truth esi id) = true) :
    Sound sde esi float tracked (world.upsert resolver.kind.store.collectionName id
      (resolver.fields (resolver.truth esi id) ++ stamp)) where
  imported kind htracked hofSde := by
    have hne : kind.store.collectionName ≠ resolver.kind.store.collectionName :=
      fun heq => hlawful.ofEsi (Kind.collectionName_injective heq ▸ hofSde)
    -- ESI's collections are not those of the SDE
    funext otherId
    rw [upsert_documents, if_neg fun heq => hne heq.1, hsound.imported kind htracked hofSde]
  documents kind htracked otherId document hdocument := by
    rw [upsert_documents] at hdocument
    split_ifs at hdocument with heq
    · -- the document that has been written
      obtain ⟨hname, rfl⟩ := heq
      obtain rfl := Kind.collectionName_injective hname
      refine ⟨resolver.truth esi otherId, ?_, ?_⟩
      · rw [← Option.some.inj hdocument]
        exact hlawful.ofDocument _ _ stamp hstamp hresolved
      · rw [hlawful.source, Resolver.kept, if_pos hresolved]
    · exact hsound.documents kind htracked otherId document hdocument
  cache kind htracked otherId value hvalue := by
    obtain ⟨hsource, hheld⟩ := hsound.cache kind htracked otherId value hvalue
    exact ⟨hsource, grows_upsert _ _ _ _ _ _ hheld⟩

/-- Redis has less in it, or more of what MongoDB holds. -/
theorem Sound.cache_of_forall (hsound : Sound sde esi float tracked world) {cache : Cache.World}
    (hcache : ∀ key value, cache.cache key = some value → world.cache.cache key = some value ∨
      ∃ kind id, key = kind.key id ∧ source sde esi float kind id = some value ∧
        world.documents.Holds kind id) :
    Sound sde esi float tracked { world with cache := cache } where
  imported := hsound.imported
  documents := hsound.documents
  cache kind htracked id value hvalue := by
    rcases hcache _ _ hvalue with hold | ⟨other, otherId, hkey, hnew⟩
    · exact hsound.cache kind htracked id value hold
    · obtain ⟨rfl, rfl⟩ := key_injective hkey
      exact hnew

/-- **What a call does to the world.** -/
theorem later_of_respond {op : signature.Op} {choice : Choice}
    {answer : Except ReferenceError (signature.Answer op)}
    (hrespond : respond esi op choice world = some (answer, later)) :
    (∃ cacheOp cacheChoice result cache, op = .inl cacheOp ∧
      Cache.respond cacheOp cacheChoice world.cache = some (result, cache) ∧
      later = { world with cache := cache }) ∨
    later = world ∨
    ∃ collectionName id fields, op = .inr (.upsert collectionName id fields) ∧
      later = world.upsert collectionName id fields := by
  cases op with
  | inl op =>
      cases choice with
      | inr choice => cases hrespond
      | inl choice =>
          obtain ⟨⟨result, cache⟩, hcached, heq⟩ := Option.map_eq_some_iff.mp hrespond
          obtain ⟨-, rfl⟩ := Prod.mk.inj heq
          exact Or.inl ⟨op, choice, result, cache, rfl, hcached, rfl⟩
  | inr op =>
      cases choice with
      | inl choice => cases hrespond
      | inr choice =>
          obtain ⟨⟨result, after⟩, hlookup, heq⟩ := Option.map_eq_some_iff.mp hrespond
          obtain ⟨-, rfl⟩ := Prod.mk.inj heq
          refine Or.inr ?_
          cases op <;> cases choice <;>
            simp only [respondLookup, Option.some.injEq, Prod.mk.injEq, reduceCtorEq] at hlookup
          case upsert.database collectionName id fields delivery =>
            obtain ⟨-, rfl⟩ := hlookup
            -- an update that fails may have been made all the same
            rcases delivery.parts_singleton () with hparts | hparts
            · rw [hparts]
              exact Or.inl rfl
            · rw [hparts]
              exact Or.inr ⟨collectionName, id, fields, rfl, rfl⟩
          case get.esi path id accessToken outcome =>
            cases outcome <;> obtain ⟨-, rfl⟩ := Prod.mk.inj (Option.some.inj hlookup) <;>
              exact Or.inl rfl
          all_goals
            obtain ⟨-, rfl⟩ := hlookup
            exact Or.inl rfl

/-- Nothing that a call does deletes from MongoDB. -/
theorem grows_of_respond {op : signature.Op} {choice : Choice}
    {answer : Except ReferenceError (signature.Answer op)}
    (hrespond : respond esi op choice world = some (answer, later)) :
    Grows world.documents later.documents ∧ later.began = world.began := by
  rcases later_of_respond hrespond with ⟨_, _, _, _, _, _, rfl⟩ | rfl | ⟨_, _, _, _, rfl⟩
  · exact ⟨Grows.refl _, rfl⟩
  · exact ⟨Grows.refl _, rfl⟩
  · exact ⟨grows_upsert world _ _ _, rfl⟩

/-- **A step.**  A call that writes what there is to know keeps the world sound. -/
theorem Sound.respond (hsound : Sound sde esi float tracked world) {op : signature.Op}
    {choice : Choice} {answer : Except ReferenceError (signature.Answer op)}
    (hkeeps : Keeps sde esi float world op)
    (hrespond : respond esi op choice world = some (answer, later)) :
    Sound sde esi float tracked later := by
  rcases later_of_respond hrespond with ⟨cacheOp, _, _, cache, rfl, hcached, rfl⟩ | rfl |
    ⟨collectionName, id, fields, rfl, rfl⟩
  · refine hsound.cache_of_forall fun key value hvalue => ?_
    refine (Cache.cache_of_respond hcached hvalue).imp_right ?_
    rintro ⟨items, ttlSeconds, rfl, hitem⟩
    exact hkeeps (key, value) hitem
  · exact hsound
  · obtain ⟨resolver, stamp, hlawful, hstamp, rfl, hresolved, rfl⟩ := hkeeps
    exact hsound.upsert hlawful hstamp hresolved

end Sound

end EveBuild.Reference
