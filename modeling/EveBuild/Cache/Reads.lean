import EveBuild.Cache.Listings
import EveBuild.Effect.Log

/-!
# What a read of a list does

A read looks into Redis.  If it misses, it fetches the list and stores it: it deletes the
documents of the list, inserts the new ones, and sets the key.  `ran_read` says so of the
calls that a read has made, whatever they were answered, and `ran_store` and
`ran_invalidate` say which calls are made of which parts.
-/

namespace EveBuild.Cache

open Effect

variable {redis : Bool}

/-! ## Errors of Redis -/

/-- A call of Redis is answered, or its error is ignored. -/
theorem ran_ignoringRedisError {β : Type} {program : Code β} {value : β} {own : CacheLog}
    {outcome : Except CacheError β}
    (hran : Program.Ran (ignoringRedisError program value) own outcome) :
    Program.Ran program own outcome ∨
      outcome = .ok value ∧ Program.Ran program own (.error .redis) := by
  rcases hran.of_tryCatch with ⟨result, rfl, hprogram⟩ | ⟨error, first, rest, rfl, hfirst, hrest⟩
  · exact Or.inl hprogram
  · split at hrest
    · rename_i herror
      subst herror
      obtain ⟨rfl, rfl⟩ := hrest.of_ret
      exact Or.inr ⟨rfl, hfirst⟩
    · obtain ⟨rfl, rfl⟩ := hrest.of_raise
      exact Or.inl hfirst

theorem passesOn_ignoringRedisError {β : Type} {program : Code β} (hprogram : program.PassesOn)
    (value : β) : (ignoringRedisError program value).PassesOn := by
  intro own error hran
  rcases ran_ignoringRedisError hran with hran | ⟨heq, _⟩
  · exact hprogram own error hran
  · cases heq

/-- The key is set in one call, if Redis is enabled. -/
theorem ran_setManyCached {items : List (String × Value)} {ttlSeconds : ℕ} {own : CacheLog}
    {outcome : Except CacheError Unit} (hitems : items ≠ [])
    (hran : Program.Ran (setManyCached redis items ttlSeconds) own outcome) :
    redis = false ∧ own = [] ∨
      redis = true ∧ ∃ answer, own = [⟨.setMany items ttlSeconds, answer⟩] := by
  rw [setManyCached] at hran
  split at hran
  · rename_i hdisabled
    exact Or.inl ⟨hdisabled.resolve_right hitems, hran.of_ret.1⟩
  · rename_i henabled
    refine Or.inr ⟨by simpa [hitems] using henabled, ?_⟩
    rcases ran_ignoringRedisError hran with hset | ⟨_, hset⟩
    · exact ⟨_, hset.of_perform⟩
    · exact ⟨_, hset.of_perform⟩

/-- The key is deleted in one call, if Redis is enabled. -/
theorem ran_deleteCached {keys : List String} {own : CacheLog} {outcome : Except CacheError Unit}
    (hkeys : keys ≠ []) (hran : Program.Ran (deleteCached redis keys) own outcome) :
    redis = false ∧ own = [] ∨ redis = true ∧ ∃ answer, own = [⟨.delete keys, answer⟩] := by
  rw [deleteCached] at hran
  split at hran
  · rename_i hdisabled
    exact Or.inl ⟨hdisabled.resolve_right hkeys, hran.of_ret.1⟩
  · rename_i henabled
    refine Or.inr ⟨by simpa [hkeys] using henabled, ?_⟩
    rcases ran_ignoringRedisError hran with hdelete | ⟨_, hdelete⟩
    · exact ⟨_, hdelete.of_perform⟩
    · exact ⟨_, hdelete.of_perform⟩

/-! ## The parts of a read -/

namespace Listing

variable (listing : Listing)

/-- What a read finds in Redis, if it is a list of entries. -/
def look (redis : Bool) : Code (Option (List Document)) := do
  let cached ← getManyCached redis [listing.key]
  return (cached.lookup listing.key).bind listing.entryType.decode

/-- What a read does with a list that it has fetched. -/
def store (redis : Bool) (entries : List Document) : Code Unit := do
  replaceDocuments listing.collectionName listing.field listing.id entries
  setManyCached redis [(listing.key, EntryType.encode entries)] listing.listed.ttlSeconds

/-- A read that has missed. -/
def refill (redis : Bool) (fetch : Fetch listing.entryType) : Code (List Document) := do
  let entries ← fetch.program
  listing.store redis entries
  return entries

theorem read_eq (redis : Bool) (fetch : Fetch listing.entryType) :
    listing.read redis fetch = listing.look redis >>= fun found =>
      found.elim (listing.refill redis fetch) Program.ret := by
  rw [read, cachedList, look, Program.bind_assoc]
  refine congrArg _ (funext fun cached => ?_)
  rw [Program.pure_eq, Program.ret_bind]
  split
  · rename_i entries hfound
    rw [key, hfound]
    rfl
  · rename_i hfound
    rw [key, hfound]
    refine congrArg _ (funext fun entries => ?_)
    rw [store, Program.bind_assoc]
    rfl

variable {listing}

/-- A look answers what is in Redis, unless Redis is disabled or fails. -/
theorem ran_look {own : CacheLog} {found : Option (List Document)}
    (hran : Program.Ran (listing.look redis) own (.ok found)) :
    (redis = true ∧ ∃ values, own = [⟨.mget [listing.key], .ok values⟩] ∧
      found = values.head?.join.bind listing.entryType.decode) ∨
    found = none ∧ (own = [] ∨ ∃ error, own = [⟨.mget [listing.key], .error error⟩]) := by
  rcases hran.of_bind with ⟨cached, first, rest, rfl, hfirst, hrest⟩ | ⟨error, herror, _⟩
  · obtain ⟨rfl, hfound⟩ := hrest.of_ret
    obtain rfl := Except.ok.inj hfound
    rw [getManyCached] at hfirst
    split at hfirst
    · obtain ⟨rfl, hcached⟩ := hfirst.of_ret
      obtain rfl := Except.ok.inj hcached
      -- Redis is disabled
      exact Or.inr ⟨rfl, Or.inl rfl⟩
    · rename_i henabled
      rcases ran_ignoringRedisError hfirst with hmget | ⟨hcached, hmget⟩
      · rcases hmget.of_bind with ⟨values, call, rest, rfl, hcall, hrest⟩ | ⟨error, herror, _⟩
        · obtain ⟨rfl, hcached⟩ := hrest.of_ret
          obtain rfl := Except.ok.inj hcached
          obtain rfl := hcall.of_perform
          refine Or.inl ⟨by simpa using henabled, values, rfl, ?_⟩
          cases values with
          | nil => rfl
          | cons value values => cases value <;> simp
        · cases herror
      · -- the error of Redis has been ignored
        obtain rfl := Except.ok.inj hcached
        refine Or.inr ⟨rfl, Or.inr ⟨.redis, ?_⟩⟩
        rcases hmget.of_bind with ⟨values, call, rest, rfl, hcall, hrest⟩ | ⟨error, herror, hcall⟩
        · cases hrest.of_ret.2
        · cases herror
          exact hcall.of_perform
  · cases herror

/-- A read has missed, and has made the requests of its fetch. -/
structure Fetches (listing : Listing) (redis : Bool) (fetch : Fetch listing.entryType)
    (looked gets : CacheLog) (fetched : Except CacheError (List Document)) : Prop where
  looked : Program.Ran (listing.look redis) looked (.ok none)
  gets : Program.Ran fetch.program gets fetched

theorem issues_look {allowed : Op → Prop} (hmget : allowed (.mget [listing.key])) :
    (listing.look redis).Issues allowed :=
  Program.Issues.bind (issues_getManyCached redis hmget) fun _ => trivial

/-- Up to the end of its fetch a read changes nothing. -/
theorem Fetches.reads {fetch : Fetch listing.entryType} {looked gets : CacheLog}
    {fetched : Except CacheError (List Document)}
    (hfetches : listing.Fetches redis fetch looked gets fetched) :
    ∀ call ∈ gets ++ looked, Reads call.op := by
  have hlook : (listing.look redis).Issues Reads := issues_look trivial
  have hrequests : fetch.program.Issues Reads :=
    fetch.requests.mono fun op hget => by cases op <;> trivial
  exact List.forall_mem_append.mpr
    ⟨hrequests.of_ran hfetches.gets, hlook.of_ran hfetches.looked⟩

/-- The list has been fetched by the read that has made these calls. -/
def Yields (listing : Listing) (redis : Bool) (fetch : Fetch listing.entryType) (own : CacheLog)
    (entries : List Document) : Prop :=
  ∃ looked gets stored, own = stored ++ (gets ++ looked) ∧
    listing.Fetches redis fetch looked gets (.ok entries)

theorem Yields.mono {fetch : Fetch listing.entryType} {own later : CacheLog}
    {entries : List Document} (hsuffix : own <:+ later)
    (hyields : listing.Yields redis fetch own entries) :
    listing.Yields redis fetch later entries := by
  obtain ⟨more, rfl⟩ := hsuffix
  obtain ⟨looked, gets, stored, rfl, hfetches⟩ := hyields
  exact ⟨looked, gets, more ++ stored, (List.append_assoc ..).symm, hfetches⟩

theorem Yields.instances {fetch : Fetch listing.entryType} {own : CacheLog}
    {entries : List Document} (hyields : listing.Yields redis fetch own entries) :
    ∀ entry ∈ entries, listing.entryType.IsInstance entry := by
  obtain ⟨_, _, _, _, hfetches⟩ := hyields
  exact fetch.instances.of_ran hfetches.gets

/-- **What a read does.**  It finds the list in Redis; or it misses, and fetches and stores
it.  Either of the last two can raise. -/
theorem ran_read {fetch : Fetch listing.entryType} {own : CacheLog}
    {outcome : Except CacheError (List Document)}
    (hran : Program.Ran (listing.read redis fetch) own outcome) :
    (∃ entries, outcome = .ok entries ∧ Program.Ran (listing.look redis) own (.ok (some entries))) ∨
    (∃ error, outcome = .error error ∧ Program.Ran (listing.look redis) own (.error error)) ∨
    (∃ error looked gets, outcome = .error error ∧ own = gets ++ looked ∧
      listing.Fetches redis fetch looked gets (.error error)) ∨
    ∃ entries looked gets stored result, own = stored ++ (gets ++ looked) ∧
      listing.Fetches redis fetch looked gets (.ok entries) ∧
      Program.Ran (listing.store redis entries) stored result ∧
      outcome = result.map fun _ => entries := by
  rw [read_eq] at hran
  rcases hran.of_bind with ⟨found, looked, rest, rfl, hlooked, hrest⟩ | ⟨error, rfl, hlooked⟩
  · cases found with
    | some entries =>
        obtain ⟨rfl, rfl⟩ := hrest.of_ret
        exact Or.inl ⟨entries, rfl, hlooked⟩
    | none =>
        rcases hrest.of_bind with ⟨entries, gets, rest, rfl, hgets, hrest⟩ | ⟨error, rfl, hgets⟩
        · refine Or.inr (Or.inr (Or.inr ⟨entries, looked, gets, ?_⟩))
          rcases hrest.of_bind with ⟨_, stored, last, rfl, hstored, hlast⟩ | ⟨error, rfl, hstored⟩
          · obtain ⟨rfl, rfl⟩ := hlast.of_ret
            exact ⟨stored, .ok (), by simp, ⟨hlooked, hgets⟩, hstored, rfl⟩
          · exact ⟨rest, .error error, by simp, ⟨hlooked, hgets⟩, hstored, rfl⟩
        · exact Or.inr (Or.inr (Or.inl ⟨error, looked, rest, rfl, rfl, hlooked, hgets⟩))
  · exact Or.inr (Or.inl ⟨error, rfl, hlooked⟩)

/-! ## What is stored -/

/-- Every document is made at its own time. -/
theorem ran_taggedDocuments {entries documents : List Document} {own : CacheLog}
    (hentries : ∀ entry ∈ entries, listing.entryType.IsInstance entry)
    (hran : Program.Ran (taggedDocuments listing.field listing.id entries) own (.ok documents)) :
    listing.Documents entries documents := by
  induction entries generalizing documents own with
  | nil =>
      obtain ⟨_, hdocuments⟩ := hran.of_ret
      obtain rfl := Except.ok.inj hdocuments
      exact ⟨List.forall_mem_nil _, rfl⟩
  | cons entry entries ih =>
      obtain ⟨hentry, hothers⟩ := List.forall_mem_cons.mp hentries
      rcases hran.of_bind with ⟨now, first, rest, rfl, _, hrest⟩ | ⟨error, herror, _⟩
      · rcases hrest.of_bind with ⟨others, more, last, rfl, hmore, hlast⟩ | ⟨error, herror, _⟩
        · obtain ⟨_, hdocuments⟩ := hlast.of_ret
          obtain rfl := Except.ok.inj hdocuments
          exact documents_cons hentry (ih hothers hmore)
        · cases herror
      · cases herror

/-- The calls that insert the documents of a list; those of an empty list are none. -/
inductive Inserts (listing : Listing) (entries : List Document) : CacheLog → Prop
  | none (hentries : entries = []) : Inserts listing entries []
  | some {documents} {clocks : CacheLog} (hentries : entries ≠ [])
      (hdocuments : listing.Documents entries documents)
      (hclocks : ∀ call ∈ clocks, call.op = Op.utcnow) :
      Inserts listing entries
        (⟨.insertMany listing.collectionName documents, .ok ()⟩ :: clocks)

/-- The call that sets the key, if Redis is enabled. -/
inductive Sets (listing : Listing) (entries : List Document) : Bool → CacheLog → Prop
  | disabled : Sets listing entries false []
  | enabled (answer : Except CacheError Unit) : Sets listing entries true
      [⟨.setMany [(listing.key, EntryType.encode entries)] listing.listed.ttlSeconds, answer⟩]

/-- **How a list is stored.** -/
theorem ran_store {entries : List Document} {own : CacheLog}
    (hentries : ∀ entry ∈ entries, listing.entryType.IsInstance entry)
    (hran : Program.Ran (listing.store redis entries) own (.ok ())) :
    ∃ sets inserts, own = sets ++ (inserts ++
        [⟨.deleteMany listing.collectionName listing.field listing.id, .ok ()⟩]) ∧
      listing.Sets entries redis sets ∧ listing.Inserts entries inserts := by
  rcases hran.of_bind with ⟨_, replaced, sets, rfl, hreplaced, hsets⟩ | ⟨error, herror, _⟩
  · refine ⟨sets, ?_⟩
    have hset : listing.Sets entries redis sets := by
      rcases ran_setManyCached (by simp) hsets with ⟨rfl, rfl⟩ | ⟨rfl, answer, rfl⟩
      · exact .disabled
      · exact .enabled answer
    rcases hreplaced.of_bind with ⟨_, deleted, rest, rfl, hdeleted, hrest⟩ | ⟨error, herror, _⟩
    · obtain rfl := hdeleted.of_perform
      refine ⟨rest, rfl, hset, ?_⟩
      split at hrest
      · rename_i hempty
        obtain ⟨rfl, _⟩ := hrest.of_ret
        exact .none hempty
      · rename_i hne
        rcases hrest.of_bind with
          ⟨documents, clocks, last, rfl, hclocks, hlast⟩ | ⟨error, herror, _⟩
        · obtain rfl := hlast.of_perform
          have hissues : (taggedDocuments listing.field listing.id entries).Issues
              fun op => op = Op.utcnow := by
            apply issues_taggedDocuments
            rfl
          exact .some hne (ran_taggedDocuments hentries hclocks) (hissues.of_ran hclocks)
        · cases herror
    · cases herror
  · cases herror

/-- **How a list is invalidated.** -/
theorem ran_invalidate {own : CacheLog}
    (hran : Program.Ran (listing.invalidate redis) own (.ok ())) :
    ∃ deletes, own = deletes ++
        [⟨.deleteMany listing.collectionName listing.field listing.id, .ok ()⟩] ∧
      (redis = false ∧ deletes = [] ∨
        redis = true ∧ ∃ answer, deletes = [⟨.delete [listing.key], answer⟩]) := by
  rcases hran.of_bind with ⟨_, deleted, rest, rfl, hdeleted, hrest⟩ | ⟨error, herror, _⟩
  · obtain rfl := hdeleted.of_perform
    exact ⟨rest, rfl, ran_deleteCached (by simp) hrest⟩
  · cases herror

/-! ## Errors -/

theorem passesOn_look (listing : Listing) : (listing.look redis).PassesOn := by
  refine Program.PassesOn.bind ?_ fun cached => Program.PassesOn.ret _
  rw [getManyCached]
  split
  · exact Program.PassesOn.ret _
  · exact passesOn_ignoringRedisError
      (Program.PassesOn.bind (Program.PassesOn.perform _) fun _ => Program.PassesOn.ret _) _

theorem passesOn_taggedDocuments (entries : List Document) :
    (taggedDocuments listing.field listing.id entries).PassesOn := by
  induction entries with
  | nil => exact Program.PassesOn.ret _
  | cons entry entries ih =>
      refine Program.PassesOn.bind (Program.PassesOn.perform _) fun now => ?_
      exact Program.PassesOn.bind ih fun documents => Program.PassesOn.ret _

theorem passesOn_store (entries : List Document) : (listing.store redis entries).PassesOn := by
  refine Program.PassesOn.bind (Program.PassesOn.bind (Program.PassesOn.perform _) fun _ => ?_)
    fun _ => ?_
  · split
    · exact Program.PassesOn.ret _
    · exact Program.PassesOn.bind (passesOn_taggedDocuments entries) fun _ =>
        Program.PassesOn.perform _
  · rw [setManyCached]
    split
    · exact Program.PassesOn.ret _
    · exact passesOn_ignoringRedisError (Program.PassesOn.perform _) _

theorem passesOn_invalidate (listing : Listing) : (listing.invalidate redis).PassesOn := by
  refine Program.PassesOn.bind (Program.PassesOn.perform _) fun _ => ?_
  rw [deleteCached]
  split
  · exact Program.PassesOn.ret _
  · exact passesOn_ignoringRedisError (Program.PassesOn.perform _) _

/-- **At most one list** is fetched by a read. -/
theorem Fetches.unique {fetch : Fetch listing.entryType} {looked gets : CacheLog}
    {fetched : Except CacheError (List Document)} {entries : List Document}
    (hfetches : listing.Fetches redis fetch looked gets fetched) {own stored : CacheLog}
    (hown : own = stored ++ (gets ++ looked)) (hyields : listing.Yields redis fetch own entries) :
    fetched = .ok entries := by
  obtain ⟨looked', gets', stored', rfl, hlooked, hgets⟩ := hyields
  have hsuffix : looked <:+ stored' ++ (gets' ++ looked') :=
    ⟨stored ++ gets, by rw [hown, List.append_assoc]⟩
  have hsuffix' : looked' <:+ stored' ++ (gets' ++ looked') :=
    ⟨stored' ++ gets', by rw [List.append_assoc]⟩
  have heq : looked' = looked := by
    rcases List.suffix_or_suffix_of_suffix hsuffix hsuffix' with hle | hle
    · exact (hlooked.eq_of_suffix hfetches.looked hle).1.symm
    · exact (hfetches.looked.eq_of_suffix hlooked hle).1
  subst heq
  rw [← List.append_assoc, ← List.append_assoc] at hown
  have hrest := List.append_cancel_right hown
  rcases List.suffix_or_suffix_of_suffix ⟨stored, hrest.symm⟩ (List.suffix_append stored' gets')
    with hle | hle
  · exact (hgets.eq_of_suffix hfetches.gets hle).2
  · exact (hfetches.gets.eq_of_suffix hgets hle).2.symm

/-- Nothing is fetched by a read whose look has found a list, or has raised. -/
theorem not_yields {fetch : Fetch listing.entryType} {own : CacheLog}
    {looked : Except CacheError (Option (List Document))}
    (hlook : Program.Ran (listing.look redis) own looked) (hlooked : looked ≠ .ok none)
    (entries : List Document) : ¬listing.Yields redis fetch own entries := by
  rintro ⟨looked', gets, stored, rfl, hfetches⟩
  have hsuffix : looked' <:+ stored ++ (gets ++ looked') :=
    ⟨stored ++ gets, by rw [List.append_assoc]⟩
  exact hlooked (hlook.eq_of_suffix hfetches.looked hsuffix).2.symm

end Listing

/-- A loop over the sources that has returned has been through each of them. -/
theorem ran_invalidateAll {invalidate : Source → Code Unit} {sources : List Source}
    {own : CacheLog} (hran : Program.Ran (invalidateAll invalidate sources) own (.ok ())) :
    ∀ source ∈ sources, ∃ part, part.Sublist own ∧
      Program.Ran (invalidate source) part (.ok ()) := by
  induction sources generalizing own with
  | nil => exact List.forall_mem_nil _
  | cons source sources ih =>
      rcases hran.of_bind with ⟨_, first, rest, rfl, hfirst, hrest⟩ | ⟨error, herror, _⟩
      · refine List.forall_mem_cons.mpr ⟨⟨first, List.sublist_append_right .., hfirst⟩, ?_⟩
        intro other hother
        obtain ⟨part, hpart, hran⟩ := ih hrest other hother
        exact ⟨part, hpart.trans (List.sublist_append_left ..), hran⟩
      · cases herror

/-- The personal lists of a character have all been invalidated. -/
theorem ran_invalidatePersonal {characterId : ℤ} {own : CacheLog}
    (hran : Program.Ran (invalidateAll (fun source => invalidateCharacterList redis
      source.collectionName source.cacheKeyPrefix characterId) personalSources) own (.ok ()))
    {listed : Listed} (hlisted : listed ∈ Listed.personal) :
    ∃ part, part.Sublist own ∧
      Program.Ran ((Listing.mk listed (some characterId)).invalidate redis) part (.ok ()) := by
  have hsource : listed.source ∈ personalSources := by
    rw [← Listed.map_source_personal]
    exact List.mem_map_of_mem hlisted
  rw [Listing.invalidate_personal hlisted]
  exact ran_invalidateAll hran _ hsource

/-- The lists of a corporation have all been invalidated. -/
theorem ran_invalidateCorp {corporationId : Option ℤ} {own : CacheLog}
    (hran : Program.Ran (invalidateAll (fun source => invalidateCorporationList redis
      source.collectionName source.cacheKeyPrefix corporationId) corpSources) own (.ok ()))
    {listed : Listed} (hlisted : listed ∈ Listed.corp) :
    ∃ part, part.Sublist own ∧
      Program.Ran ((Listing.mk listed corporationId).invalidate redis) part (.ok ()) := by
  have hsource : listed.source ∈ corpSources := by
    rw [← Listed.map_source_corp]
    exact List.mem_map_of_mem hlisted
  rw [Listing.invalidate_corp hlisted]
  exact ran_invalidateAll hran _ hsource

end EveBuild.Cache
