import EveBuild.Cache.Reads
import EveBuild.Effect.Eval

/-!
# A refresh that fails

A read that misses fetches the list, deletes the documents that MongoDB has of it and inserts new
ones, and each of these calls can fail.  Nothing puts the old documents back: if `insert_many`
fails, the list is whatever part of the new documents it has inserted, and if `delete_many` fails,
whatever it has left of the old ones (`documents_of_refresh`).  So a refresh is all or nothing only
if neither leaves a part (`Spared`).

`Circumstances` are what is not determined in a read that runs alone.
-/

namespace EveBuild.Cache

open Effect

/-! ## What can happen -/

/-- What the calls of one read come to.  ESI and the clock answer as they like. -/
structure Circumstances (σ : Type) where
  get : (endpoint : Endpoint) → (id : Option ℤ) → (accessToken : String) → (page : Option ℤ) →
    σ → Except CacheError Response × σ
  utcnow : σ → ℤ × σ
  look : Delivery
  deletion : Delivery
  insertion : Delivery
  keeping : Delivery

variable {σ : Type}

/-- What a call comes to. -/
def Circumstances.choice (circumstances : Circumstances σ) (op : Op) (state : σ) : Choice × σ :=
  match op with
  | .mget _ => (.redis circumstances.look, state)
  | .setMany .. => (.redis circumstances.keeping, state)
  | .delete _ => (.redis circumstances.keeping, state)
  | .deleteMany .. => (.database circumstances.deletion, state)
  | .insertMany .. => (.database circumstances.insertion, state)
  | .utcnow =>
      let (now, later) := circumstances.utcnow state
      (.utcnow now, later)
  | .get endpoint id accessToken page =>
      let (answer, later) := circumstances.get endpoint id accessToken page state
      (.esi answer, later)

theorem Circumstances.isSome_respond (circumstances : Circumstances σ) (op : Op)
    (world : World) (state : σ) :
    (respond op (circumstances.choice op state).1 world).isSome := by
  cases op <;> rfl

/-- Each call is answered as `respond` answers it. -/
def Circumstances.handle (circumstances : Circumstances σ) (op : Op) (moment : World × σ) :
    Except CacheError op.Answer × (World × σ) :=
  let answered := (respond op (circumstances.choice op moment.2).1 moment.1).get
    (circumstances.isSome_respond op moment.1 moment.2)
  (answered.1, answered.2, (circumstances.choice op moment.2).2)

namespace Listing

variable (listing : Listing) (redis : Bool) (fetch : Fetch listing.entryType)
  (circumstances : Circumstances σ) (world : World) (state : σ)

/-- The read does not find the list in Redis. -/
def Misses : Prop :=
  ((listing.look redis).eval circumstances.handle (world, state)).1 = .ok none

/-- What the fetch comes to. -/
def fetched : Except CacheError (List Document) :=
  (fetch.program.eval circumstances.handle (world, state)).1

/-- The world after the read. -/
def afterRead : World :=
  ((listing.read redis fetch).eval circumstances.handle (world, state)).2.1

/-- The documents of the list are the previous ones, or those of the list that was fetched. -/
def AllOrNothing : Prop :=
  listing.documents (listing.afterRead redis fetch circumstances world state) =
      listing.documents world ∨
    ∃ entries, listing.fetched fetch circumstances world state = .ok entries ∧
      listing.mirrored (listing.afterRead redis fetch circumstances world state) = entries

end Listing

/-- What there is of a list after a read that has missed. -/
def leftBy (fetched : Except CacheError (List Document)) (deletion insertion : Delivery)
    (previous new : List Document) : List Document :=
  match fetched, deletion with
  | .error _, _ => previous
  | .ok _, .error carriedOut => (Delivery.error carriedOut).rest previous
  | .ok _, .done => insertion.parts new

/-- No part of a list is left: the fetch raises; or the deletion fails and has deleted nothing, or
has left what was fetched; or the insertion has inserted everything, or what was there before. -/
def Spared (field : String) (fetched : Except CacheError (List Document))
    (deletion insertion : Delivery) (previous new : List Document) : Prop :=
  match fetched, deletion with
  | .error _, _ => True
  | .ok entries, .error carriedOut =>
      (Delivery.error carriedOut).rest previous = previous ∨
        ((Delivery.error carriedOut).rest previous).map (stripped field) = entries
  | .ok _, .done => insertion.parts new = new ∨ insertion.parts new = previous

/-! ## The parts of the read -/

section Parts

variable {listing : Listing} {redis : Bool} {circumstances : Circumstances σ} {world : World}
  {state : σ}

/-- A call that changes nothing changes nothing. -/
theorem handle_of_reads {op : Op} {moment : World × σ} (hreads : Reads op) :
    (circumstances.handle op moment).2.1 = moment.1 := by
  cases op with
  | mget _ => rfl
  | utcnow => rfl
  | get => rfl
  | _ => exact absurd hreads id

/-- A look leaves everything as it is. -/
theorem eval_look (moment : World × σ) :
    ((listing.look redis).eval circumstances.handle moment).2 = moment := by
  have hissues : (listing.look redis).Issues fun op => op = Op.mget [listing.key] :=
    Listing.issues_look rfl
  refine hissues.eval_invariant (fun later => later = moment) ?_ rfl
  rintro _ later rfl hlater
  exact hlater

variable (circumstances) in
/-- A fetch leaves the world as it is. -/
theorem eval_fetch (fetch : Fetch listing.entryType) (moment : World × σ) :
    (fetch.program.eval circumstances.handle moment).2.1 = moment.1 := by
  have hreads : fetch.program.Issues Reads :=
    fetch.requests.mono fun op hget => by cases op <;> trivial
  refine hreads.eval_invariant (fun later : World × σ => later.1 = moment.1) ?_ rfl
  exact fun op later hop hlater => (handle_of_reads hop).trans hlater

variable (circumstances) in
/-- The documents of a list can always be made. -/
theorem eval_taggedDocuments {entries : List Document}
    (hentries : ∀ entry ∈ entries, listing.entryType.IsInstance entry) (world : World) (state : σ) :
    ∃ new later, (taggedDocuments listing.field listing.id entries).eval circumstances.handle
      (world, state) = (.ok new, (world, later)) ∧ listing.Documents entries new := by
  induction entries generalizing state with
  | nil => exact ⟨[], state, rfl, List.forall_mem_nil _, rfl⟩
  | cons entry entries ih =>
      obtain ⟨hentry, hrest⟩ := List.forall_mem_cons.mp hentries
      obtain ⟨new, later, heval, hnew⟩ := ih hrest (circumstances.utcnow state).2
      have hnow : (await .utcnow).eval circumstances.handle (world, state) =
          (.ok (circumstances.utcnow state).1, (world, (circumstances.utcnow state).2)) :=
        Program.eval_perform _ _
      refine ⟨taggedDocument listing.field listing.id (circumstances.utcnow state).1 entry :: new,
        later, ?_, Listing.documents_cons hentry hnew⟩
      rw [taggedDocuments, Program.eval_bind_of_ok hnow, Program.eval_bind_of_ok heval]
      rfl

/-- Setting the key of a list leaves its documents as they are. -/
theorem eval_setManyCached (items : List (String × Value)) (ttlSeconds : ℕ)
    (moment : World × σ) :
    ((setManyCached redis items ttlSeconds).eval circumstances.handle moment).2.1.mirror =
      moment.1.mirror := by
  have hissues : (setManyCached redis items ttlSeconds).Issues fun op =>
      op = Op.setMany items ttlSeconds := issues_setManyCached redis rfl
  refine hissues.eval_invariant (fun later : World × σ => later.1.mirror = moment.1.mirror) ?_ rfl
  rintro _ later rfl hlater
  exact hlater

variable (circumstances world) in
/-- **What a list has been replaced by**, whatever comes of the calls. -/
theorem documents_of_replaceDocuments {entries : List Document}
    (hentries : ∀ entry ∈ entries, listing.entryType.IsInstance entry) (state : σ) :
    ∃ new, listing.Documents entries new ∧
      listing.documents ((replaceDocuments listing.collectionName listing.field listing.id
        entries).eval circumstances.handle (world, state)).2.1 =
        leftBy (.ok entries) circumstances.deletion circumstances.insertion
          (listing.documents world) new := by
  obtain ⟨new, later, hmade, hnew⟩ := eval_taggedDocuments circumstances hentries
    (world.deleteMany listing.collectionName listing.field listing.id circumstances.deletion) state
  refine ⟨new, hnew, ?_⟩
  have hdelete : (await (.deleteMany listing.collectionName listing.field listing.id)).eval
      circumstances.handle (world, state) =
        (circumstances.deletion.answer .database (), (world.deleteMany listing.collectionName
          listing.field listing.id circumstances.deletion, state)) :=
    Program.eval_perform _ _
  rw [replaceDocuments]
  cases hdeletion : circumstances.deletion with
  | error carriedOut =>
      rw [hdeletion] at hdelete
      rw [Program.eval_bind_of_error hdelete]
      -- nothing follows a deletion that fails
      exact Listing.documents_deleteMany world _
  | done =>
      rw [hdeletion] at hdelete hmade
      rw [Program.eval_bind_of_ok hdelete]
      have hgone := @Listing.documents_deleteMany_done listing world
      split
      · rename_i hempty
        subst hempty
        -- no document: then nothing is inserted
        obtain rfl : new = [] := List.map_eq_nil_iff.mp hnew.stripped
        refine hgone.trans (List.sublist_nil.mp ?_).symm
        exact circumstances.insertion.parts_sublist []
      · rw [Program.eval_bind_of_ok hmade, await, Program.eval_perform]
        have htagged : ∀ document ∈ circumstances.insertion.parts new,
            document.field listing.field = idValue listing.id :=
          fun document hdocument => hnew.tagged document (Delivery.mem_of_mem_parts hdocument)
        refine (Listing.documents_insertMany _ htagged).trans ?_
        rw [hgone, List.nil_append]
        rfl

variable (redis) in
/-- Nothing that a read does after replacing the documents changes them. -/
theorem documents_of_store (entries : List Document) (moment : World × σ) :
    listing.documents ((listing.store redis entries).eval circumstances.handle moment).2.1 =
      listing.documents ((replaceDocuments listing.collectionName listing.field listing.id
        entries).eval circumstances.handle moment).2.1 := by
  rw [Listing.store]
  cases hreplaced : (replaceDocuments listing.collectionName listing.field listing.id
      entries).eval circumstances.handle moment with
  | mk outcome replaced =>
      cases outcome with
      | error error => rw [Program.eval_bind_of_error hreplaced]
      | ok value =>
          rw [Program.eval_bind_of_ok hreplaced, Listing.documents, eval_setManyCached,
            Listing.documents]

end Parts

/-! ## The whole read -/

section Refresh

variable {listing : Listing} {redis : Bool} {fetch : Fetch listing.entryType}
  {circumstances : Circumstances σ} {world : World} {state : σ}

variable (fetch) in
/-- A read that misses fetches the list and stores it. -/
theorem documents_afterRead (hmisses : listing.Misses redis circumstances world state) :
    (∃ error, listing.fetched fetch circumstances world state = .error error ∧
      listing.afterRead redis fetch circumstances world state = world) ∨
    ∃ entries later, listing.fetched fetch circumstances world state = .ok entries ∧
      (∀ entry ∈ entries, listing.entryType.IsInstance entry) ∧
      listing.documents (listing.afterRead redis fetch circumstances world state) =
        listing.documents ((replaceDocuments listing.collectionName listing.field listing.id
          entries).eval circumstances.handle (world, later)).2.1 := by
  have hlook : (listing.look redis).eval circumstances.handle (world, state) =
      (.ok none, (world, state)) := Prod.ext hmisses (eval_look _)
  have hread : (listing.read redis fetch).eval circumstances.handle (world, state) =
      (listing.refill redis fetch).eval circumstances.handle (world, state) := by
    rw [Listing.read_eq, Program.eval_bind_of_ok hlook]
    rfl
  have hworld := eval_fetch circumstances fetch (world, state)
  unfold Listing.afterRead Listing.fetched
  rw [hread, Listing.refill]
  cases hfetch : fetch.program.eval circumstances.handle (world, state) with
  | mk outcome moment =>
      obtain ⟨unchanged, later⟩ := moment
      rw [hfetch] at hworld
      obtain rfl : unchanged = world := hworld
      cases outcome with
      | error error =>
          rw [Program.eval_bind_of_error hfetch]
          -- nothing has been stored
          exact Or.inl ⟨error, rfl, rfl⟩
      | ok entries =>
          -- whatever becomes of the Redis write, the documents have been replaced before
          refine Or.inr ⟨entries, later, rfl, fetch.instances.of_eval hfetch, ?_⟩
          rw [Program.eval_bind_of_ok hfetch, ← documents_of_store redis]
          cases hstore : (listing.store redis entries).eval circumstances.handle
              (unchanged, later) with
          | mk outcome stored =>
              cases outcome with
              | error error => rw [Program.eval_bind_of_error hstore]
              | ok value =>
                  rw [Program.eval_bind_of_ok hstore]
                  rfl

/-- What is spared is what is left as a whole. -/
theorem spared_iff {fetched : Except CacheError (List Document)} {deletion insertion : Delivery}
    {previous new : List Document}
    (hnew : ∀ entries, fetched = .ok entries → listing.Documents entries new) :
    (leftBy fetched deletion insertion previous new = previous ∨ ∃ entries, fetched = .ok entries ∧
      (leftBy fetched deletion insertion previous new).map (stripped listing.field) = entries) ↔
      Spared listing.field fetched deletion insertion previous new := by
  cases fetched with
  | error error => exact iff_of_true (Or.inl rfl) trivial
  | ok entries =>
      simp only [Except.ok.injEq, exists_eq_left']
      cases deletion with
      | error carriedOut => rfl
      | done =>
          -- what is inserted is the whole list exactly if none of it is missing
          have hall : (insertion.parts new).map (stripped listing.field) = entries ↔
              insertion.parts new = new := by
            rw [← (hnew entries rfl).stripped]
            constructor
            · intro hsame
              refine (insertion.parts_sublist new).eq_of_length ?_
              rw [← List.length_map (stripped listing.field), hsame, List.length_map]
            · intro hsame
              rw [hsame]
          rw [Spared, leftBy, hall, or_comm]

/-- **What a refresh leaves of a list**, wherever it fails, and when this is all or nothing. -/
theorem documents_of_refresh (hmisses : listing.Misses redis circumstances world state) :
    ∃ new, (∀ entries, listing.fetched fetch circumstances world state = .ok entries →
        listing.Documents entries new) ∧
      listing.documents (listing.afterRead redis fetch circumstances world state) =
        leftBy (listing.fetched fetch circumstances world state) circumstances.deletion
          circumstances.insertion (listing.documents world) new ∧
      (listing.AllOrNothing redis fetch circumstances world state ↔
        Spared listing.field (listing.fetched fetch circumstances world state)
          circumstances.deletion circumstances.insertion (listing.documents world) new) := by
  obtain ⟨new, hnew, hleft⟩ : ∃ new,
      (∀ entries, listing.fetched fetch circumstances world state = .ok entries →
        listing.Documents entries new) ∧
      listing.documents (listing.afterRead redis fetch circumstances world state) =
        leftBy (listing.fetched fetch circumstances world state) circumstances.deletion
          circumstances.insertion (listing.documents world) new := by
    rcases documents_afterRead fetch hmisses with
      ⟨error, hfetched, hafter⟩ | ⟨entries, later, hfetched, hentries, hafter⟩
    · rw [hfetched, hafter]
      exact ⟨[], nofun, rfl⟩
    · obtain ⟨new, hnew, hreplaced⟩ := documents_of_replaceDocuments circumstances world hentries later
      rw [hfetched, hafter, hreplaced]
      exact ⟨new, fun other hother => Except.ok.inj hother ▸ hnew, rfl⟩
  refine ⟨new, hnew, hleft, ?_⟩
  rw [Listing.AllOrNothing, Listing.mirrored, hleft]
  exact spared_iff hnew

end Refresh

/-! ## A list that is lost -/

/-- ESI answers with one page, and the calls of MongoDB and Redis are carried out up to the given
one of each. -/
def onePage (insertion keeping : Delivery) : Circumstances Unit where
  get _ _ _ _ state := (.ok ⟨[sampleAsset], 1⟩, state)
  utcnow state := (0, state)
  look := .done
  deletion := .done
  insertion := insertion
  keeping := keeping

/-- The sample has a document. -/
def sampleWorld : World :=
  emptyWorld.insertMany sampleListing.collectionName
    [taggedDocument sampleListing.field sampleListing.id 0 sampleAsset]

/-- A failure of Redis does no harm. -/
theorem allOrNothing_unkept :
    sampleListing.AllOrNothing true sampleFetch (onePage .done (.error [])) sampleWorld () := by
  obtain ⟨new, -, -, hiff⟩ := @documents_of_refresh Unit sampleListing true sampleFetch
    (onePage .done (.error [])) sampleWorld () rfl
  exact hiff.mpr (Or.inl rfl)

/-- A failure of `insert_many` loses what was there before. -/
theorem not_allOrNothing_uninserted :
    sampleListing.Misses true (onePage (.error []) .done) sampleWorld () ∧
      ¬ sampleListing.AllOrNothing true sampleFetch (onePage (.error []) .done) sampleWorld () := by
  refine ⟨rfl, ?_⟩
  rintro (hprevious | ⟨entries, hfetched, hnew⟩)
  · cases hprevious
  · cases hfetched
    cases hnew

end EveBuild.Cache
