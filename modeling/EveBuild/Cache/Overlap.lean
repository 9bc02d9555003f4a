import EveBuild.Cache.Requests
import EveBuild.Effect.Replay

/-!
# Two reads of a list at once

Two reads of the same list miss the cache at the same time.  Each deletes the documents of
the list and inserts its own.  `overlap_iff` says when the documents are in the end one of
the two lists: a list is empty, or one read has inserted its documents before the other has
deleted them.  Nothing sees to that, and `overlap_doubles` is a run in which every document
is there twice.
-/

namespace EveBuild.Cache

open Effect

/-! ## What becomes of the documents -/

/-- The call changes documents. -/
def Stores : Op → Bool
  | .deleteMany .. | .insertMany .. => true
  | _ => false

/-- What a call of a read does to the documents of its list. -/
def Op.restock : Op → List Document → List Document
  | .deleteMany .., _ => []
  | .insertMany _ documents, stock => stock ++ documents
  | _, stock => stock

theorem not_stores_of_reads {op : Op} (hop : Reads op) : Stores op = false := by
  cases op <;> first | rfl | cases hop

namespace Listing

variable {listing : Listing} {redis : Bool}

/-- If the call changes documents, it has been carried out for those of the list. -/
def Certain (listing : Listing) : Call signature CacheError → Prop
  | ⟨.deleteMany collectionName field id, answer⟩ =>
      collectionName = listing.collectionName ∧ field = listing.field ∧ id = listing.id ∧
        answer = .ok ()
  | ⟨.insertMany collectionName documents, answer⟩ =>
      collectionName = listing.collectionName ∧
        (∀ document ∈ documents, document.field listing.field = idValue listing.id) ∧
        answer = .ok ()
  | _ => True

theorem certain_of_not_stores {call : Call signature CacheError} (hcall : Stores call.op = false) :
    listing.Certain call := by
  obtain ⟨op, answer⟩ := call
  cases op <;> trivial

/-- **Restocking.** -/
theorem documents_of_respond {op : Op} {choice : Choice} {world later : World}
    {answer : Except CacheError op.Answer}
    (hrespond : respond op choice world = some (answer, later))
    (hcertain : listing.Certain ⟨op, answer⟩) :
    listing.documents later = op.restock (listing.documents world) := by
  cases op <;> cases choice <;>
    simp only [respond, Option.some.injEq, Prod.mk.injEq, reduceCtorEq] at hrespond
  case deleteMany.database collectionName field id delivery =>
    obtain ⟨rfl, rfl, rfl, hok⟩ := hcertain
    obtain ⟨rfl, rfl⟩ := hrespond
    cases delivery with
    | done => exact documents_deleteMany_done world
    | error carriedOut => cases hok
  case insertMany.database collectionName documents delivery =>
    obtain ⟨rfl, htagged, hok⟩ := hcertain
    obtain ⟨rfl, rfl⟩ := hrespond
    cases delivery with
    | done => exact documents_insertMany world htagged
    | error carriedOut => cases hok
  all_goals
    obtain ⟨_, rfl⟩ := hrespond
    rfl

theorem restock_of_not_stores {op : Op} (hop : Stores op = false) (stock : List Document) :
    op.restock stock = stock := by
  cases op <;> first | rfl | cases hop

/-- The calls of a read that change documents. -/
def storing (listing : Listing) (entries documents : List Document) : CacheLog :=
  (if entries = [] then [] else [⟨.insertMany listing.collectionName documents, .ok ()⟩]) ++
    [⟨.deleteMany listing.collectionName listing.field listing.id, .ok ()⟩]

theorem filter_stores_eq_nil {log : CacheLog} (hlog : ∀ call ∈ log, Stores call.op = false) :
    (log.filter fun call => Stores call.op) = [] :=
  List.filter_eq_nil_iff.mpr fun call hcall => by rw [hlog call hcall]; decide

theorem stores_inserts {entries : List Document} {inserts : CacheLog}
    (hinserts : listing.Inserts entries inserts) :
    ∃ documents, listing.Documents entries documents ∧
      (inserts.filter fun call => Stores call.op) =
        (if entries = [] then [] else
          [⟨.insertMany listing.collectionName documents, .ok ()⟩]) ∧
      ∀ call ∈ inserts, listing.Certain call := by
  cases hinserts with
  | none hentries =>
      subst hentries
      exact ⟨[], ⟨List.forall_mem_nil _, rfl⟩, rfl, List.forall_mem_nil _⟩
  | @some documents clocks hentries hdocuments hclocks =>
      have hticks : ∀ call ∈ clocks, Stores call.op = false := by
        intro call hcall
        rw [hclocks call hcall]
        rfl
      refine ⟨documents, hdocuments, ?_, List.forall_mem_cons.mpr
        ⟨⟨rfl, hdocuments.tagged, rfl⟩, fun call hcall => certain_of_not_stores (hticks call hcall)⟩⟩
      rw [List.filter_cons_of_pos rfl, filter_stores_eq_nil hticks, if_neg hentries]

/-- **What a read that has missed does to the documents.** -/
theorem stores_of_ran {fetch : Fetch listing.entryType} {own : CacheLog} {entries : List Document}
    (hran : Program.Ran (listing.read redis fetch) own (.ok entries))
    (hyields : listing.Yields redis fetch own entries) :
    ∃ documents, listing.Documents entries documents ∧
      (own.filter fun call => Stores call.op) = listing.storing entries documents ∧
      ∀ call ∈ own, listing.Certain call := by
  rcases ran_read hran with ⟨_, _, hlook⟩ | ⟨error, herror, _⟩ | ⟨error, _, _, herror, _⟩ |
    ⟨_, looked, gets, stored, result, rfl, hfetches, hstored, hresult⟩
  · exact absurd hyields (not_yields hlook (by simp) entries)
  · cases herror
  · cases herror
  cases result with
  | error error => cases hresult
  | ok value =>
      obtain rfl := Except.ok.inj hresult
      obtain ⟨sets, inserts, rfl, hsets, hinserts⟩ :=
        ran_store (fetch.instances.of_ran hfetches.gets) hstored
      obtain ⟨documents, hdocuments, hfilter, hcertain⟩ := stores_inserts hinserts
      -- only the deletion and the insertion store documents
      have hreads : ∀ call ∈ gets ++ looked, Stores call.op = false := fun call hcall =>
        not_stores_of_reads (hfetches.reads call hcall)
      have hset : ∀ call ∈ sets, Stores call.op = false := by
        cases hsets with
        | disabled => exact List.forall_mem_nil _
        | enabled answer => exact List.forall_mem_singleton.mpr rfl
      refine ⟨documents, hdocuments, ?_, ?_⟩
      · rw [List.filter_append, List.filter_append, List.filter_append, filter_stores_eq_nil hreads,
          filter_stores_eq_nil hset, hfilter]
        simp [storing, Stores]
      · refine List.forall_mem_append.mpr ⟨List.forall_mem_append.mpr ⟨?_, ?_⟩, ?_⟩
        · exact fun call hcall => certain_of_not_stores (hset call hcall)
        · exact List.forall_mem_append.mpr
            ⟨hcertain, List.forall_mem_singleton.mpr ⟨rfl, rfl, rfl, rfl⟩⟩
        · exact fun call hcall => certain_of_not_stores (hreads call hcall)

/-- A read that has come to its documents has fetched what it returns. -/
theorem yields_of_stores {fetch : Fetch listing.entryType} {own : CacheLog}
    {entries : List Document} (hran : Program.Ran (listing.read redis fetch) own (.ok entries))
    (hstores : own.any fun call => Stores call.op) : listing.Yields redis fetch own entries := by
  rcases ran_read hran with ⟨_, _, hlook⟩ | ⟨error, herror, _⟩ | ⟨error, _, _, herror, _⟩ |
    ⟨_, looked, gets, stored, result, hown, hfetches, _, hresult⟩
  · have hissues : (listing.look redis).Issues Reads := issues_look trivial
    obtain ⟨call, hcall, hstore⟩ := List.any_eq_true.mp hstores
    cases (not_stores_of_reads (hissues.of_ran hlook call hcall)).symm.trans hstore
  · cases herror
  · cases herror
  · cases result with
    | error error => cases hresult
    | ok value =>
        obtain rfl := Except.ok.inj hresult
        exact ⟨looked, gets, stored, hown, hfetches⟩

/-! ## Two reads -/

/-- One read has inserted documents of the list before the other has deleted them; the trace
has the newest call first. -/
def InsertsBefore (listing : Listing) (trace : List (ℕ × Call signature CacheError))
    (thread other : ℕ) : Prop :=
  ∃ documents, [(other, ⟨.deleteMany listing.collectionName listing.field listing.id, .ok ()⟩),
    (thread, ⟨.insertMany listing.collectionName documents, .ok ()⟩)].Sublist trace

/-- Calls that change no documents do not matter. -/
theorem foldr_restock (trace : List (ℕ × Call signature CacheError)) (stock : List Document) :
    trace.foldr (fun entry stock => entry.2.op.restock stock) stock =
      (trace.filter fun entry => Stores entry.2.op).foldr
        (fun entry stock => entry.2.op.restock stock) stock := by
  induction trace with
  | nil => rfl
  | cons entry trace ih =>
      cases hstores : Stores entry.2.op with
      | false =>
          rw [List.filter_cons_of_neg (by simp [hstores]), List.foldr_cons,
            restock_of_not_stores hstores, ih]
      | true => rw [List.filter_cons_of_pos (by simpa using hstores), List.foldr_cons,
          List.foldr_cons, ih]

theorem insertsBefore_filter {trace : List (ℕ × Call signature CacheError)} {thread other : ℕ} :
    listing.InsertsBefore trace thread other ↔
      listing.InsertsBefore (trace.filter fun entry => Stores entry.2.op) thread other := by
  refine exists_congr fun documents => ⟨fun hsublist => ?_, fun hsublist => ?_⟩
  · simpa [Stores] using hsublist.filter fun entry => Stores entry.2.op
  · exact hsublist.trans List.filter_sublist

section Merges

variable {first second firstDocuments secondDocuments : List Document}
  {trace : List (ℕ × Call signature CacheError)}

/-- A read that inserts nothing leaves nothing, or what the other one has inserted. -/
theorem restock_of_empty {one other : ℕ}
    (hmerges : Merges one other (listing.storing [] firstDocuments)
      (listing.storing second secondDocuments) trace) (stock : List Document) :
    trace.foldr (fun entry stock => entry.2.op.restock stock) stock = [] ∨
      second ≠ [] ∧
        trace.foldr (fun entry stock => entry.2.op.restock stock) stock = secondDocuments := by
  by_cases hsecond : second = []
  · rw [storing, if_pos rfl, storing, if_pos hsecond] at hmerges
    simp only [List.nil_append, merges_cons_cons, nil_merges, merges_nil, List.map_cons,
      List.map_nil] at hmerges
    rcases hmerges with ⟨_, rfl, rfl⟩ | ⟨_, rfl, rfl⟩
    · exact Or.inl rfl
    · exact Or.inl rfl
  · rw [storing, if_pos rfl, storing, if_neg hsecond] at hmerges
    simp only [List.nil_append, List.cons_append, merges_cons_cons, nil_merges, merges_nil,
      List.map_cons, List.map_nil] at hmerges
    rcases hmerges with ⟨_, rfl, rfl⟩ | ⟨_, rfl, ⟨_, rfl, rfl⟩ | ⟨_, rfl, rfl⟩⟩
    · exact Or.inl rfl
    · exact Or.inr ⟨hsecond, rfl⟩
    · exact Or.inr ⟨hsecond, rfl⟩

/-- Two reads that both insert documents: one is over before the other deletes, or both
lists are there. -/
theorem restock_of_nonempty (hfirst : first ≠ []) (hsecond : second ≠ [])
    (hmerges : Merges 0 1 (listing.storing first firstDocuments)
      (listing.storing second secondDocuments) trace) (stock : List Document) :
    (listing.InsertsBefore trace 0 1 ∨ listing.InsertsBefore trace 1 0) ∧
        (trace.foldr (fun entry stock => entry.2.op.restock stock) stock = firstDocuments ∨
          trace.foldr (fun entry stock => entry.2.op.restock stock) stock = secondDocuments) ∨
      (¬listing.InsertsBefore trace 0 1 ∧ ¬listing.InsertsBefore trace 1 0) ∧
        (trace.foldr (fun entry stock => entry.2.op.restock stock) stock).Perm
          (firstDocuments ++ secondDocuments) := by
  rw [storing, if_neg hfirst, storing, if_neg hsecond] at hmerges
  simp only [List.nil_append, List.cons_append, merges_cons_cons, nil_merges, merges_nil,
    List.map_cons, List.map_nil] at hmerges
  -- the six merges of one deletion and insertion with another
  rcases hmerges with
    ⟨_, rfl, ⟨_, rfl, rfl⟩ | ⟨_, rfl, ⟨_, rfl, rfl⟩ | ⟨_, rfl, rfl⟩⟩⟩ |
    ⟨_, rfl, ⟨_, rfl, ⟨_, rfl, rfl⟩ | ⟨_, rfl, rfl⟩⟩ | ⟨_, rfl, rfl⟩⟩
  · refine Or.inl ⟨Or.inr ⟨secondDocuments, ?_⟩, Or.inl rfl⟩
    simp [List.sublist_cons_iff]
  · refine Or.inr ⟨?_, List.perm_append_comm⟩
    simp [InsertsBefore, List.sublist_cons_iff]
  · refine Or.inr ⟨?_, List.perm_append_comm⟩
    simp [InsertsBefore, List.sublist_cons_iff]
  · refine Or.inr ⟨?_, List.Perm.refl _⟩
    simp [InsertsBefore, List.sublist_cons_iff]
  · refine Or.inr ⟨?_, List.Perm.refl _⟩
    simp [InsertsBefore, List.sublist_cons_iff]
  · refine Or.inl ⟨Or.inl ⟨firstDocuments, ?_⟩, Or.inr rfl⟩
    simp [List.sublist_cons_iff]

/-- **The merges of two reads.** -/
theorem restock_iff (hfirst : listing.Documents first firstDocuments)
    (hsecond : listing.Documents second secondDocuments)
    (hmerges : Merges 0 1 (listing.storing first firstDocuments)
      (listing.storing second secondDocuments) trace) (stock : List Document) :
    (((trace.foldr (fun entry stock => entry.2.op.restock stock) stock).map
        (stripped listing.field)).Perm first ∨
      ((trace.foldr (fun entry stock => entry.2.op.restock stock) stock).map
        (stripped listing.field)).Perm second) ↔
    first = [] ∨ second = [] ∨
      listing.InsertsBefore trace 0 1 ∨ listing.InsertsBefore trace 1 0 := by
  by_cases hfirstEmpty : first = []
  · subst hfirstEmpty
    refine iff_of_true ?_ (Or.inl rfl)
    rcases restock_of_empty hmerges stock with hstock | ⟨_, hstock⟩
    · rw [hstock]
      exact Or.inl (List.Perm.refl _)
    · rw [hstock, hsecond.stripped]
      exact Or.inr (List.Perm.refl _)
  by_cases hsecondEmpty : second = []
  · subst hsecondEmpty
    refine iff_of_true ?_ (Or.inr (Or.inl rfl))
    rcases restock_of_empty hmerges.symm stock with hstock | ⟨_, hstock⟩
    · rw [hstock]
      exact Or.inr (List.Perm.refl _)
    · rw [hstock, hfirst.stripped]
      exact Or.inl (List.Perm.refl _)
  simp only [hfirstEmpty, hsecondEmpty, false_or]
  rcases restock_of_nonempty hfirstEmpty hsecondEmpty hmerges stock with
    ⟨hordered, hstock⟩ | ⟨hcrossed, hstock⟩
  · refine iff_of_true ?_ hordered
    rcases hstock with hstock | hstock
    · rw [hstock, hfirst.stripped]
      exact Or.inl (List.Perm.refl _)
    · rw [hstock, hsecond.stripped]
      exact Or.inr (List.Perm.refl _)
  · -- both lists are there, so that there are too many documents
    refine iff_of_false ?_ (not_or.mpr hcrossed)
    have hboth := hstock.map (stripped listing.field)
    rw [List.map_append, hfirst.stripped, hsecond.stripped] at hboth
    have hfirstLength := List.length_pos_iff.mpr hfirstEmpty
    have hsecondLength := List.length_pos_iff.mpr hsecondEmpty
    rintro (hperm | hperm)
    · have hlength := (hboth.symm.trans hperm).length_eq
      rw [List.length_append] at hlength
      omega
    · have hlength := (hboth.symm.trans hperm).length_eq
      rw [List.length_append] at hlength
      omega

end Merges

end Listing

/-! ## Two reads in a run -/

section Runs

variable {redis : Bool} {world : World} {config : RequestConfig} {listing : Listing}
  {firstFetch secondFetch : Fetch listing.entryType} {first second : List Document}

/-- **When two reads of a list that miss at the same time leave one of their lists.**  After
both have returned, the documents of the list are one copy of the list that one of them has
fetched if and only if one of the lists is empty, or one of the reads has inserted its
documents before the other has deleted. -/
theorem overlap_iff
    (hreaches : (requesting redis).Reaches .free (Config.initial _ _ _ _ world) config)
    (hstarts : config.moment.starts = [.read listing firstFetch, .read listing secondFetch])
    (hfirst : config.threads 0 = some (.ret (.list first)))
    (hsecond : config.threads 1 = some (.ret (.list second)))
    (hfirstYields : listing.Yields redis firstFetch (config.moment.logOf 0) first)
    (hsecondYields : listing.Yields redis secondFetch (config.moment.logOf 1) second) :
    ((listing.mirrored config.moment.world).Perm first ∨
      (listing.mirrored config.moment.world).Perm second) ↔
    first = [] ∨ second = [] ∨ listing.InsertsBefore config.moment.trace 0 1 ∨
      listing.InsertsBefore config.moment.trace 1 0 := by
  have hlogged := logged_of_reaches hreaches
  have hfirstStart : config.moment.starts[0]? = some (.read listing firstFetch) := by
    rw [hstarts]
    rfl
  have hsecondStart : config.moment.starts[1]? = some (.read listing secondFetch) := by
    rw [hstarts]
    rfl
  obtain ⟨firstDocuments, hfirstDocuments, hfirstStores, hfirstCertain⟩ :=
    Listing.stores_of_ran (ran_of_returned hlogged hfirstStart hfirst) hfirstYields
  obtain ⟨secondDocuments, hsecondDocuments, hsecondStores, hsecondCertain⟩ :=
    Listing.stores_of_ran (ran_of_returned hlogged hsecondStart hsecond) hsecondYields
  have hthreads : ∀ entry ∈ config.moment.trace, entry.1 = 0 ∨ entry.1 = 1 := by
    intro entry hentry
    have hlt := hlogged.trace entry hentry
    rw [hstarts] at hlt
    simp only [List.length_cons, List.length_nil] at hlt
    omega
  have hcertain : ∀ entry ∈ config.moment.trace, listing.Certain entry.2 := by
    rintro ⟨thread, call⟩ hentry
    have hcall := Moment.mem_logOf.mpr hentry
    rcases hthreads _ hentry with rfl | rfl
    · exact hfirstCertain call hcall
    · exact hsecondCertain call hcall
  -- the documents are what the answered calls have made of them, one after the other
  have hreplay : listing.documents config.moment.world =
      config.moment.trace.foldr (fun entry stock => entry.2.op.restock stock)
        (listing.documents world) := by
    refine hreaches.replay ?_ (fun _ _ => rfl) ?_
      (fun _ _ _ _ _ _ hrespond hcall => Listing.documents_of_respond hrespond hcall) hcertain
    · intro thread start world later henter
      obtain rfl := Option.some_inj.mp henter
      rfl
    · rintro ⟨key⟩ world later htick
      obtain rfl := Option.some_inj.mp htick
      rfl
  -- and these calls are a merge of the four that store
  have hmerges := merges_filter Nat.zero_ne_one hthreads fun call => Stores call.op
  rw [← Moment.logOf, ← Moment.logOf, hfirstStores, hsecondStores] at hmerges
  rw [Listing.mirrored, hreplay, Listing.foldr_restock,
    Listing.restock_iff hfirstDocuments hsecondDocuments hmerges, ← Listing.insertsBefore_filter,
    ← Listing.insertsBefore_filter]

end Runs

/-! ## Two reads of the assets -/

/-- Both reads look into Redis, and are answered by ESI. -/
def missedEvents : List RequestEvent :=
  [.start (.read sampleListing sampleFetch), .start (.read sampleListing sampleFetch),
    .call 0 (.redis .done), .call 1 (.redis .done), .call 0 (.esi (.ok ⟨[sampleAsset], 1⟩)),
    .call 1 (.esi (.ok ⟨[sampleAsset], 1⟩))]

/-- A read deletes the documents. -/
def deleteEvents (thread : ℕ) : List RequestEvent := [.call thread (.database .done)]

/-- A read inserts its document and sets the key. -/
def insertEvents (thread : ℕ) : List RequestEvent :=
  [.call thread (.utcnow 0), .call thread (.database .done), .call thread (.redis .done)]

def orderedEvents : List RequestEvent :=
  missedEvents ++ deleteEvents 0 ++ insertEvents 0 ++ deleteEvents 1 ++ insertEvents 1

def crossedEvents : List RequestEvent :=
  missedEvents ++ deleteEvents 0 ++ deleteEvents 1 ++ insertEvents 0 ++ insertEvents 1

/-- The second read deletes what the first one has inserted. -/
theorem overlap_iff_ordered :
    (sampleListing.mirrored (requestedAfter orderedEvents).moment.world).Perm [sampleAsset] ∨
      (sampleListing.mirrored (requestedAfter orderedEvents).moment.world).Perm [sampleAsset] := by
  have hreaches : (requesting true).Reaches .free (Config.initial _ _ _ _ emptyWorld)
      (requestedAfter orderedEvents) := reaches_events orderedEvents rfl
  have hyields : ∀ thread, thread < 2 → sampleListing.Yields true sampleFetch
      ((requestedAfter orderedEvents).moment.logOf thread) [sampleAsset] := by
    intro thread hthread
    obtain rfl | rfl : thread = 0 ∨ thread = 1 := by omega
    · exact Listing.yields_of_stores (ran_of_returned (logged_of_reaches hreaches) rfl rfl) rfl
    · exact Listing.yields_of_stores (ran_of_returned (logged_of_reaches hreaches) rfl rfl) rfl
  refine (overlap_iff hreaches rfl rfl rfl (hyields 0 (by decide)) (hyields 1 (by decide))).mpr ?_
  refine Or.inr (Or.inr (Or.inl ⟨[taggedDocument "character_id" (some 7) 0 sampleAsset], ?_⟩))
  -- the second read has set the key, inserted, and looked at the clock since it has deleted
  refine .cons _ (.cons _ (.cons _ (.cons_cons _ (.cons _ (.cons_cons _ (List.nil_sublist _))))))

/-- **Both lists are there.**  Both reads delete, and then both insert. -/
theorem overlap_doubles :
    (requesting true).Reaches .free (Config.initial _ _ _ _ emptyWorld)
      (requestedAfter crossedEvents) ∧
    (requestedAfter crossedEvents).moment.starts =
      [.read sampleListing sampleFetch, .read sampleListing sampleFetch] ∧
    (∀ thread < 2, (requestedAfter crossedEvents).threads thread = some (.ret (.list [sampleAsset])) ∧
      sampleListing.Yields true sampleFetch
        ((requestedAfter crossedEvents).moment.logOf thread) [sampleAsset]) ∧
    ¬(sampleListing.mirrored (requestedAfter crossedEvents).moment.world).Perm [sampleAsset] := by
  have hreaches : (requesting true).Reaches .free (Config.initial _ _ _ _ emptyWorld)
      (requestedAfter crossedEvents) := reaches_events crossedEvents rfl
  refine ⟨hreaches, rfl, fun thread hthread => ?_, fun hperm => ?_⟩
  · obtain rfl | rfl : thread = 0 ∨ thread = 1 := by omega
    · exact ⟨rfl, Listing.yields_of_stores (ran_of_returned (logged_of_reaches hreaches) rfl rfl) rfl⟩
    · exact ⟨rfl, Listing.yields_of_stores (ran_of_returned (logged_of_reaches hreaches) rfl rfl) rfl⟩
  · exact absurd hperm.length_eq (by decide)

end EveBuild.Cache
