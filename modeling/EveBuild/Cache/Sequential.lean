import EveBuild.Cache.Reads

/-!
# Reads one after the other

`Used` are the runs in which lists are read and invalidated one after the other, with all
calls of Redis and MongoDB carried out, any answers of ESI, and keys that expire in between.
They start with no key of a list in Redis, and any documents in MongoDB.

In such a run the documents of a list are those of the entries under its key, for all lists
at once (`Agrees`), and a read returns what the last fetch has returned (`cache_agrees`).
-/

namespace EveBuild.Cache

open Effect

/-! ## Runs -/

/-- Redis and MongoDB carry a call out. -/
def Choice.Succeeds : Choice → Prop
  | .redis delivery => delivery = .done
  | .database delivery => delivery = .done
  | _ => True

abbrev Success := {choice : Choice // choice.Succeeds}

/-- An answer in such a run. -/
def Succeeds (op : Op) (world : World) (answer : Except CacheError op.Answer) (later : World) :
    Prop :=
  ∃ choice : Success, respond op choice.1 world = some (answer, later)

/-- What is done. -/
inductive Use
  | read (listing : Listing) (fetch : Fetch listing.entryType) (own : CacheLog)
      (outcome : Except CacheError (List Document))
  | invalidate (listing : Listing) (own : CacheLog) (outcome : Except CacheError Unit)
  | expire (key : String)

/-- What is done to the world. -/
inductive Use.Does (redis : Bool) (world : World) : Use → World → Prop
  | read {listing fetch own outcome later}
      (hran : Program.Ran (listing.read redis fetch) own outcome)
      (hanswered : Program.Answered Succeeds world own later) :
      Does redis world (.read listing fetch own outcome) later
  | invalidate {listing own outcome later}
      (hran : Program.Ran (listing.invalidate redis) own outcome)
      (hanswered : Program.Answered Succeeds world own later) :
      Does redis world (.invalidate listing own outcome) later
  | expire (key : String) : Does redis world (.expire key) (world.deleteCache [key])

/-- A run, with what has been done, the last first. -/
inductive Used (redis : Bool) (initial : World) : List Use → World → Prop
  | nil : Used redis initial [] initial
  | cons {use earlier world later} (hearlier : Used redis initial earlier world)
      (huse : Use.Does redis world use later) : Used redis initial (use :: earlier) later

/-- The last list that has been fetched since the last invalidation. -/
def LastFetched (redis : Bool) (listing : Listing) (entries : List Document) : List Use → Prop
  | [] => False
  | .read other fetch own _ :: earlier =>
      other = listing ∧ other.Yields redis fetch own entries ∨
        (other = listing → ∀ fetched, ¬other.Yields redis fetch own fetched) ∧
          LastFetched redis listing entries earlier
  | .invalidate other _ _ :: earlier => other ≠ listing ∧ LastFetched redis listing entries earlier
  | .expire _ :: earlier => LastFetched redis listing entries earlier

/-- A read returns what was fetched last, or what it has fetched, and raises only what its
fetch has raised; an invalidation returns. -/
def Use.Returned (redis : Bool) (earlier : List Use) : Use → Prop
  | .read listing fetch own (.ok entries) =>
      LastFetched redis listing entries earlier ∨ listing.Yields redis fetch own entries
  | .read listing fetch own (.error error) =>
      ∃ looked gets, own = gets ++ looked ∧ listing.Fetches redis fetch looked gets (.error error)
  | .invalidate _ _ outcome => outcome = .ok ()
  | .expire _ => True

/-! ## Calls that succeed -/

section Calls

variable {world later : World}

/-- What Redis and MongoDB answer is no error. -/
theorem Succeeds.answer {op : Op} {answer : Except CacheError op.Answer}
    (hsucceeds : Succeeds op world answer later) (hop : ¬IsGet op) :
    ∃ value, answer = .ok value := by
  obtain ⟨⟨choice, hchoice⟩, hrespond⟩ := hsucceeds
  cases op <;> cases choice <;>
    simp only [respond, Option.some.injEq, Prod.mk.injEq, reduceCtorEq] at hrespond
  case get.esi => exact absurd trivial hop
  case utcnow.utcnow => exact ⟨_, hrespond.1.symm⟩
  all_goals
    obtain ⟨rfl, _⟩ := hrespond
    obtain rfl := hchoice
    exact ⟨_, rfl⟩

theorem Succeeds.reads {op : Op} {answer : Except CacheError op.Answer}
    (hsucceeds : Succeeds op world answer later) (hop : Reads op) : later = world := by
  obtain ⟨⟨choice, _⟩, hrespond⟩ := hsucceeds
  cases op <;> cases choice <;>
    simp only [respond, Option.some.injEq, Prod.mk.injEq, reduceCtorEq] at hrespond
  case mget.redis | utcnow.utcnow | get.esi => exact hrespond.2.symm
  all_goals exact absurd hop id

variable {own : CacheLog}

theorem answers_of_answered (hanswered : Program.Answered Succeeds world own later) :
    ∀ call ∈ own, ¬IsGet call.op → ∃ value, call.answer = .ok value := by
  induction hanswered with
  | nil => exact List.forall_mem_nil _
  | cons _ hanswer ih => exact List.forall_mem_cons.mpr ⟨hanswer.answer, ih⟩

theorem world_of_reads (hanswered : Program.Answered Succeeds world own later)
    (hown : ∀ call ∈ own, Reads call.op) : later = world := by
  induction hanswered with
  | nil => rfl
  | cons _ hanswer ih =>
      obtain ⟨hcall, hrest⟩ := List.forall_mem_cons.mp hown
      exact (hanswer.reads hcall).trans (ih hrest)

/-- A program that makes no requests to ESI does not raise. -/
theorem outcome_of_passesOn {β : Type} {program : Code β} {error : CacheError}
    (hpasses : program.PassesOn) (hissues : program.Issues fun op => ¬IsGet op)
    (hanswered : Program.Answered Succeeds world own later) :
    ¬Program.Ran program own (.error error) := by
  intro hran
  obtain ⟨call, hcall, herror⟩ := hpasses own error hran
  obtain ⟨value, hvalue⟩ :=
    answers_of_answered hanswered call hcall (hissues.of_ran hran call hcall)
  cases herror.symm.trans hvalue

/-- What succeeds in MongoDB is carried out as a whole. -/
theorem Succeeds.deleteMany {collectionName field : String} {id : Option ℤ}
    {answer : Except CacheError Unit}
    (hsucceeds : Succeeds (.deleteMany collectionName field id) world answer later) :
    later = world.deleteMany collectionName field id .done := by
  obtain ⟨⟨choice, hchoice⟩, hrespond⟩ := hsucceeds
  cases choice <;> simp only [respond, Option.some.injEq, Prod.mk.injEq, reduceCtorEq] at hrespond
  obtain rfl := hchoice
  exact hrespond.2.symm

theorem Succeeds.insertMany {collectionName : String} {documents : List Document}
    {answer : Except CacheError Unit}
    (hsucceeds : Succeeds (.insertMany collectionName documents) world answer later) :
    later = world.insertMany collectionName documents := by
  obtain ⟨⟨choice, hchoice⟩, hrespond⟩ := hsucceeds
  cases choice <;> simp only [respond, Option.some.injEq, Prod.mk.injEq, reduceCtorEq] at hrespond
  obtain rfl := hchoice
  exact hrespond.2.symm

theorem Succeeds.setMany {items : List (String × Value)} {ttlSeconds : ℕ}
    {answer : Except CacheError Unit}
    (hsucceeds : Succeeds (.setMany items ttlSeconds) world answer later) :
    later = world.setCache items := by
  obtain ⟨⟨choice, hchoice⟩, hrespond⟩ := hsucceeds
  cases choice <;> simp only [respond, Option.some.injEq, Prod.mk.injEq, reduceCtorEq] at hrespond
  obtain rfl := hchoice
  exact hrespond.2.symm

theorem Succeeds.delete {keys : List String} {answer : Except CacheError Unit}
    (hsucceeds : Succeeds (.delete keys) world answer later) : later = world.deleteCache keys := by
  obtain ⟨⟨choice, hchoice⟩, hrespond⟩ := hsucceeds
  cases choice <;> simp only [respond, Option.some.injEq, Prod.mk.injEq, reduceCtorEq] at hrespond
  obtain rfl := hchoice
  exact hrespond.2.symm

/-- A look answers what is in Redis. -/
theorem Succeeds.mget {keys : List String} {values : List (Option Value)}
    (hsucceeds : Succeeds (.mget keys) world (.ok values) later) :
    values = keys.map world.cache := by
  obtain ⟨⟨choice, hchoice⟩, hrespond⟩ := hsucceeds
  cases choice <;> simp only [respond, Option.some.injEq, Prod.mk.injEq, reduceCtorEq] at hrespond
  obtain rfl := hchoice
  exact (Except.ok.inj hrespond.1).symm

end Calls

/-! ## What a read and an invalidation change -/

/-- The documents of the other lists are what they were. -/
def OthersKept (listing : Listing) (world later : World) : Prop :=
  ∀ other : Listing, other ≠ listing → other.documents later = other.documents world

namespace Listing

variable {listing : Listing} {redis : Bool} {world later : World} {own : CacheLog}

/-- The list has been stored. -/
structure Stored (listing : Listing) (redis : Bool) (entries : List Document)
    (world later : World) : Prop where
  cache : later.cache =
    if redis then Function.update world.cache listing.key (some (EntryType.encode entries))
    else world.cache
  mirrored : listing.mirrored later = entries
  others : OthersKept listing world later

/-- The list has been invalidated. -/
structure Invalidated (listing : Listing) (redis : Bool) (world later : World) : Prop where
  cache : later.cache =
    if redis then Function.update world.cache listing.key none else world.cache
  others : OthersKept listing world later

theorem othersKept_deleteMany :
    OthersKept listing world
      (world.deleteMany listing.collectionName listing.field listing.id .done) :=
  fun _ hne => documents_deleteMany_of_ne _ hne _

/-- The documents of the entries are inserted after those of the list have been deleted. -/
theorem mirrored_of_inserts {entries : List Document} (hinserts : listing.Inserts entries own)
    (hempty : listing.documents world = [])
    (hanswered : Program.Answered Succeeds world own later) :
    later.cache = world.cache ∧ listing.mirrored later = entries ∧
      OthersKept listing world later := by
  cases hinserts with
  | none hentries =>
      cases hanswered
      refine ⟨rfl, ?_, fun _ _ => rfl⟩
      rw [mirrored, hempty, hentries, List.map_nil]
  | @some documents clocks _ hdocuments hclocks =>
      cases hanswered with
      | cons hticked hinsert =>
          have hreads : ∀ call ∈ clocks, Reads call.op := by
            intro call hcall
            rw [hclocks call hcall]
            trivial
          obtain rfl := world_of_reads hticked hreads
          obtain rfl := hinsert.insertMany
          refine ⟨rfl, ?_, fun other hne => ?_⟩
          · rw [mirrored, documents_insertMany _ hdocuments.tagged, hempty, List.nil_append]
            exact hdocuments.stripped
          · exact documents_insertMany_of_ne _ hne hdocuments.tagged

/-- **A list is stored.** -/
theorem stored_of_ran {entries : List Document}
    (hentries : ∀ entry ∈ entries, listing.entryType.IsInstance entry)
    (hran : Program.Ran (listing.store redis entries) own (.ok ()))
    (hanswered : Program.Answered Succeeds world own later) :
    listing.Stored redis entries world later := by
  obtain ⟨sets, inserts, rfl, hsets, hinserts⟩ := ran_store hentries hran
  obtain ⟨replaced, hreplaced, hset⟩ := hanswered.split
  obtain ⟨deleted, hdeleted, hinserted⟩ := hreplaced.split
  cases hdeleted with
  | cons hnil hdelete =>
      cases hnil
      obtain rfl := hdelete.deleteMany
      obtain ⟨hcache, hmirrored, hothers⟩ :=
        mirrored_of_inserts hinserts (documents_deleteMany_done world) hinserted
      -- neither the deletion nor the insertion changes other lists
      have hkept : OthersKept listing world replaced := fun other hne =>
        (hothers other hne).trans (othersKept_deleteMany other hne)
      cases hsets with
      | disabled =>
          cases hset
          exact ⟨hcache, hmirrored, hkept⟩
      | enabled answer =>
          cases hset with
          | cons hnil hset =>
              cases hnil
              obtain rfl := hset.setMany
              refine ⟨?_, hmirrored, hkept⟩
              rw [if_pos rfl]
              exact congrArg (fun cache => Function.update cache listing.key _) hcache

/-- **A list is invalidated.** -/
theorem invalidated_of_ran (hran : Program.Ran (listing.invalidate redis) own (.ok ()))
    (hanswered : Program.Answered Succeeds world own later) :
    listing.Invalidated redis world later := by
  obtain ⟨deletes, rfl, hdeletes⟩ := ran_invalidate hran
  obtain ⟨deleted, hdeleted, hrest⟩ := hanswered.split
  cases hdeleted with
  | cons hnil hdelete =>
      cases hnil
      obtain rfl := hdelete.deleteMany
      rcases hdeletes with ⟨rfl, rfl⟩ | ⟨rfl, answer, rfl⟩
      · cases hrest
        exact ⟨rfl, othersKept_deleteMany⟩
      · cases hrest with
        | cons hnil hdelete =>
            cases hnil
            obtain rfl := hdelete.delete
            exact ⟨rfl, othersKept_deleteMany⟩

theorem issues_store (entries : List Document) :
    (listing.store redis entries).Issues fun op => ¬IsGet op := by
  refine Program.Issues.bind ?_ fun _ => issues_setManyCached redis not_false
  exact issues_replaceDocuments not_false not_false (fun _ => not_false) entries

theorem issues_invalidate (listing : Listing) :
    (listing.invalidate redis).Issues fun op => ¬IsGet op :=
  issues_invalidateList not_false redis not_false

/-- What a read does when nothing else is done. -/
inductive ReadsAlone (listing : Listing) (redis : Bool) (fetch : Fetch listing.entryType)
    (world : World) (own : CacheLog) : Except CacheError (List Document) → World → Prop
  | found {value entries} (hvalue : world.cache listing.key = some value)
      (hdecode : listing.entryType.decode value = some entries)
      (hnothing : ∀ fetched, ¬listing.Yields redis fetch own fetched) :
      ReadsAlone listing redis fetch world own (.ok entries) world
  | raised {error looked gets} (hown : own = gets ++ looked)
      (hfetches : listing.Fetches redis fetch looked gets (.error error)) :
      ReadsAlone listing redis fetch world own (.error error) world
  | fetched {entries later} (hyields : listing.Yields redis fetch own entries)
      (hstored : listing.Stored redis entries world later) :
      ReadsAlone listing redis fetch world own (.ok entries) later

/-- **A read alone.** -/
theorem readsAlone_of_ran {fetch : Fetch listing.entryType}
    {outcome : Except CacheError (List Document)}
    (hran : Program.Ran (listing.read redis fetch) own outcome)
    (hanswered : Program.Answered Succeeds world own later) :
    listing.ReadsAlone redis fetch world own outcome later := by
  rcases ran_read hran with ⟨entries, rfl, hlook⟩ | ⟨error, rfl, hlook⟩ |
    ⟨error, looked, gets, rfl, rfl, hfetches⟩ |
    ⟨entries, looked, gets, stored, result, rfl, hfetches, hstored, rfl⟩
  · have hissues : (listing.look redis).Issues Reads := issues_look trivial
    have hlooked := hissues.of_ran hlook
    have hnothing : ∀ entries, ¬listing.Yields redis fetch own entries :=
      not_yields hlook (by simp)
    rcases ran_look hlook with ⟨_, values, rfl, hfound⟩ | ⟨hnone, _⟩
    · obtain rfl := world_of_reads hanswered hlooked
      cases hanswered with
      | cons hnil hmget =>
          cases hnil
          obtain rfl := hmget.mget
          obtain ⟨value, hvalue, hdecode⟩ := Option.bind_eq_some_iff.mp hfound.symm
          exact .found (by simpa using hvalue) hdecode hnothing
    · cases hnone
  · have hissues : (listing.look redis).Issues fun op => ¬IsGet op := issues_look not_false
    exact absurd hlook (outcome_of_passesOn (passesOn_look listing) hissues hanswered)
  · -- a fetch that raises has stored nothing
    obtain rfl := world_of_reads hanswered hfetches.reads
    exact .raised rfl hfetches
  · obtain ⟨middle, hfirst, hlast⟩ := hanswered.split
    -- storing follows the requests, which leave the world as it is
    obtain rfl := world_of_reads hfirst hfetches.reads
    cases result with
    | error error =>
        exact absurd hstored
          (outcome_of_passesOn (passesOn_store entries) (issues_store entries) hlast)
    | ok value =>
        have hinstances := fetch.instances.of_ran hfetches.gets
        exact .fetched ⟨looked, gets, stored, rfl, hfetches⟩
          (stored_of_ran hinstances hstored hlast)

end Listing

/-! ## Every run -/

/-- What is under the key of a list has been fetched last, and its entries are those of the
documents. -/
def Agrees (redis : Bool) (history : List Use) (world : World) : Prop :=
  ∀ (listing : Listing) value, world.cache listing.key = some value → redis = true ∧
    ∃ entries, value = EntryType.encode entries ∧
      (∀ entry ∈ entries, listing.entryType.IsInstance entry) ∧
      listing.mirrored world = entries ∧ LastFetched redis listing entries history

section Runs

variable {redis : Bool} {initial world later : World} {earlier : List Use} {listing : Listing}

/-- **One read.** -/
theorem agrees_read {fetch : Fetch listing.entryType} {own : CacheLog}
    {outcome : Except CacheError (List Document)} (hagrees : Agrees redis earlier world)
    (hreads : listing.ReadsAlone redis fetch world own outcome later) :
    Agrees redis (.read listing fetch own outcome :: earlier) later := by
  intro other value hcache
  -- a read that yields nothing leaves the last fetch as it is
  have hunchanged : later = world → (other = listing → ∀ fetched,
      ¬listing.Yields redis fetch own fetched) → redis = true ∧
      ∃ entries, value = EntryType.encode entries ∧
        (∀ entry ∈ entries, other.entryType.IsInstance entry) ∧
        other.mirrored later = entries ∧
        LastFetched redis other entries (.read listing fetch own outcome :: earlier) := by
    rintro rfl hnothing
    obtain ⟨henabled, entries, hvalue, hinstances, hmirrored, hlast⟩ := hagrees other value hcache
    exact ⟨henabled, entries, hvalue, hinstances, hmirrored,
      Or.inr ⟨fun heq => hnothing heq.symm, hlast⟩⟩
  cases hreads with
  | found hvalue hdecode hnothing => exact hunchanged rfl fun _ => hnothing
  | raised hown hfetches =>
      refine hunchanged rfl fun _ fetched hyields => ?_
      have hown' : own = [] ++ (_ ++ _) := hown
      cases hfetches.unique hown' hyields
  | @fetched entries _ hyields hstored =>
      rw [hstored.cache] at hcache
      by_cases heq : other = listing
      · subst heq
        cases redis with
        | false => cases (hagrees other value hcache).1
        | true =>
            rw [if_pos rfl, Function.update_self] at hcache
            exact ⟨rfl, entries, (Option.some_inj.mp hcache).symm, hyields.instances,
              hstored.mirrored, Or.inl ⟨rfl, hyields⟩⟩
      · -- another list has another key
        have hcacheOther : world.cache other.key = some value := by
          cases redis with
          | false => exact hcache
          | true => rwa [if_pos rfl, Function.update_of_ne
              (fun hkey => heq (Listing.key_injective hkey))] at hcache
        obtain ⟨henabled, others, hvalue, hinstances, hmirrored, hlast⟩ :=
          hagrees other value hcacheOther
        refine ⟨henabled, others, hvalue, hinstances, ?_,
          Or.inr ⟨fun heq' => absurd heq'.symm heq, hlast⟩⟩
        rw [Listing.mirrored, hstored.others other heq]
        exact hmirrored

/-- **One invalidation.** -/
theorem agrees_invalidate {own : CacheLog} {outcome : Except CacheError Unit}
    (hagrees : Agrees redis earlier world) (hinvalidated : listing.Invalidated redis world later) :
    Agrees redis (.invalidate listing own outcome :: earlier) later := by
  intro other value hcache
  rw [hinvalidated.cache] at hcache
  have hne : other ≠ listing := by
    rintro rfl
    cases redis with
    | false => cases (hagrees other value hcache).1
    | true => simp at hcache
  have hcacheOther : world.cache other.key = some value := by
    cases redis with
    | false => exact hcache
    | true => rwa [if_pos rfl, Function.update_of_ne
        (fun hkey => hne (Listing.key_injective hkey))] at hcache
  obtain ⟨henabled, entries, hvalue, hinstances, hmirrored, hlast⟩ :=
    hagrees other value hcacheOther
  refine ⟨henabled, entries, hvalue, hinstances, ?_, hne.symm, hlast⟩
  rw [Listing.mirrored, hinvalidated.others other hne]
  exact hmirrored

theorem agrees_expire (hagrees : Agrees redis earlier world) (key : String) :
    Agrees redis (.expire key :: earlier) (world.deleteCache [key]) := by
  intro other value hcache
  refine hagrees other value ?_
  rcases eq_or_ne other.key key with rfl | hne
  · simp [World.deleteCache] at hcache
  · simpa [World.deleteCache, hne] using hcache

/-- **One use.** -/
theorem agrees_step {use : Use} (hagrees : Agrees redis earlier world)
    (huse : Use.Does redis world use later) :
    Agrees redis (use :: earlier) later ∧ use.Returned redis earlier := by
  cases huse with
  | @read listing fetch own outcome _ hran hanswered =>
      have hreads := Listing.readsAlone_of_ran hran hanswered
      refine ⟨agrees_read hagrees hreads, ?_⟩
      cases hreads with
      | @found value entries hvalue hdecode =>
          obtain ⟨_, others, rfl, hinstances, _, hlast⟩ := hagrees listing value hvalue
          rw [EntryType.decode_encode hinstances] at hdecode
          exact Or.inl (Option.some_inj.mp hdecode ▸ hlast)
      | raised hown hfetches => exact ⟨_, _, hown, hfetches⟩
      | fetched hyields => exact Or.inr hyields
  | @invalidate listing own outcome _ hran hanswered =>
      cases outcome with
      | error error =>
          exact absurd hran (outcome_of_passesOn (Listing.passesOn_invalidate listing)
            (Listing.issues_invalidate listing) hanswered)
      | ok value =>
          exact ⟨agrees_invalidate hagrees (Listing.invalidated_of_ran hran hanswered), rfl⟩
  | expire key => exact ⟨agrees_expire hagrees key, trivial⟩

theorem agrees_of_used (hcold : ∀ listing : Listing, initial.cache listing.key = none)
    {history : List Use} (hused : Used redis initial history world) :
    Agrees redis history world := by
  induction hused with
  | nil =>
      intro listing value hcache
      cases (hcold listing).symm.trans hcache
  | cons _ huse ih => exact (agrees_step ih huse).1

/-- Whatever was done was done after what is earlier. -/
theorem does_of_used {history after : List Use} {use : Use}
    (hused : Used redis initial history world) (hhistory : history = after ++ use :: earlier) :
    ∃ before later, Used redis initial earlier before ∧ Use.Does redis before use later := by
  induction hused generalizing after with
  | nil => simp at hhistory
  | cons hearlier huse ih =>
      cases after with
      | nil =>
          obtain ⟨rfl, rfl⟩ := List.cons.inj hhistory
          exact ⟨_, _, hearlier, huse⟩
      | cons other after => exact ih (List.cons.inj hhistory).2

/-- **Cache and mirror agree in sequential use.**  In every run of reads, invalidations and
expiries, one after the other and with all calls of storage carried out: the entries that are
encoded under the key of a list are those of its documents; and every read returns the list
that was last fetched since the last invalidation, or the one that it has fetched, unless
its fetch raises. -/
theorem cache_agrees (hcold : ∀ listing : Listing, initial.cache listing.key = none)
    {history : List Use} (hused : Used redis initial history world) :
    (∀ (listing : Listing) value, world.cache listing.key = some value →
      ∃ entries, value = EntryType.encode entries ∧
        listing.entryType.decode value = some entries ∧
        (listing.mirrored world).Perm entries) ∧
    ∀ after use earlier, history = after ++ use :: earlier → use.Returned redis earlier := by
  constructor
  · intro listing value hvalue
    obtain ⟨_, entries, rfl, hinstances, hmirrored, _⟩ :=
      agrees_of_used hcold hused listing value hvalue
    refine ⟨entries, rfl, EntryType.decode_encode hinstances, ?_⟩
    rw [hmirrored]
  · intro after use earlier hhistory
    obtain ⟨before, later, hearlier, huse⟩ := does_of_used hused hhistory
    exact (agrees_step (agrees_of_used hcold hearlier) huse).2

end Runs

/-! ## A list that is read twice -/

/-- One page of ESI, and no failures. -/
def sampleChoices : List Success :=
  [⟨.redis .done, rfl⟩, ⟨.esi (.ok ⟨[sampleAsset], 1⟩), trivial⟩, ⟨.database .done, rfl⟩,
    ⟨.utcnow 0, trivial⟩, ⟨.database .done, rfl⟩, ⟨.redis .done, rfl⟩]

/-- A read: its calls, its outcome and the world that it leaves. -/
def sampleRead (world : World) : CacheLog × Except CacheError (List Document) × World :=
  ((sampleListing.read true sampleFetch).follow (fun op (choice : Success) => respond op choice.1)
    sampleChoices world).getD ([], .ok [], world)

def onceRead : CacheLog × Except CacheError (List Document) × World := sampleRead emptyWorld

def twiceRead : CacheLog × Except CacheError (List Document) × World := sampleRead onceRead.2.2

def sampleUses : List Use :=
  [.read sampleListing sampleFetch twiceRead.1 twiceRead.2.1,
    .read sampleListing sampleFetch onceRead.1 onceRead.2.1]

theorem does_sample {world : World}
    (hfollow : (sampleListing.read true sampleFetch).follow
      (fun op (choice : Success) => respond op choice.1) sampleChoices world =
        some (sampleRead world)) :
    Use.Does true world (.read sampleListing sampleFetch (sampleRead world).1 (sampleRead world).2.1)
      (sampleRead world).2.2 := by
  obtain ⟨hran, hanswered⟩ := Program.ran_of_follow hfollow
  exact .read hran hanswered

/-- The second read finds in Redis what the first one has fetched. -/
theorem cache_agrees_twice :
    (∃ entries, EntryType.encode [sampleAsset] = EntryType.encode entries ∧
      sampleListing.entryType.decode (EntryType.encode [sampleAsset]) = some entries ∧
      (sampleListing.mirrored twiceRead.2.2).Perm entries) ∧
    (LastFetched true sampleListing [sampleAsset]
        [.read sampleListing sampleFetch onceRead.1 onceRead.2.1] ∨
      sampleListing.Yields true sampleFetch twiceRead.1 [sampleAsset]) := by
  have hused : Used true emptyWorld sampleUses twiceRead.2.2 :=
    .cons (.cons .nil (does_sample rfl)) (does_sample rfl)
  obtain ⟨hagrees, hreturned⟩ := cache_agrees (fun _ => rfl) hused
  exact ⟨hagrees sampleListing _ rfl, hreturned [] _ _ rfl⟩

end EveBuild.Cache
