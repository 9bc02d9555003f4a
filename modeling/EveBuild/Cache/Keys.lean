import EveBuild.Cache.Model
import Mathlib.Order.Basic

/-!
# Cache keys

Two cached lists never share a key (`Origin.key_injective`): the prefixes of the sources
are different and have no colon, and the text of an identifier determines it.
-/

namespace EveBuild.Cache

/-! ## Texts of identifiers -/

theorem repr_injective : Function.Injective Nat.repr := by
  intro m n heq
  have hdigits : Nat.toDigits 10 m = Nat.toDigits 10 n := by
    rw [← Nat.toList_repr, ← Nat.toList_repr, heq]
  calc
    m = Nat.ofDigitChars 10 (Nat.toDigits 10 m) 0 := Nat.ofDigitChars_ten_toDigits.symm
    _ = Nat.ofDigitChars 10 (Nat.toDigits 10 n) 0 := by rw [hdigits]
    _ = n := Nat.ofDigitChars_ten_toDigits

theorem isDigit_of_mem_repr {n : ℕ} {c : Char} (hc : c ∈ n.repr.toList) : c.isDigit := by
  rw [Nat.toList_repr] at hc
  exact Nat.isDigit_of_mem_toDigits (by decide) (by decide) hc

/-- A number starts with a digit or has a sign and digits. -/
theorem toList_idText (id : ℤ) :
    (0 ≤ id ∧ (idText (some id)).toList = id.toNat.repr.toList) ∨
      id < 0 ∧ (idText (some id)).toList = '-' :: (-id).toNat.repr.toList := by
  simp only [idText, Int.toString_eq_repr, Int.repr_eq_if]
  split_ifs with hsign
  · exact Or.inl ⟨hsign, rfl⟩
  · exact Or.inr ⟨Int.not_le.mp hsign, by simp⟩

theorem idText_none_ne (id : ℤ) : idText none ≠ idText (some id) := by
  intro heq
  have hlist : "None".toList = (idText (some id)).toList := congrArg String.toList heq
  rcases toList_idText id with ⟨_, htext⟩ | ⟨_, htext⟩
  · have hmem : 'N' ∈ id.toNat.repr.toList := by
      rw [← htext, ← hlist]
      decide
    exact absurd (isDigit_of_mem_repr hmem) (by decide)
  · rw [htext] at hlist
    cases hlist

theorem idText_injective : Function.Injective idText := by
  rintro (_ | a) (_ | b) heq
  · rfl
  · exact absurd heq (idText_none_ne b)
  · exact absurd heq.symm (idText_none_ne a)
  have hlist : (idText (some a)).toList = (idText (some b)).toList := congrArg String.toList heq
  have hminus : ∀ n : ℕ, '-' ∉ n.repr.toList := fun n hmem =>
    absurd (isDigit_of_mem_repr hmem) (by decide)
  rcases toList_idText a with ⟨ha, htextA⟩ | ⟨ha, htextA⟩ <;>
    rcases toList_idText b with ⟨hb, htextB⟩ | ⟨hb, htextB⟩ <;>
    rw [htextA, htextB] at hlist
  · have hnat := repr_injective (String.toList_inj.mp hlist)
    exact congrArg some (by omega)
  · exact absurd (hlist ▸ List.mem_cons_self ..) (hminus a.toNat)
  · exact absurd (hlist ▸ List.mem_cons_self ..) (hminus b.toNat)
  · have hnat := repr_injective (String.toList_inj.mp (List.cons.inj hlist).2)
    exact congrArg some (by omega)

/-! ## Keys -/

/-- What comes before the first colon. -/
theorem eq_of_append_colon {first second : List Char} {rest others : List Char}
    (hfirst : ':' ∉ first) (hsecond : ':' ∉ second)
    (heq : first ++ ':' :: rest = second ++ ':' :: others) : first = second ∧ rest = others := by
  induction first generalizing second with
  | nil =>
      cases second with
      | nil => exact ⟨rfl, (List.cons.inj heq).2⟩
      | cons c second => exact absurd ((List.cons.inj heq).1 ▸ List.mem_cons_self ..) hsecond
  | cons c first ih =>
      cases second with
      | nil => exact absurd ((List.cons.inj heq).1 ▸ List.mem_cons_self ..) hfirst
      | cons d second =>
          obtain ⟨rfl, htail⟩ := List.cons.inj heq
          obtain ⟨rfl, hrest⟩ := ih (fun hmem => hfirst (List.mem_cons_of_mem _ hmem))
            (fun hmem => hsecond (List.mem_cons_of_mem _ hmem)) htail
          exact ⟨rfl, hrest⟩

theorem cacheKey_inj {first second : String} {id other : Option ℤ} (hfirst : ':' ∉ first.toList)
    (hsecond : ':' ∉ second.toList) (heq : cacheKey first id = cacheKey second other) :
    first = second ∧ id = other := by
  have hlist : first.toList ++ ':' :: (idText id).toList =
      second.toList ++ ':' :: (idText other).toList := by
    simpa [cacheKey] using congrArg String.toList heq
  obtain ⟨hsource, htext⟩ := eq_of_append_colon hfirst hsecond hlist
  exact ⟨String.toList_inj.mp hsource, idText_injective (String.toList_inj.mp htext)⟩

/-! ## The lists that are cached -/

namespace Kind

def personalSource : Kind → Source
  | assets => assetsSource
  | blueprints => blueprintsSource
  | industryJobs => industryJobsSource

def corpSource : Kind → Source
  | assets => corpAssetsSource
  | blueprints => corpBlueprintsSource
  | industryJobs => corpIndustryJobsSource

def characterEndpoint : Kind → Endpoint
  | assets => .charactersAssets
  | blueprints => .charactersBlueprints
  | industryJobs => .charactersIndustryJobs

def corporationEndpoint : Kind → Endpoint
  | assets => .corporationsAssets
  | blueprints => .corporationsBlueprints
  | industryJobs => .corporationsIndustryJobs

def entryType : Kind → EntryType
  | assets => assetEntry
  | blueprints => blueprintEntry
  | industryJobs => industryJobEntry

end Kind

/-- The list of a character, or that of a corporation. -/
inductive Origin
  | character (kind : Kind) (characterId : ℤ)
  | corporation (kind : Kind) (corporationId : Option ℤ)

namespace Origin

def kind : Origin → Kind
  | character kind _ => kind
  | corporation kind _ => kind

def id : Origin → Option ℤ
  | character _ characterId => some characterId
  | corporation _ corporationId => corporationId

def source : Origin → Source
  | character kind _ => kind.personalSource
  | corporation kind _ => kind.corpSource

def endpoint : Origin → Endpoint
  | character kind _ => kind.characterEndpoint
  | corporation kind _ => kind.corporationEndpoint

/-- The key of the list. -/
def key (origin : Origin) : String := cacheKey origin.source.cacheKeyPrefix origin.id

theorem colon_notMem (origin : Origin) : ':' ∉ origin.source.cacheKeyPrefix.toList := by
  have hpersonal : ∀ kind : Kind, ':' ∉ kind.personalSource.cacheKeyPrefix.toList := by
    intro kind
    cases kind <;> decide
  have hcorp : ∀ kind : Kind, ':' ∉ kind.corpSource.cacheKeyPrefix.toList := by
    intro kind
    cases kind <;> decide
  cases origin with
  | character kind characterId => exact hpersonal kind
  | corporation kind corporationId => exact hcorp kind

/-- **Different lists have different keys.** -/
theorem key_injective : Function.Injective key := by
  -- no two sources have the same prefix
  have hpersonal : ∀ kind other : Kind,
      kind.personalSource.cacheKeyPrefix = other.personalSource.cacheKeyPrefix →
      kind = other := by
    intro kind other
    cases kind <;> cases other <;> decide
  have hcorp : ∀ kind other : Kind,
      kind.corpSource.cacheKeyPrefix = other.corpSource.cacheKeyPrefix → kind = other := by
    intro kind other
    cases kind <;> cases other <;> decide
  have hne : ∀ kind other : Kind,
      kind.personalSource.cacheKeyPrefix ≠ other.corpSource.cacheKeyPrefix := by
    intro kind other
    cases kind <;> cases other <;> decide
  intro first second heq
  obtain ⟨hsource, hid⟩ := cacheKey_inj first.colon_notMem second.colon_notMem heq
  cases first with
  | character kind characterId =>
      cases second with
      | character other otherId =>
          exact congrArg₂ character (hpersonal kind other hsource) (Option.some_inj.mp hid)
      | corporation other otherId => exact absurd hsource (hne kind other)
  | corporation kind corporationId =>
      cases second with
      | character other otherId => exact absurd hsource.symm (hne other kind)
      | corporation other otherId => exact congrArg₂ corporation (hcorp kind other hsource) hid

end Origin

/-! ## The reads, by their lists -/

namespace Kind

def ttlSeconds : Kind → ℕ
  | assets => assetsCacheTtlSeconds
  | blueprints => blueprintsCacheTtlSeconds
  | industryJobs => industryJobsCacheTtlSeconds

/-- The fetch of a character's list. -/
def fetchCharacter (accessToken : String) (origin : Origin) : Kind → Code (List Document)
  | industryJobs => getUnpagedList origin.endpoint origin.kind.entryType origin.id accessToken
  | _ => getPagedList origin.endpoint origin.kind.entryType origin.id accessToken

theorem getCharacterList_eq (redis : Bool) (accessToken : String) (characterId : ℤ) (kind : Kind) :
    kind.getCharacterList redis accessToken characterId =
      cachedList "character_id" redis kind.personalSource.collectionName
        (Origin.character kind characterId).source.cacheKeyPrefix
        (Origin.character kind characterId).id kind.ttlSeconds kind.entryType
        (kind.fetchCharacter accessToken (.character kind characterId)) := by
  cases kind <;> rfl

theorem getCorporationList_eq (redis : Bool) (accessToken : String) (corporationId : Option ℤ)
    (kind : Kind) :
    kind.getCorporationList redis accessToken corporationId =
      corpListOrNone redis kind.corpSource (Origin.corporation kind corporationId).id
        kind.ttlSeconds kind.entryType
        (getPagedList (Origin.corporation kind corporationId).endpoint kind.entryType
          (Origin.corporation kind corporationId).id accessToken) := by
  cases kind <;> rfl

end Kind

end EveBuild.Cache
