import EveBuild.Auth.Writes

/-!
# Connected corporation data

Which steps of a run connect a character's corporation data, keep it connected and
disconnect it.  A step does one of seven things to the document of a character
(`CharacterStep`), and everything here is a case analysis over these.

* `stays_connected_iff`: between a connection and the next disconnect, deletion or
  refusal, the corporation fields stay exactly as long as the character does not log in
  again, which writes them as `None`, and no request writes down the refusal of a token
  that has been replaced since.
* `connected_flag_iff`: the refresh token is a sound flag for being connected, and a
  disconnect is not undone, exactly as long as no refreshed token is written to a
  document without a corporation.  The write of a refreshed token does not ask for this:
  it writes three of the five fields, whatever has become of the other two.
-/

namespace EveBuild.Auth

open Effect

/-! ## Writes -/

/-- A login writes the character. -/
def LoginWrite (characterId : ℤ) (config : AuthConfig) (event : AuthEvent) : Prop :=
  ∃ token claims now expiresAt, claims.characterId = characterId ∧
    CarriesOut config event (.updateCharacter characterId
      (loginDocument token claims now expiresAt).modelDump
      (some (loginDocument token claims now expiresAt)))

/-- A corporation callback stores the corporation fields. -/
def ConnectWrite (characterId : ℤ) (config : AuthConfig) (event : AuthEvent) : Prop :=
  ∃ corporationId token claims now expiresAt, CarriesOut config event
    (.updateCharacter characterId (connectUpdates corporationId token claims now expiresAt) none)

/-- A disconnect takes the corporation fields away. -/
def DisconnectWrite (characterId : ℤ) (config : AuthConfig) (event : AuthEvent) : Prop :=
  CarriesOut config event (.updateCharacter characterId disconnectUpdates none)

/-- The character is deleted. -/
def ClearWrite (characterId : ℤ) (config : AuthConfig) (event : AuthEvent) : Prop :=
  CarriesOut config event (.deleteCharacter characterId)

/-- A request stores a refreshed corporation token. -/
def RefreshedWrite (characterId : ℤ) (config : AuthConfig) (event : AuthEvent) : Prop :=
  ∃ base token expiresAt now, BaseForm base ∧ CarriesOut config event
    (.updateCharacter characterId (base ++ corpUpdates token expiresAt ++ [.updatedAt now]) none)

/-- A request writes down that the corporation token was refused. -/
def RefusedWrite (characterId : ℤ) (config : AuthConfig) (event : AuthEvent) : Prop :=
  ∃ base now, BaseForm base ∧ CarriesOut config event
    (.updateCharacter characterId (base ++ refusedUpdates ++ [.updatedAt now]) none)

/-- SSO refuses the corporation token that the character has. -/
def Refusal (characterId : ℤ) (config : AuthConfig) (event : AuthEvent) : Prop :=
  ∃ thread statusCode usedUp document corpRefreshToken next,
    event = Event.call thread (.token (.error (.httpStatus statusCode)) usedUp) ∧
    (statusCode = 400 ∨ statusCode = 401) ∧
    config.threads thread = some (.call (.requestToken (.refreshToken corpRefreshToken)) next) ∧
    config.moment.world.characters characterId = some document ∧
    document.corpRefreshToken = some corpRefreshToken

/-- The corporation fields of a connection are not null. -/
structure CharacterDocument.Connected (document : CharacterDocument) : Prop where
  corporationId : document.corporationId ≠ none
  corpScopes : document.corpScopes ≠ none
  corpAccessToken : document.corpAccessToken ≠ none
  corpRefreshToken : document.corpRefreshToken ≠ none

/-- All corporation fields are null. -/
structure CharacterDocument.Disconnected (document : CharacterDocument) : Prop where
  corporationId : document.corporationId = none
  corpScopes : document.corpScopes = none
  corpAccessToken : document.corpAccessToken = none
  corpRefreshToken : document.corpRefreshToken = none
  corpAccessTokenExpiresAt : document.corpAccessTokenExpiresAt = none

/-- The corporation fields are the same. -/
structure SameCorp (old new : CharacterDocument) : Prop where
  corporationId : new.corporationId = old.corporationId
  corpScopes : new.corpScopes = old.corpScopes
  corpAccessToken : new.corpAccessToken = old.corpAccessToken
  corpRefreshToken : new.corpRefreshToken = old.corpRefreshToken
  corpAccessTokenExpiresAt : new.corpAccessTokenExpiresAt = old.corpAccessTokenExpiresAt

/-- The corporation token is new, and whatever else there was is still there. -/
structure CorpRefreshed (old new : CharacterDocument) : Prop where
  corporationId : new.corporationId = old.corporationId
  corpScopes : new.corpScopes = old.corpScopes
  corpAccessToken : new.corpAccessToken ≠ none
  corpRefreshToken : new.corpRefreshToken ≠ none

/-- The corporation token is gone, and the corporation is still there. -/
structure CorpRefused (old new : CharacterDocument) : Prop where
  corporationId : new.corporationId = old.corporationId
  corpScopes : new.corpScopes = none
  corpAccessToken : new.corpAccessToken = none
  corpRefreshToken : new.corpRefreshToken = none
  corpAccessTokenExpiresAt : new.corpAccessTokenExpiresAt = none

/-- **What a step can do** to the document of a character. -/
inductive CharacterStep (characterId : ℤ) (config : AuthConfig) (event : AuthEvent) :
    Option CharacterDocument → Option CharacterDocument → Prop
  | same (document) : CharacterStep characterId config event document document
  | login {old new} (hnew : new.Disconnected) (hwrite : LoginWrite characterId config event) :
      CharacterStep characterId config event old (some new)
  | connect {old new} (hnew : new.Connected) (hwrite : ConnectWrite characterId config event) :
      CharacterStep characterId config event (some old) (some new)
  | disconnect {old new} (hnew : new.Disconnected)
      (hwrite : DisconnectWrite characterId config event) :
      CharacterStep characterId config event (some old) (some new)
  | clear {old} (hwrite : ClearWrite characterId config event) :
      CharacterStep characterId config event old none
  | base {old new} (hsame : SameCorp old new) :
      CharacterStep characterId config event (some old) (some new)
  | refreshed {old new} (hnew : CorpRefreshed old new)
      (hwrite : RefreshedWrite characterId config event) :
      CharacterStep characterId config event (some old) (some new)
  | refused {old new} (hnew : CorpRefused old new)
      (hwrite : RefusedWrite characterId config event) :
      CharacterStep characterId config event (some old) (some new)

section Steps

variable {before after : AuthConfig} {event : AuthEvent} {characterId : ℤ}

/-! ### What the updates leave in the database -/

theorem disconnected_login (token : TokenResponse) (claims : CharacterClaims) (now expiresAt : ℤ)
    (document : CharacterDocument) :
    (document.update ((loginDocument token claims now expiresAt).modelDump.map
      Assignment.kept)).Disconnected :=
  ⟨rfl, rfl, rfl, rfl, rfl⟩

theorem connected_connect (corporationId : ℤ) (token : TokenResponse) (claims : CharacterClaims)
    (now expiresAt : ℤ) (document : CharacterDocument) :
    (document.update ((connectUpdates corporationId token claims now expiresAt).map
      Assignment.kept)).Connected := by
  constructor <;> simp [connectUpdates, CharacterDocument.assign, Assignment.kept]

theorem disconnected_disconnect (document : CharacterDocument) :
    (document.update (disconnectUpdates.map Assignment.kept)).Disconnected :=
  ⟨rfl, rfl, rfl, rfl, rfl⟩

variable {base : List Assignment} (hbase : BaseForm base) (now : ℤ) (document : CharacterDocument)

include hbase in
theorem sameCorp_base : SameCorp document
    (document.update ((base ++ [] ++ [Assignment.updatedAt now]).map Assignment.kept)) := by
  cases hbase <;> constructor <;>
    simp [baseUpdates, CharacterDocument.assign, Assignment.kept]

include hbase in
theorem corpRefreshed_refreshed (token : TokenResponse) (expiresAt : ℤ) :
    CorpRefreshed document
      (document.update
        ((base ++ corpUpdates token expiresAt ++ [Assignment.updatedAt now]).map
          Assignment.kept)) := by
  cases hbase <;> constructor <;>
    simp [baseUpdates, corpUpdates, CharacterDocument.assign, Assignment.kept]

include hbase in
theorem corpRefused_refused :
    CorpRefused document
      (document.update
        ((base ++ refusedUpdates ++ [Assignment.updatedAt now]).map Assignment.kept)) := by
  cases hbase <;> constructor <;>
    simp [baseUpdates, refusedUpdates, CharacterDocument.assign, Assignment.kept]

/-! ### One step -/

/-- The update of a character, as the step sees it. -/
theorem characters_update_self (characters : Characters) (characterId : ℤ)
    (updates : List Assignment) (upsert : Option CharacterDocument) :
    (Op.updateCharacter characterId updates upsert).effect characters characterId =
      (characters characterId).elim (upsert.map CharacterDocument.kept) fun document =>
        some (document.update (updates.map Assignment.kept)) :=
  Function.update_self ..

theorem characterStep (hissues : before.Issues Writes) (hstep : auth.Steps before event after)
    (characterId : ℤ) :
    CharacterStep characterId before event (before.moment.world.characters characterId)
      (after.moment.world.characters characterId) := by
  by_cases hnone : ∀ op, ¬ CarriesOut before event op
  · -- the step carries out no call
    rw [characters_of_not_carriesOut hstep hnone]
    exact .same _
  obtain ⟨op, hop⟩ := not_forall_not.mp hnone
  have hwrites := hop.writes hissues
  rw [characters_of_carriesOut hstep hop]
  cases op with
  | updateCharacter target updates upsert =>
      by_cases htarget : characterId = target
      · subst htarget
        rw [characters_update_self]
        cases before.moment.world.characters characterId with
        | none =>
            -- only a login creates a document
            cases hwrites with
            | login token claims now expiresAt =>
                exact .login ⟨rfl, rfl, rfl, rfl, rfl⟩ ⟨token, claims, now, expiresAt, rfl, hop⟩
            | _ => exact .same none
        | some document =>
            -- the forms in which a request updates a document that is there
            cases hwrites with
            | login token claims now expiresAt =>
                exact .login (disconnected_login ..) ⟨token, claims, now, expiresAt, rfl, hop⟩
            | connect _ corporationId token claims now expiresAt =>
                exact .connect (connected_connect ..)
                  ⟨corporationId, token, claims, now, expiresAt, hop⟩
            | disconnect => exact .disconnect (disconnected_disconnect _) hop
            | writeBack _ now hbase hcorp =>
                cases hcorp with
                | none => exact .base (sameCorp_base hbase now document)
                | refreshed token expiresAt =>
                    exact .refreshed (corpRefreshed_refreshed hbase now document token expiresAt)
                      ⟨_, token, expiresAt, now, hbase, hop⟩
                | refused =>
                    exact .refused (corpRefused_refused hbase now document)
                      ⟨_, now, hbase, hop⟩
      · rw [Op.effect, Characters.update, Function.update_of_ne htarget]
        exact .same _
  | deleteCharacter target =>
      by_cases htarget : characterId = target
      · subst htarget
        rw [Op.effect, Function.update_self]
        exact .clear hop
      · rw [Op.effect, Function.update_of_ne htarget]
        exact .same _
  | _ => exact .same _

end Steps

/-! ## Staying connected -/

/-- The character has a connection. -/
def Connected (characterId : ℤ) (config : AuthConfig) : Prop :=
  ∃ document, config.moment.world.characters characterId = some document ∧ document.Connected

/-- A step that is to end the connection: a disconnect, the deletion of the character, or
a refusal of its corporation token. -/
def Ends (characterId : ℤ) (config : AuthConfig) (event : AuthEvent) : Prop :=
  DisconnectWrite characterId config event ∨ ClearWrite characterId config event ∨
    Refusal characterId config event

section Connected

variable {before after : AuthConfig} {event : AuthEvent} {characterId : ℤ}

/-- **One step.**  A step that is not to end the connection keeps it exactly if it is
neither the write of a login nor that of a refusal. -/
theorem connected_step_iff (hissues : before.Issues Writes)
    (hconnected : Connected characterId before) (hends : ¬ Ends characterId before event)
    (hstep : auth.Steps before event after) :
    Connected characterId after ↔
      ¬ LoginWrite characterId before event ∧ ¬ RefusedWrite characterId before event := by
  obtain ⟨document, hdocument, hfields⟩ := hconnected
  constructor
  · -- both writes empty a field of the connection
    rintro ⟨new, hnew, hnewFields⟩
    refine ⟨?_, ?_⟩
    · rintro ⟨token, claims, now, expiresAt, rfl, hop⟩
      rw [characters_of_carriesOut hstep hop, characters_update_self, hdocument] at hnew
      obtain rfl := Option.some_inj.mp hnew
      exact hnewFields.corporationId (disconnected_login ..).corporationId
    · rintro ⟨base, now, hbase, hop⟩
      rw [characters_of_carriesOut hstep hop, characters_update_self, hdocument] at hnew
      obtain rfl := Option.some_inj.mp hnew
      exact hnewFields.corpRefreshToken (corpRefused_refused hbase now document).corpRefreshToken
  · -- any other step leaves the four fields, or sets all of them
    rintro ⟨hlogin, hrefused⟩
    have hcharacter := characterStep hissues hstep characterId
    rw [hdocument] at hcharacter
    unfold Connected
    generalize after.moment.world.characters characterId = later at hcharacter
    cases hcharacter with
    | same => exact ⟨document, rfl, hfields⟩
    | login hnew hwrite => exact absurd hwrite hlogin
    | connect hnew hwrite => exact ⟨_, rfl, hnew⟩
    | disconnect hnew hwrite => exact absurd (Or.inl hwrite) hends
    | clear hwrite => exact absurd (Or.inr (Or.inl hwrite)) hends
    | base hsame =>
        refine ⟨_, rfl, ?_, ?_, ?_, ?_⟩
        · exact hsame.corporationId ▸ hfields.corporationId
        · exact hsame.corpScopes ▸ hfields.corpScopes
        · exact hsame.corpAccessToken ▸ hfields.corpAccessToken
        · exact hsame.corpRefreshToken ▸ hfields.corpRefreshToken
    | refreshed hnew hwrite =>
        refine ⟨_, rfl, ?_, ?_, hnew.corpAccessToken, hnew.corpRefreshToken⟩
        · exact hnew.corporationId ▸ hfields.corporationId
        · exact hnew.corpScopes ▸ hfields.corpScopes
    | refused hnew hwrite => exact absurd hwrite hrefused

end Connected

theorem issues_of_reaches {world : World} {config : AuthConfig}
    (hreaches : auth.Reaches .free (Config.initial _ _ _ _ world) config) :
    config.Issues Writes := by
  refine hreaches.invariant (motive := fun config => config.Issues Writes) .initial ?_
  exact fun before event after hissues _ hstep => hstep.issues issues_body hissues

/-- **A connection survives ordinary use** as long as the character does not log in again
and no refusal of an older token is written down: from any reached configuration in which
the character is connected, along any run without a step that is to end the connection,
it is connected in every state exactly if no step is one of these two writes. -/
theorem stays_connected_iff {world : World} {config : AuthConfig}
    (hreaches : auth.Reaches .free (Config.initial _ _ _ _ world) config) {characterId : ℤ}
    (hconnected : Connected characterId config) {events : List AuthEvent}
    (hends : auth.EveryStep (fun before event _ => ¬ Ends characterId before event) config events) :
    auth.EveryStep (fun _ _ after => Connected characterId after) config events ↔
      auth.EveryStep (fun before event _ => ¬ LoginWrite characterId before event ∧
        ¬ RefusedWrite characterId before event) config events := by
  refine System.everyStep_congr
    (motive := fun config => config.Issues Writes ∧ Connected characterId config)
    ?_ ⟨issues_of_reaches hreaches, hconnected⟩ hends
  intro before event after ⟨hissues, hbefore⟩ hgiven hstep
  exact ⟨connected_step_iff hissues hbefore hgiven hstep,
    fun hafter => ⟨hstep.issues issues_body hissues, hafter⟩⟩

/-! ## The connected flag -/

/-- `corp_refresh_token` is set only with an access token and a corporation. -/
def FlagSound (config : AuthConfig) : Prop :=
  ∀ characterId document, config.moment.world.characters characterId = some document →
    document.corpRefreshToken ≠ none →
    document.corpAccessToken ≠ none ∧ document.corporationId ≠ none

/-- The document of the character, if there is one, has no corporation fields. -/
def Disconnected (characterId : ℤ) (config : AuthConfig) : Prop :=
  ∀ document, config.moment.world.characters characterId = some document → document.Disconnected

/-- After the step the flag is sound; a disconnect has taken the corporation fields away;
and where they had been taken away, only a corporation callback has stored them again. -/
structure FlagKept (before : AuthConfig) (event : AuthEvent) (after : AuthConfig) : Prop where
  sound : FlagSound after
  disconnects : ∀ characterId, DisconnectWrite characterId before event →
    Disconnected characterId after
  notUndone : ∀ characterId, Disconnected characterId before →
    ¬ ConnectWrite characterId before event → Disconnected characterId after

/-- A refreshed corporation token is stored only where there is a corporation. -/
def StoresWithCorporation (before : AuthConfig) (event : AuthEvent) : Prop :=
  ∀ characterId document, RefreshedWrite characterId before event →
    before.moment.world.characters characterId = some document → document.corporationId ≠ none

section Flag

variable {before after : AuthConfig} {event : AuthEvent} {characterId : ℤ}

/-- A refreshed token that is stored without a corporation breaks the flag. -/
theorem storesWithCorporation_of_sound (hstep : auth.Steps before event after)
    (hsound : FlagSound after) : StoresWithCorporation before event := by
  rintro characterId document ⟨base, token, expiresAt, now, hbase, hop⟩ hdocument hnone
  have hnew := congrFun (characters_of_carriesOut hstep hop) characterId
  rw [characters_update_self, hdocument] at hnew
  have hrefreshed := corpRefreshed_refreshed hbase now document token expiresAt
  obtain ⟨_, hcorporation⟩ := hsound characterId _ hnew hrefreshed.corpRefreshToken
  exact hcorporation (hrefreshed.corporationId.trans hnone)

theorem flagSound_step (hissues : before.Issues Writes) (hstep : auth.Steps before event after)
    (hsound : FlagSound before) (hstores : StoresWithCorporation before event) :
    FlagSound after := by
  intro characterId document hdocument hflag
  have hcharacter := characterStep hissues hstep characterId
  rw [hdocument] at hcharacter
  generalize hold : before.moment.world.characters characterId = old at hcharacter
  cases hcharacter with
  | same => exact hsound characterId document hold hflag
  | login hnew hwrite => exact absurd hnew.corpRefreshToken hflag
  | connect hnew hwrite => exact ⟨hnew.corpAccessToken, hnew.corporationId⟩
  | disconnect hnew hwrite => exact absurd hnew.corpRefreshToken hflag
  | base hsame =>
      rw [hsame.corpRefreshToken] at hflag
      rw [hsame.corpAccessToken, hsame.corporationId]
      exact hsound characterId _ hold hflag
  | refreshed hnew hwrite =>
      refine ⟨hnew.corpAccessToken, ?_⟩
      rw [hnew.corporationId]
      exact hstores characterId _ hwrite hold
  | refused hnew hwrite => exact absurd hnew.corpRefreshToken hflag

/-- A disconnect that has been carried out has taken the corporation fields away. -/
theorem disconnected_of_disconnectWrite (hstep : auth.Steps before event after)
    (hwrite : DisconnectWrite characterId before event) : Disconnected characterId after := by
  intro document hdocument
  rw [characters_of_carriesOut hstep hwrite, characters_update_self] at hdocument
  cases hold : before.moment.world.characters characterId with
  | none =>
      rw [hold] at hdocument
      cases hdocument
  | some old =>
      rw [hold] at hdocument
      obtain rfl := Option.some_inj.mp hdocument
      exact disconnected_disconnect old

/-- Only a corporation callback stores corporation fields again. -/
theorem disconnected_step (hissues : before.Issues Writes) (hstep : auth.Steps before event after)
    (hstores : StoresWithCorporation before event)
    (hdisconnected : Disconnected characterId before)
    (hconnect : ¬ ConnectWrite characterId before event) : Disconnected characterId after := by
  intro document hdocument
  have hcharacter := characterStep hissues hstep characterId
  rw [hdocument] at hcharacter
  generalize hold : before.moment.world.characters characterId = old at hcharacter
  cases hcharacter with
  | same => exact hdisconnected document hold
  | login hnew hwrite => exact hnew
  | connect hnew hwrite => exact absurd hwrite hconnect
  | disconnect hnew hwrite => exact hnew
  | base hsame =>
      obtain ⟨hcorporationId, hcorpScopes, hcorpAccessToken, hcorpRefreshToken, hexpiresAt⟩ :=
        hdisconnected _ hold
      exact ⟨hsame.corporationId.trans hcorporationId, hsame.corpScopes.trans hcorpScopes,
        hsame.corpAccessToken.trans hcorpAccessToken,
        hsame.corpRefreshToken.trans hcorpRefreshToken,
        hsame.corpAccessTokenExpiresAt.trans hexpiresAt⟩
  | refreshed hnew hwrite =>
      exact absurd (hdisconnected _ hold).corporationId (hstores characterId _ hwrite hold)
  | refused hnew hwrite =>
      exact ⟨hnew.corporationId.trans (hdisconnected _ hold).corporationId, hnew.corpScopes,
        hnew.corpAccessToken, hnew.corpRefreshToken, hnew.corpAccessTokenExpiresAt⟩

end Flag

/-- **The connected flag.**  Along any run of any requests, starting with sound flags, every
step keeps the flag sound and undoes no disconnect exactly if every step that stores a
refreshed corporation token stores it in a document with a corporation. -/
theorem connected_flag_iff {world : World}
    (hworld : FlagSound (Config.initial _ _ _ _ world)) {events : List AuthEvent} :
    auth.EveryStep FlagKept (Config.initial _ _ _ _ world) events ↔
      auth.EveryStep (fun before event _ => StoresWithCorporation before event)
        (Config.initial _ _ _ _ world) events := by
  have hall : auth.EveryStep (fun _ _ _ => True) (Config.initial _ _ _ _ world) events :=
    System.everyStep_of_forall (fun _ _ _ _ => trivial) _
  refine System.everyStep_congr (motive := fun config => config.Issues Writes ∧ FlagSound config)
    ?_ ⟨.initial, hworld⟩ hall
  intro before event after ⟨hissues, hsound⟩ _ hstep
  refine ⟨⟨fun hkept => storesWithCorporation_of_sound hstep hkept.sound, fun hstores => ?_⟩,
    fun hkept => ⟨hstep.issues issues_body hissues, hkept.sound⟩⟩
  exact ⟨flagSound_step hissues hstep hsound hstores,
    fun characterId => disconnected_of_disconnectWrite hstep,
    fun characterId => disconnected_step hissues hstep hstores⟩

/-! ## Two runs of one character -/

theorem not_carriesOut {config : AuthConfig} {thread : ℕ} {delivery : Delivery} {op other : Op}
    {next : Except AuthError op.Answer → Code Reply}
    (hthread : config.threads thread = some (.call op next)) (hne : op ≠ other) :
    ¬ CarriesOut config (.call thread (.database delivery)) other := by
  rintro ⟨thread', next', delivery', heq, _, hother⟩
  cases heq
  cases hthread.symm.trans hother
  exact hne rfl

def sampleClaims : CharacterClaims := ⟨1, "Pilot", "owner", []⟩

/-- A callback of a login, at time 0. -/
def loginEvents (thread : ℕ) : List AuthEvent :=
  [.start (.callback { pkceVerifier := some "verifier", pkceState := some "state" } "code" "state"),
    .call thread (.token (.ok ⟨"access", "refresh", 36000⟩) false),
    .call thread (.claims (.ok sampleClaims)), .call thread (.utcnow 0)]

/-- A callback of a corporation connection, at time 0: its token is good for twenty
minutes. -/
def connectEvents (thread : ℕ) : List AuthEvent :=
  [.start (.callback
      { characterId := some 1, corpPkceVerifier := some "verifier", corpPkceState := some "state" }
      "code" "state"),
    .call thread (.token (.ok ⟨"corp access", "corp refresh", 1200⟩) false),
    .call thread (.claims (.ok sampleClaims)), .call thread (.publicInfo (.ok 98)),
    .call thread (.utcnow 0), .call thread (.database .done)]

def sampleStart : AuthConfig := Config.initial _ _ _ _ ⟨fun _ => none, [], []⟩

/-- The configuration after some events. -/
def sampleAfter (events : List AuthEvent) : AuthConfig :=
  (auth.run sampleStart events).getD sampleStart

/-- The character is logged in and connected. -/
def connectedEvents : List AuthEvent :=
  loginEvents 0 ++ .call 0 (.database .done) :: connectEvents 1

theorem connected_sampleAfter (events : List AuthEvent) (document : CharacterDocument)
    (hdocument : (sampleAfter events).moment.world.characters 1 = some document)
    (hconnected : document.corporationId.isSome ∧ document.corpScopes.isSome ∧
      document.corpAccessToken.isSome ∧ document.corpRefreshToken.isSome) :
    Connected 1 (sampleAfter events) := by
  simp only [Option.isSome_iff_ne_none] at hconnected
  obtain ⟨hcorporationId, hcorpScopes, hcorpAccessToken, hcorpRefreshToken⟩ := hconnected
  exact ⟨document, hdocument, hcorporationId, hcorpScopes, hcorpAccessToken, hcorpRefreshToken⟩

/-- **Logging in again disconnects.**  The write of the second login is no disconnect, no
deletion and no refusal, and the corporation fields are null after it. -/
theorem login_disconnects :
    Connected 1 (sampleAfter (connectedEvents ++ loginEvents 2)) ∧
    ¬ Ends 1 (sampleAfter (connectedEvents ++ loginEvents 2)) (.call 2 (.database .done)) ∧
    auth.step (sampleAfter (connectedEvents ++ loginEvents 2)) (.call 2 (.database .done)) =
      some (sampleAfter (connectedEvents ++ loginEvents 2 ++ [.call 2 (.database .done)])) ∧
    ¬ Connected 1
      (sampleAfter (connectedEvents ++ loginEvents 2 ++ [.call 2 (.database .done)])) := by
  refine ⟨connected_sampleAfter _ _ rfl (by decide), ?_, rfl, ?_⟩
  · rintro (hwrite | hwrite | ⟨_, _, _, _, _, _, heq, _⟩)
    · exact not_carriesOut rfl (by decide) hwrite
    · exact not_carriesOut rfl (by decide) hwrite
    · cases heq
  · rintro ⟨document, hdocument, hconnected⟩
    obtain rfl := Option.some_inj.mp hdocument
    exact hconnected.corporationId rfl

def sampleSession : Session := { characterId := some 1 }

/-- A page view after ten hours: both tokens have expired, and both are refreshed. -/
def refreshEvents (thread : ℕ) : List AuthEvent :=
  [.start (.page sampleSession), .call thread (.database .done), .call thread (.utcnow 36000000000),
    .call thread (.token (.ok ⟨"access 2", "refresh 2", 36000⟩) true),
    .call thread (.utcnow 36000000000), .call thread (.utcnow 36000000000),
    .call thread (.token (.ok ⟨"corp access 2", "corp refresh 2", 1200⟩) true),
    .call thread (.utcnow 36000000000), .call thread (.utcnow 36000000000)]

/-- The write of a page view that has refreshed both tokens keeps the connection. -/
theorem stays_connected_refresh :
    auth.EveryStep (fun _ _ after => Connected 1 after)
      (sampleAfter (connectedEvents ++ refreshEvents 2)) [.call 2 (.database .done)] := by
  have hreaches : auth.Reaches .free sampleStart
      (sampleAfter (connectedEvents ++ refreshEvents 2)) := by
    refine System.reaches_of_run (show auth.run sampleStart (connectedEvents ++ refreshEvents 2) =
      some (sampleAfter (connectedEvents ++ refreshEvents 2)) from rfl) ?_
    exact fun event _ config => Policy.free_meets config event
  have hconnected : Connected 1 (sampleAfter (connectedEvents ++ refreshEvents 2)) :=
    connected_sampleAfter _ _ rfl (by decide)
  have hends : auth.EveryStep (fun before event _ => ¬ Ends 1 before event)
      (sampleAfter (connectedEvents ++ refreshEvents 2)) [.call 2 (.database .done)] := by
    refine fun later _ => ⟨?_, trivial⟩
    rintro (hwrite | hwrite | ⟨_, _, _, _, _, _, heq, _⟩)
    · exact not_carriesOut rfl (by decide) hwrite
    · exact not_carriesOut rfl (by decide) hwrite
    · cases heq
  refine (stays_connected_iff hreaches hconnected hends).mpr fun later _ => ⟨⟨?_, ?_⟩, trivial⟩
  · rintro ⟨token, claims, now, expiresAt, _, hop⟩
    exact not_carriesOut rfl (by simp) hop
  · rintro ⟨base, now, hbase, hop⟩
    refine not_carriesOut rfl ?_ hop
    cases hbase <;> simp [baseUpdates, corpUpdates, refusedUpdates]

/-- A disconnect has read the character just before the corporation token expires, and a
page view just after; the disconnect is carried out while SSO refreshes the token. -/
def racedEvents : List AuthEvent :=
  connectedEvents ++
    [.start (.disconnectCorp sampleSession), .call 2 (.database .done),
      .call 2 (.utcnow 1199999999),
      .call 2 (.utcnow 1199999999), .start (.page sampleSession), .call 3 (.database .done),
      .call 3 (.utcnow 1200000000), .call 3 (.utcnow 1200000000), .call 2 (.database .done),
      .call 3 (.token (.ok ⟨"corp access 2", "corp refresh 2", 1200⟩) true),
      .call 3 (.utcnow 1200000000), .call 3 (.utcnow 1200000000)]

theorem flagSound_sampleStart : FlagSound sampleStart := by
  intro characterId document hdocument
  cases hdocument

/-- **A disconnect is undone.**  The disconnect has been answered and the corporation
fields are null; then the page view stores its token, in a document without a
corporation. -/
theorem disconnect_undone :
    FlagSound sampleStart ∧
    ((sampleAfter racedEvents).threads 2).bind Program.outcome? =
      some (.ok ⟨sampleSession, .redirect "/settings"⟩) ∧
    Disconnected 1 (sampleAfter racedEvents) ∧
    auth.step (sampleAfter racedEvents) (.call 3 (.database .done)) =
      some (sampleAfter (racedEvents ++ [.call 3 (.database .done)])) ∧
    ¬ Disconnected 1 (sampleAfter (racedEvents ++ [.call 3 (.database .done)])) ∧
    ¬ FlagSound (sampleAfter (racedEvents ++ [.call 3 (.database .done)])) := by
  refine ⟨flagSound_sampleStart, by decide, ?_, rfl, ?_, ?_⟩
  · intro document hdocument
    obtain rfl := Option.some_inj.mp hdocument
    exact ⟨rfl, rfl, rfl, rfl, rfl⟩
  · intro hdisconnected
    cases (hdisconnected _ rfl).corpRefreshToken
  · intro hsound
    exact (hsound 1 _ rfl (Option.some_ne_none _)).2 rfl

/-- A connection that is refreshed, and disconnected after that. -/
def disconnectedEvents : List AuthEvent :=
  connectedEvents ++ refreshEvents 2 ++ [.call 2 (.database .done),
    .start (.disconnectCorp sampleSession), .call 3 (.database .done),
    .call 3 (.utcnow 36000000000), .call 3 (.utcnow 36000000000), .call 3 (.database .done)]

theorem connected_flag_disconnected :
    auth.run sampleStart disconnectedEvents = some (sampleAfter disconnectedEvents) ∧
    Disconnected 1 (sampleAfter disconnectedEvents) ∧
    (auth.EveryStep FlagKept sampleStart disconnectedEvents ↔
      auth.EveryStep (fun before event _ => StoresWithCorporation before event) sampleStart
        disconnectedEvents) := by
  refine ⟨rfl, fun document hdocument => ?_, connected_flag_iff flagSound_sampleStart⟩
  obtain rfl := Option.some_inj.mp hdocument
  exact ⟨rfl, rfl, rfl, rfl, rfl⟩

end EveBuild.Auth
