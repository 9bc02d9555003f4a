import EveBuild.Auth.Model

/-!
# How the requests write a character

There are four ways in which a request updates the document of a character
(`UpdateForm`): a login writes the whole document, a corporation callback the five
corporation fields, a disconnect takes these five away, and any request that reads its
character may write back what it has refreshed.  `characters_of_carriesOut` and
`characters_of_not_carriesOut` say that a step changes the documents by one of these
updates, by the deletion of a document, or not at all.
-/

namespace EveBuild.Auth

open Effect

/-! ## Updates -/

/-- What is written for the base token: nothing, or what has been refreshed. -/
inductive BaseForm : List Assignment → Prop
  | none : BaseForm []
  | refreshed (token expiresAt) : BaseForm (baseUpdates token expiresAt)

/-- What is written for the corporation token: nothing, what has been refreshed, or
that it has been refused. -/
inductive CorpForm : List Assignment → Prop
  | none : CorpForm []
  | refreshed (token expiresAt) : CorpForm (corpUpdates token expiresAt)
  | refused : CorpForm refusedUpdates

/-- **The updates of a character**, with what they insert if there is none. -/
inductive UpdateForm : ℤ → List Assignment → Option CharacterDocument → Prop
  | login (token claims now expiresAt) :
      UpdateForm claims.characterId (loginDocument token claims now expiresAt).modelDump
        (some (loginDocument token claims now expiresAt))
  | connect (characterId corporationId token claims now expiresAt) :
      UpdateForm characterId (connectUpdates corporationId token claims now expiresAt) none
  | disconnect (characterId) : UpdateForm characterId disconnectUpdates none
  | writeBack (characterId now) {base corp} (hbase : BaseForm base) (hcorp : CorpForm corp) :
      UpdateForm characterId (base ++ corp ++ [.updatedAt now]) none

/-- What is stored of an update for the base token is one as well. -/
theorem BaseForm.kept {base : List Assignment} (hbase : BaseForm base) :
    BaseForm (base.map Assignment.kept) := by
  cases hbase with
  | none => exact .none
  | refreshed token expiresAt => exact .refreshed token (keptTime expiresAt)

/-- What is stored of an update for the corporation token is one as well. -/
theorem CorpForm.kept {corp : List Assignment} (hcorp : CorpForm corp) :
    CorpForm (corp.map Assignment.kept) := by
  cases hcorp with
  | none => exact .none
  | refreshed token expiresAt => exact .refreshed token (keptTime expiresAt)
  | refused => exact .refused

/-- **What is stored of an update** has the same form. -/
theorem UpdateForm.kept {characterId : ℤ} {updates : List Assignment}
    {upsert : Option CharacterDocument} (hform : UpdateForm characterId updates upsert) :
    UpdateForm characterId (updates.map Assignment.kept) (upsert.map CharacterDocument.kept) := by
  cases hform with
  | login token claims now expiresAt =>
      exact .login token claims (keptTime now) (keptTime expiresAt)
  | connect characterId corporationId token claims now expiresAt =>
      exact .connect characterId corporationId token claims (keptTime now) (keptTime expiresAt)
  | disconnect characterId => exact .disconnect characterId
  | writeBack characterId now hbase hcorp =>
      rw [List.map_append, List.map_append]
      exact .writeBack characterId (keptTime now) hbase.kept hcorp.kept

/-- A call updates a character in one of these ways, or is no update. -/
def Writes : Op → Prop
  | .updateCharacter characterId updates upsert => UpdateForm characterId updates upsert
  | _ => True

/-- The same of a call that neither deletes nor inserts a character. -/
def Updates : Op → Prop
  | .deleteCharacter _ => False
  | .updateCharacter characterId updates upsert =>
      upsert = none ∧ UpdateForm characterId updates none
  | _ => True

theorem Updates.writes {op : Op} (hop : Updates op) : Writes op := by
  cases op with
  | updateCharacter characterId updates upsert =>
      obtain ⟨rfl, hform⟩ := hop
      exact hform
  | _ => trivial

/-- The calls by which a request reads its character and refreshes the tokens. -/
inductive Refreshes : Op → Prop
  | utcnow : Refreshes .utcnow
  | findCharacter (characterId) : Refreshes (.findCharacter characterId)
  | refreshToken (refreshToken) : Refreshes (.requestToken (.refreshToken refreshToken))
  | writeBack (characterId now) {base corp} (hbase : BaseForm base) (hcorp : CorpForm corp) :
      Refreshes (.updateCharacter characterId (base ++ corp ++ [.updatedAt now]) none)

theorem Refreshes.updates {op : Op} (hop : Refreshes op) : Updates op := by
  cases hop with
  | writeBack characterId now hbase hcorp => exact ⟨rfl, .writeBack characterId now hbase hcorp⟩
  | _ => trivial

theorem refreshes_refreshAccessToken (refreshToken : String) :
    (refreshAccessToken refreshToken).Issues Refreshes := by
  refine Program.Issues.tryCatch ?_ fun error => ?_
  · exact Program.Issues.bind (Program.Issues.perform (.refreshToken refreshToken)) fun _ => trivial
  · split <;> trivial

/-- The sum of two times makes no call. -/
theorem issues_addSeconds (allowed : Op → Prop) (now : ℤ) (expiresIn : ExpiresIn) :
    (addSeconds now expiresIn).Issues allowed := by
  unfold addSeconds
  split <;> trivial

theorem refreshes_expiresAt (expiresIn : ExpiresIn) : (expiresAt expiresIn).Issues Refreshes :=
  Program.Issues.bind (Program.Issues.perform .utcnow) fun _ => issues_addSeconds ..

theorem refreshes_refreshCorp (document : CharacterDocument) :
    (refreshCorp document).Issues Refreshes := by
  unfold refreshCorp
  split
  · refine Program.Issues.bind (Program.Issues.perform .utcnow) fun now => ?_
    split
    · refine Program.Issues.bind (refreshes_refreshAccessToken _) fun token => ?_
      cases token with
      | none => trivial
      | some corpToken => exact Program.Issues.bind (refreshes_expiresAt _) fun _ => trivial
    · trivial
  · trivial

theorem returns_refreshCorp (document : CharacterDocument) :
    (refreshCorp document).Returns CorpForm := by
  unfold refreshCorp
  split
  · refine Program.Returns.bind (Program.returns_true _) fun now _ => ?_
    split
    · refine Program.Returns.bind (Program.returns_true _) fun token _ => ?_
      cases token with
      | none => exact .refused
      | some corpToken =>
          exact Program.Returns.bind (Program.returns_true _) fun expiresAt _ =>
            .refreshed corpToken expiresAt
    · exact .none
  · exact .none

theorem refreshes_writeBack {characterId : ℤ} {document : CharacterDocument}
    {base corp : List Assignment} (hbase : BaseForm base) (hcorp : CorpForm corp) :
    (writeBack characterId document (base ++ corp)).Issues Refreshes := by
  rw [writeBack]
  split
  · trivial
  · refine Program.Issues.bind (Program.Issues.perform .utcnow) fun now => ?_
    exact Program.Issues.bind (Program.Issues.perform (.writeBack characterId now hbase hcorp))
      fun _ => trivial

theorem refreshes_currentCharacterOptional (session : Session) :
    (currentCharacterOptional session).Issues Refreshes := by
  unfold currentCharacterOptional
  split
  · trivial
  refine Program.Issues.bind (Program.Issues.perform (.findCharacter _)) fun found => ?_
  cases found with
  | none => trivial
  | some document =>
      refine Program.Issues.bind (Program.Issues.perform .utcnow) fun now => ?_
      split
      · refine Program.Issues.bind (refreshes_refreshAccessToken _) fun token => ?_
        cases token with
        | none => trivial
        | some token =>
            refine Program.Issues.bind (refreshes_expiresAt _) fun expiresAt => ?_
            refine (refreshes_refreshCorp _).bind_of_returns (returns_refreshCorp _) ?_
            exact fun corp hcorp =>
              Program.Issues.bind (refreshes_writeBack (.refreshed token expiresAt) hcorp)
                fun _ => trivial
      · refine (refreshes_refreshCorp _).bind_of_returns (returns_refreshCorp _) ?_
        exact fun corp hcorp =>
          Program.Issues.bind (refreshes_writeBack .none hcorp) fun _ => trivial

theorem issues_currentCharacterOptional (session : Session) :
    (currentCharacterOptional session).Issues Updates :=
  (refreshes_currentCharacterOptional session).mono fun _ => Refreshes.updates

theorem issues_withCharacter (session : Session)
    {handler : CharacterDocument → Session → Code Reply}
    (hhandler : ∀ character session, (handler character session).Issues Writes) :
    (withCharacter session handler).Issues Writes := by
  refine Program.Issues.bind
    ((issues_currentCharacterOptional session).mono fun _ => Updates.writes) ?_
  rintro ⟨_ | character, session⟩
  · trivial
  · exact hhandler character session

theorem issues_completeLogin (session : Session) (code state : String) :
    (completeLogin session code state).Issues Writes := by
  unfold completeLogin
  extract_lets expectedState codeVerifier
  split
  · trivial
  refine Program.Issues.bind (Program.Issues.perform trivial) fun token => ?_
  refine Program.Issues.bind (Program.Issues.perform trivial) fun claims => ?_
  refine Program.Issues.bind (Program.Issues.perform trivial) fun now => ?_
  refine Program.Issues.bind (issues_addSeconds ..) fun expiresAt => ?_
  exact Program.Issues.bind (Program.Issues.perform (.login token claims now expiresAt))
    fun _ => trivial

theorem issues_completeCorpConnection (session : Session) (code : String) :
    (completeCorpConnection session code).Issues Writes := by
  unfold completeCorpConnection
  extract_lets codeVerifier
  split
  · trivial
  split
  · trivial
  refine Program.Issues.bind (Program.Issues.perform trivial) fun token => ?_
  refine Program.Issues.bind (Program.Issues.perform trivial) fun claims => ?_
  split
  · trivial
  refine Program.Issues.bind (Program.Issues.perform trivial) fun corporationId => ?_
  refine Program.Issues.bind (Program.Issues.perform trivial) fun now => ?_
  refine Program.Issues.bind (issues_addSeconds ..) fun expiresAt => ?_
  have hconnect : Writes (.updateCharacter claims.characterId
      (connectUpdates corporationId token claims now expiresAt) none) := .connect ..
  exact Program.Issues.bind (Program.Issues.perform hconnect) fun _ => trivial

/-- **Every request** updates a character in one of these ways only. -/
theorem issues_body (start : Start) : (auth.body start).Issues Writes := by
  cases start with
  | page session =>
      exact Program.Issues.bind
        ((issues_currentCharacterOptional session).mono fun _ => Updates.writes) fun _ => trivial
  | memberPage session => exact issues_withCharacter session fun _ _ => trivial
  | login session =>
      refine Program.Issues.bind (Program.Issues.perform trivial) fun _ => ?_
      exact Program.Issues.bind (Program.Issues.perform trivial) fun _ => trivial
  | callback session code state =>
      show (callback session code state).Issues Writes
      unfold callback
      split
      · exact issues_completeCorpConnection session code
      · exact issues_completeLogin session code state
  | logout session => trivial
  | connectCorp session =>
      refine issues_withCharacter session fun _ _ => ?_
      refine Program.Issues.bind (Program.Issues.perform trivial) fun _ => ?_
      exact Program.Issues.bind (Program.Issues.perform trivial) fun _ => trivial
  | disconnectCorp session =>
      refine issues_withCharacter session fun character _ => ?_
      exact Program.Issues.bind (Program.Issues.perform (.disconnect character.characterId))
        fun _ => trivial
  | clearData session =>
      refine issues_withCharacter session fun character _ => ?_
      exact Program.Issues.bind (Program.Issues.perform trivial) fun _ => trivial

/-! ## What a step does to the characters -/

/-- The event carries out a database call. -/
def CarriesOut (config : AuthConfig) (event : AuthEvent) (op : Op) : Prop :=
  ∃ thread next delivery, event = .call thread (.database delivery) ∧ delivery ≠ .failed ∧
    config.threads thread = some (.call op next)

/-- A call that can be answered has been carried out, or leaves the characters. -/
theorem characters_of_respond {op : Op} {choice : Choice} {world later : World}
    {answer : Except AuthError op.Answer}
    (hrespond : respond op choice world = some (answer, later)) :
    (∃ delivery, choice = .database delivery ∧ delivery ≠ .failed) ∧
      later.characters = op.effect world.characters ∨
    (∀ delivery, choice = .database delivery → delivery = .failed) ∧
      later.characters = world.characters := by
  -- the disjunction for a call of the database
  have hcarryOut : ∀ delivery, choice = .database delivery →
      later = world.carryOut op delivery →
      (∃ delivery, choice = .database delivery ∧ delivery ≠ .failed) ∧
        later.characters = op.effect world.characters ∨
      (∀ delivery, choice = .database delivery → delivery = .failed) ∧
        later.characters = world.characters := by
    rintro delivery rfl rfl
    rw [World.carryOut]
    split
    · rename_i hfailed
      exact Or.inr ⟨fun other hother => Choice.database.inj hother ▸ hfailed, rfl⟩
    · rename_i hdelivered
      exact Or.inl ⟨⟨delivery, rfl, hdelivered⟩, rfl⟩
  cases op <;> cases choice <;>
    simp only [respond, Option.some.injEq, Prod.mk.injEq, reduceCtorEq] at hrespond
  case findCharacter.database characterId delivery =>
    refine hcarryOut delivery rfl ?_
    rw [← hrespond.2, World.carryOut]
    split <;> rfl
  case updateCharacter.database delivery => exact hcarryOut delivery rfl hrespond.2.symm
  case deleteCharacter.database delivery => exact hcarryOut delivery rfl hrespond.2.symm
  all_goals
    obtain ⟨_, rfl⟩ := hrespond
    exact Or.inr ⟨nofun, rfl⟩

/-- A step that carries a call out does what the call does. -/
theorem characters_of_carriesOut {before after : AuthConfig} {event : AuthEvent}
    (hstep : auth.Steps before event after) {op : Op} (hop : CarriesOut before event op) :
    after.moment.world.characters = op.effect before.moment.world.characters := by
  obtain ⟨thread, next, delivery, rfl, hdelivered, hthread⟩ := hop
  cases hstep with
  | call hthread' hrespond =>
      cases hthread.symm.trans hthread'
      rcases characters_of_respond hrespond with ⟨_, heffect⟩ | ⟨hfailed, _⟩
      · exact heffect
      · exact absurd (hfailed delivery rfl) hdelivered

/-- Any other step leaves the characters. -/
theorem characters_of_not_carriesOut {before after : AuthConfig} {event : AuthEvent}
    (hstep : auth.Steps before event after) (hnone : ∀ op, ¬ CarriesOut before event op) :
    after.moment.world.characters = before.moment.world.characters := by
  cases hstep with
  | start henter =>
      obtain rfl := Option.some_inj.mp henter
      rfl
  | call hthread hrespond =>
      rcases characters_of_respond hrespond with ⟨⟨delivery, rfl, hdelivered⟩, _⟩ | ⟨_, hsame⟩
      · exact absurd ⟨_, _, delivery, rfl, hdelivered, hthread⟩ (hnone _)
      · exact hsame
  | crash hthread => rfl
  | @tick tick world htick =>
      cases tick with
      | revoke refreshToken =>
          obtain rfl := Option.some_inj.mp htick
          rfl

/-- A call that is carried out is one that the requests make. -/
theorem CarriesOut.writes {config : AuthConfig} {event : AuthEvent} {op : Op}
    (hop : CarriesOut config event op) (hissues : config.Issues Writes) : Writes op := by
  obtain ⟨thread, next, _, _, _, hthread⟩ := hop
  exact (hissues thread _ hthread).1

end EveBuild.Auth
