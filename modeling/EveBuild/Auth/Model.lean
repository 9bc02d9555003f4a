import EveBuild.Effect.System
import Mathlib.Data.Int.Notation

/-!
# Logging in and connecting corporation data

The requests that read or write the `characters` collection, from `app/deps.py`,
`app/routes/auth.py` and `app/routes/settings.py`: logging in, connecting and
disconnecting corporation data, logging out, clearing all data, and every other page,
which reads the character of the session and refreshes the tokens that have expired
(`currentCharacterOptional`).

`auth` runs any number of these requests at the same time against MongoDB, the clock
and EVE SSO.

* A session is a signed cookie, so every request has its own copy: it starts with one
  and its reply carries the one that it leaves.
* An `HTTPException` is the reply that it becomes; any other exception ends the
  request without a reply.
* A missing field of a document and a field that is `null` both read as `none`.
* A database call is carried out and answered, fails, or is carried out without an
  answer.  What SSO and ESI answer is not determined.  Of SSO only which refresh
  tokens it still accepts is kept, and which it has seen.
* Times are in microseconds from 1970, the precision of the clock.  The database keeps
  their milliseconds only (`keptTime`), so that a document that is written is not quite
  the one that is stored.  A sum that is no `datetime` raises, after SSO has answered.
* Reading the clock is a call as well, so that more requests can come in between than
  really do.
* How an access token is verified is left to `validate_access_token`'s answer, and
  authorize URLs are reduced to their state.  What `clear_character_data` deletes
  besides the document of the character is left out.
-/

namespace EveBuild.Auth

open Effect

/-! ## Data -/

/-- `CharacterDocument`, a document of `characters`. -/
structure CharacterDocument where
  characterId : ℤ
  characterName : String
  ownerHash : String
  scopes : List String
  accessToken : String
  refreshToken : String
  accessTokenExpiresAt : ℤ
  createdAt : ℤ
  updatedAt : ℤ
  corporationId : Option ℤ := none
  corpScopes : Option (List String) := none
  corpAccessToken : Option String := none
  corpRefreshToken : Option String := none
  corpAccessTokenExpiresAt : Option ℤ := none
deriving DecidableEq

/-- A field that an update writes.  `none` is written by `$set` with `None` and by
`$unset`. -/
inductive Assignment
  | characterId (value : ℤ)
  | characterName (value : String)
  | ownerHash (value : String)
  | scopes (value : List String)
  | accessToken (value : String)
  | refreshToken (value : String)
  | accessTokenExpiresAt (value : ℤ)
  | updatedAt (value : ℤ)
  | corporationId (value : Option ℤ)
  | corpScopes (value : Option (List String))
  | corpAccessToken (value : Option String)
  | corpRefreshToken (value : Option String)
  | corpAccessTokenExpiresAt (value : Option ℤ)
deriving DecidableEq

/-- What the database keeps of a time. -/
def keptTime (time : ℤ) : ℤ := time / 1000 * 1000

/-- The assignment as it is stored. -/
def Assignment.kept : Assignment → Assignment
  | accessTokenExpiresAt value => accessTokenExpiresAt (keptTime value)
  | updatedAt value => updatedAt (keptTime value)
  | corpAccessTokenExpiresAt value => corpAccessTokenExpiresAt (value.map keptTime)
  | assignment => assignment

namespace CharacterDocument

def assign (document : CharacterDocument) : Assignment → CharacterDocument
  | .characterId value => { document with characterId := value }
  | .characterName value => { document with characterName := value }
  | .ownerHash value => { document with ownerHash := value }
  | .scopes value => { document with scopes := value }
  | .accessToken value => { document with accessToken := value }
  | .refreshToken value => { document with refreshToken := value }
  | .accessTokenExpiresAt value => { document with accessTokenExpiresAt := value }
  | .updatedAt value => { document with updatedAt := value }
  | .corporationId value => { document with corporationId := value }
  | .corpScopes value => { document with corpScopes := value }
  | .corpAccessToken value => { document with corpAccessToken := value }
  | .corpRefreshToken value => { document with corpRefreshToken := value }
  | .corpAccessTokenExpiresAt value => { document with corpAccessTokenExpiresAt := value }

def update (document : CharacterDocument) (updates : List Assignment) : CharacterDocument :=
  updates.foldl assign document

/-- `model_dump(exclude={"created_at"})`. -/
def modelDump (document : CharacterDocument) : List Assignment :=
  [.characterId document.characterId, .characterName document.characterName,
    .ownerHash document.ownerHash, .scopes document.scopes, .accessToken document.accessToken,
    .refreshToken document.refreshToken, .accessTokenExpiresAt document.accessTokenExpiresAt,
    .updatedAt document.updatedAt, .corporationId document.corporationId,
    .corpScopes document.corpScopes, .corpAccessToken document.corpAccessToken,
    .corpRefreshToken document.corpRefreshToken,
    .corpAccessTokenExpiresAt document.corpAccessTokenExpiresAt]

/-- The document as it is stored. -/
def kept (document : CharacterDocument) : CharacterDocument :=
  { document with
    accessTokenExpiresAt := keptTime document.accessTokenExpiresAt
    createdAt := keptTime document.createdAt
    updatedAt := keptTime document.updatedAt
    corpAccessTokenExpiresAt := document.corpAccessTokenExpiresAt.map keptTime }

@[simp] theorem update_nil (document : CharacterDocument) : document.update [] = document := rfl

@[simp] theorem update_cons (document : CharacterDocument) (assignment : Assignment)
    (updates : List Assignment) :
    document.update (assignment :: updates) = (document.assign assignment).update updates := rfl

theorem keptTime_keptTime (time : ℤ) : keptTime (keptTime time) = keptTime time := by
  unfold keptTime
  omega

theorem kept_assign (document : CharacterDocument) (assignment : Assignment) :
    (document.assign assignment).kept = document.kept.assign assignment.kept := by
  cases assignment <;> rfl

theorem kept_kept (assignment : Assignment) : assignment.kept.kept = assignment.kept := by
  cases assignment <;> simp [Assignment.kept, keptTime_keptTime, Function.comp_def]

theorem kept_update (document : CharacterDocument) (updates : List Assignment) :
    (document.update updates).kept = document.kept.update (updates.map Assignment.kept) := by
  induction updates generalizing document with
  | nil => rfl
  | cons assignment updates ih => rw [update_cons, ih, kept_assign, List.map_cons, update_cons]

/-- What is stored of an update is what is stored of its result. -/
theorem kept_update_map_kept (document : CharacterDocument) (updates : List Assignment) :
    (document.update (updates.map Assignment.kept)).kept = (document.update updates).kept := by
  rw [kept_update, kept_update, List.map_map]
  exact congrArg _ (List.map_congr_left fun assignment _ => kept_kept assignment)

end CharacterDocument

/-- What SSO answers as `expires_in`: a whole number of seconds, one that `timedelta`
rounds to microseconds, or what it does not take. -/
inductive ExpiresIn
  | seconds (value : ℤ)
  | microseconds (value : ℤ)
  | invalid
deriving DecidableEq

instance (value : ℕ) : OfNat ExpiresIn value := ⟨.seconds value⟩

/-- `timedelta(seconds=expires_in)` in microseconds, if it is one. -/
def ExpiresIn.timedelta? : ExpiresIn → Option ℤ
  | seconds value => some (1000000 * value)
  | microseconds value => some value
  | invalid => none

/-- The years 1 to 9999. -/
def IsDatetime (time : ℤ) : Prop :=
  -62135596800000000 ≤ time ∧ time < 253402300800000000

instance (time : ℤ) : Decidable (IsDatetime time) := inferInstanceAs (Decidable (_ ∧ _))

/-- `now + timedelta(seconds=expires_in)`, if it does not raise. -/
def ExpiresIn.after? (expiresIn : ExpiresIn) (now : ℤ) : Option ℤ :=
  (expiresIn.timedelta?.map (now + ·)).filter fun time => IsDatetime time

/-- `eve_sso.TokenResponse`. -/
structure TokenResponse where
  accessToken : String
  refreshToken : String
  expiresIn : ExpiresIn
deriving DecidableEq

/-- `eve_sso.CharacterClaims`. -/
structure CharacterClaims where
  characterId : ℤ
  characterName : String
  ownerHash : String
  scopes : List String
deriving DecidableEq

/-- The session of a browser. -/
structure Session where
  characterId : Option ℤ := none
  pkceVerifier : Option String := none
  pkceState : Option String := none
  corpPkceVerifier : Option String := none
  corpPkceState : Option String := none
deriving DecidableEq

/-- What a reply shows or where it leads. -/
inductive Body
  | page (character : Option CharacterDocument)
  | authorize (state : String) (corp : Bool)
  | redirect (path : String)
  | httpException (statusCode : ℕ) (detail : String)
deriving DecidableEq

/-- A reply with the session that it leaves. -/
structure Reply where
  session : Session
  body : Body
deriving DecidableEq

/-- What can be raised. -/
inductive AuthError
  | httpStatus (statusCode : ℕ)
  | network
  | malformed
  | invalidToken
  | expiresIn
  | database
deriving DecidableEq

/-! ## Calls -/

/-- The form that is posted to SSO. -/
inductive TokenForm
  | authorizationCode (code codeVerifier : String)
  | refreshToken (refreshToken : String)
deriving DecidableEq

/-- `updateCharacter` has the document that an upsert inserts, if it is one. -/
inductive Op
  | utcnow
  | tokenUrlsafe
  | findCharacter (characterId : ℤ)
  | updateCharacter (characterId : ℤ) (updates : List Assignment)
      (upsert : Option CharacterDocument)
  | deleteCharacter (characterId : ℤ)
  | requestToken (form : TokenForm)
  | validateAccessToken (accessToken : String)
  | characterPublicInfo (characterId : ℤ)
deriving DecidableEq

abbrev Op.Answer : Op → Type
  | utcnow => ℤ
  | tokenUrlsafe => String
  | findCharacter _ => Option CharacterDocument
  | updateCharacter .. => Unit
  | deleteCharacter _ => Unit
  | requestToken _ => TokenResponse
  | validateAccessToken _ => CharacterClaims
  | characterPublicInfo _ => ℤ

abbrev signature : Signature := ⟨Op, Op.Answer⟩

abbrev Code := Program signature AuthError

def await (op : Op) : Code op.Answer := Program.perform (S := signature) op

/-! ## The character of a session -/

/-- `now + timedelta(seconds=expires_in)`. -/
def addSeconds (now : ℤ) (expiresIn : ExpiresIn) : Code ℤ :=
  match expiresIn.after? now with
  | some time => return time
  | none => throw .expiresIn

/-- `_expires_at`. -/
def expiresAt (expiresIn : ExpiresIn) : Code ℤ := do
  let now ← await .utcnow
  addSeconds now expiresIn

/-- `refresh_access_token`, with `except httpx.HTTPStatusError` around it: `none` if
SSO refuses the token. -/
def refreshAccessToken (refreshToken : String) : Code (Option TokenResponse) :=
  tryCatch
    (do
      let token ← await (.requestToken (.refreshToken refreshToken))
      return some token)
    fun error =>
      if error = .httpStatus 400 ∨ error = .httpStatus 401 then return none else throw error

/-- What is written when the base token has been refreshed. -/
def baseUpdates (token : TokenResponse) (expiresAt : ℤ) : List Assignment :=
  [.accessToken token.accessToken, .refreshToken token.refreshToken,
    .accessTokenExpiresAt expiresAt]

/-- What is written when the corporation token has been refreshed. -/
def corpUpdates (token : TokenResponse) (expiresAt : ℤ) : List Assignment :=
  [.corpAccessToken (some token.accessToken), .corpRefreshToken (some token.refreshToken),
    .corpAccessTokenExpiresAt (some expiresAt)]

/-- What is written when SSO has refused the corporation token. -/
def refusedUpdates : List Assignment :=
  [.corpScopes none, .corpAccessToken none, .corpRefreshToken none,
    .corpAccessTokenExpiresAt none]

/-- The corporation token of the document, refreshed if it has expired. -/
def refreshCorp (document : CharacterDocument) : Code (List Assignment) := do
  match document.corpRefreshToken, document.corpAccessTokenExpiresAt with
  | some corpRefreshToken, some corpAccessTokenExpiresAt =>
      let now ← await .utcnow
      if corpAccessTokenExpiresAt ≤ now then
        match ← refreshAccessToken corpRefreshToken with
        | none => return refusedUpdates
        | some corpToken => return corpUpdates corpToken (← expiresAt corpToken.expiresIn)
      else return []
  | _, _ => return []

/-- `if updates`: the document is written back. -/
def writeBack (characterId : ℤ) (document : CharacterDocument) (updates : List Assignment) :
    Code CharacterDocument := do
  if updates = [] then return document
  let now ← await .utcnow
  await (.updateCharacter characterId (updates ++ [.updatedAt now]) none)
  return document.update (updates ++ [.updatedAt now])

/-- `get_current_character_optional`, with the session that it leaves. -/
def currentCharacterOptional (session : Session) : Code (Option CharacterDocument × Session) := do
  match session.characterId with
  | none => return (none, session)
  | some characterId =>
      match ← await (.findCharacter characterId) with
      | none => return (none, session)
      | some document =>
          let now ← await .utcnow
          if document.accessTokenExpiresAt ≤ now then
            match ← refreshAccessToken document.refreshToken with
            | none => return (none, { session with characterId := none })
            | some token =>
                let updates := baseUpdates token (← expiresAt token.expiresIn)
                let corp ← refreshCorp (document.update updates)
                return (some (← writeBack characterId document (updates ++ corp)), session)
          else
            let corp ← refreshCorp document
            return (some (← writeBack characterId document corp), session)

/-- `get_current_character`, and what the request does with the character. -/
def withCharacter (session : Session) (handler : CharacterDocument → Session → Code Reply) :
    Code Reply := do
  match ← currentCharacterOptional session with
  | (none, session) => return ⟨session, .httpException 401 "Not authenticated"⟩
  | (some character, session) => handler character session

/-! ## Requests -/

/-- A page that depends on `get_current_character_optional`. -/
def showPage (session : Session) : Code Reply := do
  let (character, session) ← currentCharacterOptional session
  return ⟨session, .page character⟩

/-- A page that depends on `get_current_character`. -/
def showMemberPage (session : Session) : Code Reply :=
  withCharacter session fun character session => return ⟨session, .page (some character)⟩

/-- `login`. -/
def login (session : Session) : Code Reply := do
  let codeVerifier ← await .tokenUrlsafe
  let state ← await .tokenUrlsafe
  return ⟨{ session with pkceVerifier := some codeVerifier, pkceState := some state },
    .authorize state false⟩

def invalidState (session : Session) : Reply :=
  ⟨session, .httpException 400 "Invalid or missing OAuth state"⟩

/-- The document that a login makes. -/
def loginDocument (token : TokenResponse) (claims : CharacterClaims) (now expiresAt : ℤ) :
    CharacterDocument where
  characterId := claims.characterId
  characterName := claims.characterName
  ownerHash := claims.ownerHash
  scopes := claims.scopes
  accessToken := token.accessToken
  refreshToken := token.refreshToken
  accessTokenExpiresAt := expiresAt
  createdAt := now
  updatedAt := now

/-- `_complete_login`. -/
def completeLogin (session : Session) (code state : String) : Code Reply := do
  let expectedState := session.pkceState.getD ""
  let codeVerifier := session.pkceVerifier.getD ""
  if expectedState = "" ∨ codeVerifier = "" ∨ state ≠ expectedState then
    return invalidState session
  let token ← await (.requestToken (.authorizationCode code codeVerifier))
  let claims ← await (.validateAccessToken token.accessToken)
  let now ← await .utcnow
  let document := loginDocument token claims now (← addSeconds now token.expiresIn)
  await (.updateCharacter claims.characterId document.modelDump (some document))
  let session := { session with pkceVerifier := none, pkceState := none }
  return ⟨{ session with characterId := some claims.characterId }, .redirect "/"⟩

/-- What is written when corporation data has been connected. -/
def connectUpdates (corporationId : ℤ) (token : TokenResponse) (claims : CharacterClaims)
    (now expiresAt : ℤ) : List Assignment :=
  [.corporationId (some corporationId), .corpScopes (some claims.scopes),
    .corpAccessToken (some token.accessToken), .corpRefreshToken (some token.refreshToken),
    .corpAccessTokenExpiresAt (some expiresAt), .updatedAt now]

/-- `_complete_corp_connection`. -/
def completeCorpConnection (session : Session) (code : String) : Code Reply := do
  let codeVerifier := session.corpPkceVerifier.getD ""
  match session.characterId with
  | none => return invalidState session
  | some characterId =>
      if codeVerifier = "" then return invalidState session
      let token ← await (.requestToken (.authorizationCode code codeVerifier))
      let claims ← await (.validateAccessToken token.accessToken)
      if claims.characterId ≠ characterId then
        return ⟨session, .httpException 400
          "Corporation data must be connected as the same character you're logged in as"⟩
      let corporationId ← await (.characterPublicInfo claims.characterId)
      let now ← await .utcnow
      let expiresAt ← addSeconds now token.expiresIn
      await (.updateCharacter claims.characterId
        (connectUpdates corporationId token claims now expiresAt) none)
      return ⟨{ session with corpPkceVerifier := none, corpPkceState := none },
        .redirect "/settings"⟩

/-- `callback`. -/
def callback (session : Session) (code state : String) : Code Reply :=
  if session.corpPkceState = some state then completeCorpConnection session code
  else completeLogin session code state

/-- `logout`. -/
def logout : Code Reply := return ⟨{}, .redirect "/"⟩

/-- `connect_corp`. -/
def connectCorp (session : Session) : Code Reply :=
  withCharacter session fun _ session => do
    let codeVerifier ← await .tokenUrlsafe
    let state ← await .tokenUrlsafe
    return ⟨{ session with corpPkceVerifier := some codeVerifier, corpPkceState := some state },
      .authorize state true⟩

/-- What is written when corporation data is disconnected. -/
def disconnectUpdates : List Assignment :=
  [.corporationId none, .corpScopes none, .corpAccessToken none, .corpRefreshToken none,
    .corpAccessTokenExpiresAt none]

/-- `disconnect_corp`. -/
def disconnectCorp (session : Session) : Code Reply :=
  withCharacter session fun character session => do
    await (.updateCharacter character.characterId disconnectUpdates none)
    return ⟨session, .redirect "/settings"⟩

/-- `clear_data`. -/
def clearData (session : Session) : Code Reply :=
  withCharacter session fun character _ => do
    await (.deleteCharacter character.characterId)
    return ⟨{}, .redirect "/"⟩

/-! ## MongoDB and SSO -/

/-- The documents of `characters` by their ids. -/
abbrev Characters := ℤ → Option CharacterDocument

/-- The characters, and the refresh tokens that SSO accepts and those that it has seen. -/
structure World where
  characters : Characters
  accepted : List String
  seen : List String

/-- `update_one({"_id": character_id}, …)`. -/
def Characters.update (characters : Characters) (characterId : ℤ) (updates : List Assignment)
    (upsert : Option CharacterDocument) : Characters :=
  Function.update characters characterId
    ((characters characterId).elim (upsert.map CharacterDocument.kept) fun document =>
      some (document.update (updates.map Assignment.kept)))

/-- What a call does to the characters when it is carried out. -/
def Op.effect : Op → Characters → Characters
  | updateCharacter characterId updates upsert, characters =>
      characters.update characterId updates upsert
  | deleteCharacter characterId, characters => Function.update characters characterId none
  | _, characters => characters

/-- What a database call comes to. -/
inductive Delivery
  | done
  | failed
  | lost
deriving DecidableEq

/-- The world after a database call. -/
def World.carryOut (world : World) (op : Op) (delivery : Delivery) : World :=
  if delivery = .failed then world
  else { world with characters := op.effect world.characters }

/-- A request with the cookie of its browser. -/
inductive Start
  | page (session : Session)
  | memberPage (session : Session)
  | login (session : Session)
  | callback (session : Session) (code state : String)
  | logout (session : Session)
  | connectCorp (session : Session)
  | disconnectCorp (session : Session)
  | clearData (session : Session)

/-- What is not determined.  `token` says what SSO answers, and whether it has used the
refresh token up. -/
inductive Choice
  | utcnow (now : ℤ)
  | tokenUrlsafe (token : String)
  | database (delivery : Delivery)
  | token (answer : Except AuthError TokenResponse) (usedUp : Bool)
  | claims (answer : Except AuthError CharacterClaims)
  | publicInfo (answer : Except AuthError ℤ)

/-- SSO no longer accepts a token. -/
inductive Tick
  | revoke (refreshToken : String)

/-- The refresh token of a form. -/
def TokenForm.refreshToken? : TokenForm → Option String
  | .authorizationCode .. => none
  | .refreshToken token => some token

/-- SSO has answered a form: a token that has been used up is not accepted any more, and
a new one is. -/
def World.answerForm (world : World) (form : TokenForm)
    (answer : Except AuthError TokenResponse) (usedUp : Bool) : World :=
  let presented := form.refreshToken?.toList
  let granted := answer.toOption.toList.map TokenResponse.refreshToken
  { world with
    accepted := granted ++
      if usedUp then world.accepted.filter (· ∉ presented) else world.accepted
    seen := granted ++ presented ++ world.seen }

/-- The answer of a database call. -/
def Delivery.answer {β : Type} (delivery : Delivery) (value : β) : Except AuthError β :=
  if delivery = .done then .ok value else .error .database

def respond (op : Op) (choice : Choice) (world : World) :
    Option (Except AuthError op.Answer × World) :=
  match op, choice with
  | .utcnow, .utcnow now => some (.ok now, world)
  | .tokenUrlsafe, .tokenUrlsafe token => some (.ok token, world)
  | .findCharacter characterId, .database delivery =>
      some (delivery.answer (world.characters characterId), world)
  | .updateCharacter characterId updates upsert, .database delivery =>
      some (delivery.answer (), world.carryOut (.updateCharacter characterId updates upsert) delivery)
  | .deleteCharacter characterId, .database delivery =>
      some (delivery.answer (), world.carryOut (.deleteCharacter characterId) delivery)
  | .requestToken form, .token answer usedUp =>
      some (answer, world.answerForm form answer usedUp)
  | .validateAccessToken _, .claims answer => some (answer, world)
  | .characterPublicInfo _, .publicInfo answer => some (answer, world)
  | _, _ => none

/-- Any number of requests. -/
def auth : System signature AuthError Reply World Start Choice Tick where
  body
    | .page session => showPage session
    | .memberPage session => showMemberPage session
    | .login session => login session
    | .callback session code state => callback session code state
    | .logout _ => logout
    | .connectCorp session => connectCorp session
    | .disconnectCorp session => disconnectCorp session
    | .clearData session => clearData session
  enter _ _ world := some world
  respond _ := respond
  crash _ world := world
  tick
    | .revoke refreshToken, world =>
        some { world with accepted := world.accepted.filter (· ≠ refreshToken) }

abbrev AuthMoment := Moment signature AuthError World Start

abbrev AuthConfig := Config signature AuthError Reply World Start

abbrev AuthEvent := Event Start Choice Tick

/-- The calls of a request with their answers, the newest first. -/
abbrev AuthLog := List (Call signature AuthError)

/-- The request has read the document of the character. -/
def Read (log : AuthLog) (characterId : ℤ) (document : CharacterDocument) : Prop :=
  ⟨.findCharacter characterId, .ok (some document)⟩ ∈ log

end EveBuild.Auth
