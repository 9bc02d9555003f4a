import EveBuild.Auth.Writes
import EveBuild.Effect.Log

/-!
# What one request does with a session

Which session a request leaves (`Leaves`), and why it updates a character (`Warranted`).
Logging in and connecting corporation data share one callback.  It logs in for the pending
state of the login only, connects for the pending state of the connection only, and does
either only with a token that it has exchanged the code for and that has been validated.

All this is read off the calls of the request, whatever they are answered.
-/

namespace EveBuild.Auth

open Effect

/-! ## Requests of a browser -/

/-- What a browser asks for. -/
inductive Visit
  | page
  | memberPage
  | login
  | callback (code state : String)
  | logout
  | connectCorp
  | disconnectCorp
  | clearData

/-- The request, with the cookie of the browser. -/
def Visit.start (session : Session) : Visit → Start
  | page => .page session
  | memberPage => .memberPage session
  | login => .login session
  | callback code state => .callback session code state
  | logout => .logout session
  | connectCorp => .connectCorp session
  | disconnectCorp => .disconnectCorp session
  | clearData => .clearData session

def Visit.IsCallback (visit : Visit) : Prop := ∃ code state, visit = callback code state

/-! ## Why a character is updated -/

/-- The code has been exchanged for the token with this verifier, and the token has been
validated. -/
structure Exchanged (log : AuthLog) (code verifier : String) (token : TokenResponse)
    (claims : CharacterClaims) : Prop where
  exchanged : ⟨.requestToken (.authorizationCode code verifier), .ok token⟩ ∈ log
  validated : ⟨.validateAccessToken token.accessToken, .ok claims⟩ ∈ log

/-- What is written for the corporation token of a document that has been read. -/
inductive CorpWarranted (log : AuthLog) (document : CharacterDocument) : List Assignment → Prop
  | none : CorpWarranted log document []
  | refreshed {refreshToken token} (expiresAt)
      (hdocument : document.corpRefreshToken = some refreshToken)
      (hgranted : ⟨.requestToken (.refreshToken refreshToken), .ok token⟩ ∈ log) :
      CorpWarranted log document (corpUpdates token expiresAt)
  | refused : CorpWarranted log document refusedUpdates

/-- **Why a request may update a character**, after the calls that it has made. -/
inductive Warranted (session : Session) (visit : Visit) (log : AuthLog) :
    ℤ → List Assignment → Option CharacterDocument → Prop
  | login (token claims now expiresAt) :
      Warranted session visit log claims.characterId
        (loginDocument token claims now expiresAt).modelDump
        (some (loginDocument token claims now expiresAt))
  | connect {code state} (verifier token claims corporationId now expiresAt)
      (hvisit : visit = .callback code state)
      (hloggedIn : session.characterId = some claims.characterId)
      (hexchanged : Exchanged log code verifier token claims) :
      Warranted session visit log claims.characterId
        (connectUpdates corporationId token claims now expiresAt) none
  | disconnect (characterId) : Warranted session visit log characterId disconnectUpdates none
  | writeBack {characterId document base corp} (now)
      (hloggedIn : session.characterId = some characterId)
      (hread : Read log characterId document) (hbase : BaseForm base)
      (hcorp : CorpWarranted log document corp) :
      Warranted session visit log characterId (base ++ corp ++ [.updatedAt now]) none

/-- A call, if it updates a character, does so for a reason. -/
def WarrantedOp (session : Session) (visit : Visit) (log : AuthLog) : Op → Prop
  | .updateCharacter characterId updates upsert =>
      Warranted session visit log characterId updates upsert
  | _ => True

/-- The newest call of a log has a reason in the others. -/
def NewestWarranted (session : Session) (visit : Visit) : AuthLog → Prop
  | [] => True
  | call :: log => WarrantedOp session visit log call.op

/-- The call updates no character. -/
def NoUpdate : Op → Prop
  | .updateCharacter .. => False
  | _ => True

/-- No call of the log can change a character. -/
def Unwritten (log : AuthLog) : Prop :=
  ∀ call ∈ log, ∀ characters, call.op.effect characters = characters

/-- The update of a character has raised an error. -/
def UpdateRaised (log : AuthLog) : Prop :=
  ∃ characterId updates upsert error,
    ⟨.updateCharacter characterId updates upsert, .error error⟩ ∈ log

/-! ## Which session a request leaves -/

/-- The reply shows something, or leads somewhere, but not to SSO. -/
def Body.Stays (body : Body) : Prop := ∀ state corp, body ≠ .authorize state corp

/-- **Which session a request leaves**, with its reply. -/
inductive Leaves (session : Session) (visit : Visit) (log : AuthLog) :
    Except AuthError Reply → Prop
  | raised {error} (hcallback : visit.IsCallback → Unwritten log ∨ UpdateRaised log) :
      Leaves session visit log (.error error)
  | refused {statusCode detail} (hunwritten : Unwritten log) :
      Leaves session visit log (.ok ⟨session, .httpException statusCode detail⟩)
  | shown {left body} (hvisit : ¬ visit.IsCallback)
      (hleft : left = session ∨ left = { session with characterId := none })
      (hbody : body.Stays) : Leaves session visit log (.ok ⟨left, body⟩)
  | cleared (hvisit : ¬ visit.IsCallback) : Leaves session visit log (.ok ⟨{}, .redirect "/"⟩)
  | asked {verifier state} (hvisit : ¬ visit.IsCallback) :
      Leaves session visit log (.ok ⟨{ session with
        pkceVerifier := some verifier, pkceState := some state }, .authorize state false⟩)
  | askedCorp {verifier state} (hvisit : ¬ visit.IsCallback) :
      Leaves session visit log (.ok ⟨{ session with
        corpPkceVerifier := some verifier, corpPkceState := some state }, .authorize state true⟩)
  | loggedIn {code state} (verifier token claims) (hvisit : visit = .callback code state)
      (hpending : session.pkceState = some state) (hcorp : session.corpPkceState ≠ some state)
      (hverifier : session.pkceVerifier = some verifier)
      (hexchanged : Exchanged log code verifier token claims) :
      Leaves session visit log (.ok ⟨{ session with
        characterId := some claims.characterId, pkceVerifier := none, pkceState := none },
        .redirect "/"⟩)
  | connected {code state} (hvisit : visit = .callback code state)
      (hpending : session.corpPkceState = some state) :
      Leaves session visit log (.ok ⟨{ session with
        corpPkceVerifier := none, corpPkceState := none }, .redirect "/settings"⟩)

section Logs

variable {session : Session} {visit : Visit} {log later : AuthLog} {characterId : ℤ}
  {document : CharacterDocument}

/-- A call that is no update needs no reason. -/
theorem warrantedOp_of_noUpdate {op : Op} (hop : NoUpdate op) :
    WarrantedOp session visit log op := by
  cases op with
  | updateCharacter characterId updates upsert => exact hop.elim
  | _ => trivial

/-- A program that updates no character. -/
theorem records_noUpdate {β : Type} {program : Code β} (hissues : program.Issues NoUpdate) :
    program.Records (NewestWarranted session visit) (fun _ later => log <:+ later) log := by
  induction program generalizing log with
  | ret value => exact List.suffix_refl log
  | raise error => exact List.suffix_refl log
  | call op next ih =>
      intro answer
      refine ⟨warrantedOp_of_noUpdate hissues.1, (ih answer (hissues.2 answer)).mono ?_⟩
      exact fun _ later hlater => (List.suffix_cons _ log).trans hlater

/-- SSO has granted a token for the refresh token, or refused it. -/
theorem records_grant (refreshToken : String) :
    (refreshAccessToken refreshToken).Records (NewestWarranted session visit)
      (fun outcome later => log <:+ later ∧ ∀ token, outcome = .ok (some token) →
        ⟨.requestToken (.refreshToken refreshToken), .ok token⟩ ∈ later) log := by
  intro answer
  refine ⟨trivial, ?_⟩
  cases answer with
  | ok token =>
      refine ⟨List.suffix_cons _ _, fun other heq => ?_⟩
      obtain rfl := Option.some_inj.mp (Except.ok.inj heq)
      exact List.mem_cons_self ..
  | error error =>
      show (if error = .httpStatus 400 ∨ error = .httpStatus 401 then (return none : Code _)
        else throw error).Records _ _ _
      split_ifs
      · exact ⟨List.suffix_cons _ _, by simp⟩
      · exact ⟨List.suffix_cons _ _, by simp⟩

/-- The base token of a document has no part in its corporation token. -/
theorem corpWarranted_update {token : TokenResponse} {expiresAt : ℤ} {corp : List Assignment}
    (hcorp : CorpWarranted log (document.update (baseUpdates token expiresAt)) corp) :
    CorpWarranted log document corp := by
  cases hcorp with
  | none => exact .none
  | refreshed expiresAt hdocument hgranted => exact .refreshed expiresAt hdocument hgranted
  | refused => exact .refused

theorem records_warrantCorp :
    (refreshCorp document).Records (NewestWarranted session visit)
      (fun outcome later => log <:+ later ∧ ∀ corp, outcome = .ok corp →
        CorpWarranted later document corp) log := by
  unfold refreshCorp
  split
  · rename_i refreshToken expiresAt hdocument _
    have hclock : (await .utcnow).Issues NoUpdate := Program.Issues.perform trivial
    refine (records_noUpdate hclock).bind ?_ fun _ _ hsuffix => ⟨hsuffix, by simp⟩
    intro now clocked hclocked
    split
    · refine (records_grant refreshToken).bind ?_ fun _ _ hmiddle =>
        ⟨hclocked.trans hmiddle.1, by simp⟩
      rintro token granted ⟨hgranted, htoken⟩
      have hsuffix := hclocked.trans hgranted
      -- SSO refuses the token, or grants a pair for it
      cases token with
      | none =>
          refine ⟨hsuffix, fun corp heq => ?_⟩
          obtain rfl := Except.ok.inj heq
          exact .refused
      | some token =>
          refine (records_noUpdate ?_).bind ?_ fun _ _ hmiddle => ⟨hsuffix.trans hmiddle, by simp⟩
          · exact Program.Issues.bind (Program.Issues.perform trivial) fun _ => issues_addSeconds ..
          intro expires final hfinal
          refine ⟨hsuffix.trans hfinal, fun corp heq => ?_⟩
          obtain rfl := Except.ok.inj heq
          exact .refreshed expires hdocument (hfinal.subset (htoken token rfl))
    · refine ⟨hclocked, fun corp heq => ?_⟩
      obtain rfl := Except.ok.inj heq
      exact .none
  · refine ⟨List.suffix_refl log, fun corp heq => ?_⟩
    obtain rfl := Except.ok.inj heq
    exact .none

/-- Writing back leaves the document with what has been refreshed. -/
theorem records_warrantWriteBack {base corp : List Assignment}
    (hloggedIn : session.characterId = some characterId) (hread : Read log characterId document)
    (hbase : BaseForm base) (hcorp : CorpWarranted log document corp)
    (written : CharacterDocument) :
    (writeBack characterId written (base ++ corp)).Records (NewestWarranted session visit)
      (fun _ _ => True) log := by
  rw [writeBack]
  split
  · trivial
  have hclock : (await .utcnow).Issues NoUpdate := Program.Issues.perform trivial
  refine (records_noUpdate hclock).bind ?_ fun _ _ _ => trivial
  intro now clocked hclocked
  have hreason : Warranted session visit clocked characterId (base ++ corp ++ [.updatedAt now])
      none := by
    refine .writeBack now hloggedIn (hclocked.subset hread) hbase ?_
    cases hcorp with
    | none => exact .none
    | refreshed expiresAt hdocument hgranted =>
        exact .refreshed expiresAt hdocument (hclocked.subset hgranted)
    | refused => exact .refused
  have hupdate : (await (.updateCharacter characterId (base ++ corp ++ [.updatedAt now])
      none)).Records (NewestWarranted session visit) (fun _ _ => True) clocked :=
    Program.Records.perform fun answer => ⟨hreason, trivial⟩
  exact hupdate.bind (fun _ _ _ => trivial) fun _ _ _ => trivial

/-- The session as it was, or nobody and the session without its character. -/
def Kept (session : Session) (found : Option CharacterDocument × Session) : Prop :=
  found.2 = session ∨ found = (none, { session with characterId := none })

theorem records_currentCharacter (session : Session) :
    (currentCharacterOptional session).Records (NewestWarranted session visit)
      (fun outcome _ => ∀ found, outcome = .ok found → Kept session found) [] := by
  -- a return with the session as it was
  have hkept : ∀ (character : Option CharacterDocument) found,
      (.ok (character, session) : Except AuthError _) = .ok found → Kept session found :=
    fun character found heq => Except.ok.inj heq ▸ Or.inl rfl
  unfold currentCharacterOptional
  split
  · exact hkept none
  rename_i characterId hsession
  have hfind : (await (.findCharacter characterId)).Records (NewestWarranted session visit)
      (fun outcome later =>
        ∀ document, outcome = .ok (some document) → Read later characterId document) [] := by
    refine Program.Records.perform fun answer => ⟨trivial, fun document hanswer => ?_⟩
    rw [hanswer]
    exact List.mem_cons_self ..
  refine hfind.bind ?_ (by simp)
  rintro (_ | document) log hread
  · exact hkept none
  have hread := hread document rfl
  have hclock : (await .utcnow).Issues NoUpdate := Program.Issues.perform trivial
  refine (records_noUpdate hclock).bind ?_ (by simp)
  intro now clocked hclocked
  -- what is written back, and the return after it
  have hwriteBack : ∀ {base corp log} written, BaseForm base → Read log characterId document →
      CorpWarranted log document corp →
      (writeBack characterId written (base ++ corp) >>= fun character =>
        (return (some character, session) : Code _)).Records (NewestWarranted session visit)
        (fun outcome _ => ∀ found, outcome = .ok found → Kept session found) log := by
    intro base corp log written hbase hread hcorp
    exact (records_warrantWriteBack hsession hread hbase hcorp written).bind
      (fun character _ _ => hkept (some character)) (by simp)
  split
  · refine (records_grant document.refreshToken).bind ?_ (by simp)
    rintro token granted ⟨hgranted, _⟩
    have hread := hgranted.subset (hclocked.subset hread)
    cases token with
    | none =>
        intro found hfound
        obtain rfl := Except.ok.inj hfound
        exact Or.inr rfl
    | some token =>
        have hexpires : (expiresAt token.expiresIn).Issues NoUpdate :=
          Program.Issues.bind (Program.Issues.perform trivial) fun _ => issues_addSeconds ..
        refine (records_noUpdate hexpires).bind ?_ (by simp)
        intro expires expiring hexpiring
        refine records_warrantCorp.bind ?_ (by simp)
        rintro corp later ⟨hlater, hcorp⟩
        refine hwriteBack _ (.refreshed token expires) (hlater.subset (hexpiring.subset hread)) ?_
        exact corpWarranted_update (hcorp corp rfl)
  · refine records_warrantCorp.bind ?_ (by simp)
    rintro corp later ⟨hlater, hcorp⟩
    exact hwriteBack document .none (hlater.subset (hclocked.subset hread)) (hcorp corp rfl)

/-! ## Requests -/

/-- A request that reads its character leaves the session of its handler. -/
theorem records_visitCharacter (hvisit : ¬ visit.IsCallback)
    {handler : CharacterDocument → Session → Code Reply}
    (hhandler : ∀ character log, (handler character session).Records
      (NewestWarranted session visit) (fun outcome later => Leaves session visit later outcome)
      log) :
    (withCharacter session handler).Records (NewestWarranted session visit)
      (fun outcome later => Leaves session visit later outcome) [] := by
  refine (records_currentCharacter session).bind ?_ fun error later _ =>
    .raised fun hcallback => absurd hcallback hvisit
  rintro ⟨_ | character, left⟩ log hfound
  · refine .shown hvisit ?_ (by simp [Body.Stays])
    exact (hfound _ rfl).imp id fun heq => congrArg Prod.snd heq
  · rcases hfound _ rfl with hleft | hnone
    · obtain rfl : left = session := hleft
      exact hhandler character log
    · cases hnone

theorem unwritten_nil : Unwritten [] := by simp [Unwritten]

theorem Unwritten.cons {call : Call signature AuthError} (hlog : Unwritten log)
    (hcall : ∀ characters, call.op.effect characters = characters) : Unwritten (call :: log) :=
  List.forall_mem_cons.mpr ⟨hcall, hlog⟩

/-- The callback for the login. -/
theorem records_completeLogin {code state : String} (hvisit : visit = .callback code state)
    (hcorp : session.corpPkceState ≠ some state) :
    (completeLogin session code state).Records (NewestWarranted session visit)
      (fun outcome later => Leaves session visit later outcome) [] := by
  unfold completeLogin
  extract_lets expectedState codeVerifier
  split
  · exact .refused unwritten_nil
  rename_i hstate
  simp only [not_or, not_not] at hstate
  obtain ⟨hexpected, hverifier, heq⟩ := hstate
  -- what has been checked is the pending state with its verifier
  have hpending : session.pkceState = some state := by
    cases hsession : session.pkceState with
    | none => simp [expectedState, hsession] at hexpected
    | some pending => simp [heq, expectedState, hsession]
  have hsome : session.pkceVerifier = some codeVerifier := by
    cases hsession : session.pkceVerifier with
    | none => simp [codeVerifier, hsession] at hverifier
    | some verifier => simp [codeVerifier, hsession]
  -- each of the four calls can raise, as can the sum before the last one, and the next one
  -- follows only if it does not
  intro exchange
  refine ⟨trivial, ?_⟩
  cases exchange with
  | error error => exact .raised fun _ => Or.inl (unwritten_nil.cons fun _ => rfl)
  | ok token =>
  intro validation
  refine ⟨trivial, ?_⟩
  cases validation with
  | error error =>
      exact .raised fun _ => Or.inl ((unwritten_nil.cons fun _ => rfl).cons fun _ => rfl)
  | ok claims =>
  intro clock
  refine ⟨trivial, ?_⟩
  cases clock with
  | error error =>
      refine .raised fun _ => Or.inl ?_
      exact ((unwritten_nil.cons fun _ => rfl).cons fun _ => rfl).cons fun _ => rfl
  | ok now =>
  show Program.Records _ (addSeconds now token.expiresIn >>= _) _ _
  rw [addSeconds]
  split
  case h_2 =>
    refine .raised fun _ => Or.inl ?_
    exact ((unwritten_nil.cons fun _ => rfl).cons fun _ => rfl).cons fun _ => rfl
  rename_i expiresAt _
  intro update
  refine ⟨.login token claims now expiresAt, ?_⟩
  cases update with
  | error error => exact .raised fun _ => Or.inr ⟨_, _, _, error, List.mem_cons_self ..⟩
  | ok value =>
      exact .loggedIn codeVerifier token claims hvisit hpending hcorp hsome ⟨by simp, by simp⟩

/-- The callback for the connection of corporation data. -/
theorem records_completeCorpConnection {code state : String} (hvisit : visit = .callback code state)
    (hpending : session.corpPkceState = some state) :
    (completeCorpConnection session code).Records (NewestWarranted session visit)
      (fun outcome later => Leaves session visit later outcome) [] := by
  unfold completeCorpConnection
  extract_lets codeVerifier
  split
  · exact .refused unwritten_nil
  rename_i characterId hsession
  split
  · exact .refused unwritten_nil
  intro exchange
  refine ⟨trivial, ?_⟩
  cases exchange with
  | error error => exact .raised fun _ => Or.inl (unwritten_nil.cons fun _ => rfl)
  | ok token =>
  intro validation
  refine ⟨trivial, ?_⟩
  -- no call of these writes
  have hvalidated : ∀ validation : Except AuthError CharacterClaims,
      Unwritten [⟨.validateAccessToken token.accessToken, validation⟩,
        ⟨.requestToken (.authorizationCode code codeVerifier), .ok token⟩] :=
    fun _ => (unwritten_nil.cons fun _ => rfl).cons fun _ => rfl
  cases validation with
  | error error => exact .raised fun _ => Or.inl (hvalidated _)
  | ok claims =>
  show Program.Records _ (if claims.characterId ≠ characterId then _ else _) _ _
  split
  · exact .refused (hvalidated _)
  rename_i hsame
  -- the token is for the character that is logged in
  have hloggedIn : session.characterId = some claims.characterId :=
    hsession.trans (congrArg some (not_ne_iff.mp hsame).symm)
  intro publicInfo
  refine ⟨trivial, ?_⟩
  cases publicInfo with
  | error error => exact .raised fun _ => Or.inl ((hvalidated _).cons fun _ => rfl)
  | ok corporationId =>
  intro clock
  refine ⟨trivial, ?_⟩
  cases clock with
  | error error =>
      exact .raised fun _ => Or.inl (((hvalidated _).cons fun _ => rfl).cons fun _ => rfl)
  | ok now =>
  show Program.Records _ (addSeconds now token.expiresIn >>= _) _ _
  rw [addSeconds]
  split
  case h_2 =>
    exact .raised fun _ => Or.inl (((hvalidated _).cons fun _ => rfl).cons fun _ => rfl)
  rename_i expiresAt _
  intro update
  refine ⟨.connect codeVerifier token claims corporationId now expiresAt hvisit hloggedIn
    ⟨by simp, by simp⟩, ?_⟩
  cases update with
  | error error => exact .raised fun _ => Or.inr ⟨_, _, _, error, List.mem_cons_self ..⟩
  | ok value => exact .connected hvisit hpending

/-- **Every request** leaves a session that it may leave, and updates characters for a
reason. -/
theorem records_visit (session : Session) (visit : Visit) :
    (auth.body (visit.start session)).Records (NewestWarranted session visit)
      (fun outcome later => Leaves session visit later outcome) [] := by
  cases visit with
  | page =>
      refine (records_currentCharacter session).bind ?_ fun error later _ =>
        .raised (by simp [Visit.IsCallback])
      rintro ⟨character, left⟩ log hfound
      refine .shown (by simp [Visit.IsCallback]) ?_ (by simp [Body.Stays])
      exact (hfound _ rfl).imp id fun heq => congrArg Prod.snd heq
  | memberPage =>
      refine records_visitCharacter (by simp [Visit.IsCallback]) fun character log => ?_
      exact .shown (by simp [Visit.IsCallback]) (Or.inl rfl) (by simp [Body.Stays])
  | login =>
      intro verifier
      refine ⟨trivial, ?_⟩
      cases verifier with
      | error error => exact .raised (by simp [Visit.IsCallback])
      | ok verifier =>
      intro state
      refine ⟨trivial, ?_⟩
      cases state with
      | error error => exact .raised (by simp [Visit.IsCallback])
      | ok state => exact .asked (by simp [Visit.IsCallback])
  | callback code state =>
      show (callback session code state).Records _ _ _
      unfold callback
      split
      · rename_i hpending
        exact records_completeCorpConnection rfl hpending
      · rename_i hother
        exact records_completeLogin rfl hother
  | logout => exact .cleared (by simp [Visit.IsCallback])
  | connectCorp =>
      refine records_visitCharacter (by simp [Visit.IsCallback]) fun character log verifier => ?_
      refine ⟨trivial, ?_⟩
      cases verifier with
      | error error => exact .raised (by simp [Visit.IsCallback])
      | ok verifier =>
      intro state
      refine ⟨trivial, ?_⟩
      cases state with
      | error error => exact .raised (by simp [Visit.IsCallback])
      | ok state => exact .askedCorp (by simp [Visit.IsCallback])
  | disconnectCorp =>
      refine records_visitCharacter (by simp [Visit.IsCallback]) fun character log update => ?_
      refine ⟨.disconnect _, ?_⟩
      cases update with
      | error error => exact .raised (by simp [Visit.IsCallback])
      | ok value =>
          exact .shown (by simp [Visit.IsCallback]) (Or.inl rfl) (by simp [Body.Stays])
  | clearData =>
      refine records_visitCharacter (by simp [Visit.IsCallback]) fun character log delete => ?_
      refine ⟨trivial, ?_⟩
      cases delete with
      | error error => exact .raised (by simp [Visit.IsCallback])
      | ok value => exact .cleared (by simp [Visit.IsCallback])

end Logs

end EveBuild.Auth
