import EveBuild.Auth.Connection
import EveBuild.Effect.Log

/-!
# Refused tokens

What a request does when SSO refuses a token: it drops the login, or it writes down
that the corporation token is gone.  It does so only if SSO has refused a token of the
document that the request itself has read (`Explained`, `requestPost`).

Refresh tokens are single use (`singleUse`): SSO grants a new token for one that it
accepts, and from then on refuses the old one.  So a token that has been refused is
not accepted at any later time (`RefusedForever`), and a request gives a login or a
connection up only for a token that is not accepted any more
(`gives_up_only_refused`).  This is the token that the request has read.  The one that is stored
can be another one by then: `live_login_dropped` is a run of two requests of which the
second drops the login of a character whose stored token is accepted.
-/

namespace EveBuild.Auth

open Effect

/-! ## What a request has learnt -/

/-- SSO has refused the refresh token. -/
def Refused (log : AuthLog) (refreshToken : String) : Prop :=
  ⟨.requestToken (.refreshToken refreshToken), .error (.httpStatus 400)⟩ ∈ log ∨
    ⟨.requestToken (.refreshToken refreshToken), .error (.httpStatus 401)⟩ ∈ log

/-- The update takes the corporation token away and leaves the corporation. -/
def NotesRefusal (updates : List Assignment) : Prop :=
  .corpRefreshToken none ∈ updates ∧ .corporationId none ∉ updates

/-- A refusal of the corporation token is only written down after SSO has refused the one
that the request has read. -/
def Explained (log : AuthLog) : Prop :=
  ∀ characterId updates upsert answer,
    ⟨.updateCharacter characterId updates upsert, answer⟩ ∈ log → NotesRefusal updates →
    ∃ document corpRefreshToken, Read log characterId document ∧
      document.corpRefreshToken = some corpRefreshToken ∧ Refused log corpRefreshToken

/-- The call writes no refusal down. -/
def Quiet : Op → Prop
  | .updateCharacter _ updates _ => ¬ NotesRefusal updates
  | _ => True

section Logs

variable {log later : AuthLog} {characterId : ℤ} {document : CharacterDocument}

theorem Read.mono (hsuffix : log <:+ later) (hread : Read log characterId document) :
    Read later characterId document := hsuffix.subset hread

theorem Refused.mono {refreshToken : String} (hsuffix : log <:+ later)
    (hrefused : Refused log refreshToken) : Refused later refreshToken :=
  hrefused.imp (hsuffix.subset ·) (hsuffix.subset ·)

theorem explained_nil : Explained [] := by simp [Explained]

/-- A quiet call has nothing to explain. -/
theorem Explained.cons {call : Call signature AuthError} (hquiet : Quiet call.op)
    (hlog : Explained log) : Explained (call :: log) := by
  intro characterId updates upsert answer hcall hnotes
  rcases List.mem_cons.mp hcall with rfl | hcall
  · exact absurd hnotes hquiet
  · obtain ⟨document, corpRefreshToken, hread, hdocument, hrefused⟩ :=
      hlog characterId updates upsert answer hcall hnotes
    exact ⟨document, corpRefreshToken, hread.mono (List.suffix_cons _ _), hdocument,
      hrefused.mono (List.suffix_cons _ _)⟩

theorem records_refreshAccessToken (refreshToken : String) (hlog : Explained log) :
    (refreshAccessToken refreshToken).Records Explained (fun outcome later =>
      log <:+ later ∧ Explained later ∧ (outcome = .ok none → Refused later refreshToken)) log := by
  intro answer
  have hlater : Explained (⟨.requestToken (.refreshToken refreshToken), answer⟩ :: log) :=
    hlog.cons trivial
  refine ⟨hlater, ?_⟩
  cases answer with
  | ok token => exact ⟨List.suffix_cons _ _, hlater, nofun⟩
  | error error =>
      show (if error = .httpStatus 400 ∨ error = .httpStatus 401 then (return none : Code _)
        else throw error).Records _ _ _
      split_ifs with hrefused
      · refine ⟨List.suffix_cons _ _, hlater, fun _ => ?_⟩
        rcases hrefused with rfl | rfl
        · exact Or.inl (List.mem_cons_self ..)
        · exact Or.inr (List.mem_cons_self ..)
      · exact ⟨List.suffix_cons _ _, hlater, nofun⟩

theorem records_clock (hlog : Explained log) :
    (await .utcnow).Records Explained (fun _ later => log <:+ later ∧ Explained later) log :=
  Program.Records.perform fun _ =>
    ⟨hlog.cons trivial, List.suffix_cons _ _, hlog.cons trivial⟩

theorem records_expiresAt (expiresIn : ExpiresIn) (hlog : Explained log) :
    (expiresAt expiresIn).Records Explained (fun _ later => log <:+ later ∧ Explained later)
      log := by
  refine (records_clock hlog).bind (fun now clocked hclocked => ?_) fun _ _ hmiddle => hmiddle
  unfold addSeconds
  split <;> exact hclocked

/-- What `refreshCorp` finds to be written, and why. -/
structure CorpFound (document : CharacterDocument) (log : AuthLog) (corp : List Assignment)
    (later : AuthLog) : Prop where
  suffix : log <:+ later
  explained : Explained later
  form : CorpForm corp
  refused : corp = refusedUpdates → ∃ corpRefreshToken,
    document.corpRefreshToken = some corpRefreshToken ∧ Refused later corpRefreshToken

theorem records_refreshCorp (hlog : Explained log) :
    (refreshCorp document).Records Explained (fun outcome later =>
      ∀ corp, outcome = .ok corp → CorpFound document log corp later) log := by
  -- no update to make
  have hnothing : ∀ later, log <:+ later → Explained later → CorpFound document log [] later :=
    fun later hsuffix hlater => ⟨hsuffix, hlater, .none, nofun⟩
  unfold refreshCorp
  split
  · rename_i corpRefreshToken corpAccessTokenExpiresAt hcorp hexpires
    refine (records_clock hlog).bind ?_ (by simp)
    rintro now clocked ⟨hclocked, hexplained⟩
    split
    · refine (records_refreshAccessToken corpRefreshToken hexplained).bind ?_ (by simp)
      rintro token refreshed ⟨hrefreshed, hexplained, hrefused⟩
      have hsuffix := hclocked.trans hrefreshed
      cases token with
      | none =>
          -- `refresh_access_token` returns None only for a refusal
          intro corp hcorpEq
          obtain rfl := Except.ok.inj hcorpEq
          exact ⟨hsuffix, hexplained, .refused, fun _ => ⟨corpRefreshToken, hcorp, hrefused rfl⟩⟩
      | some corpToken =>
          refine (records_expiresAt corpToken.expiresIn hexplained).bind ?_ (by simp)
          rintro expiresAt final ⟨hfinal, hexplained⟩ corp hcorpEq
          obtain rfl := Except.ok.inj hcorpEq
          exact ⟨hsuffix.trans hfinal, hexplained, .refreshed _ _, by
            simp [corpUpdates, refusedUpdates]⟩
    · intro corp hcorpEq
      obtain rfl := Except.ok.inj hcorpEq
      exact hnothing _ hclocked hexplained
  · intro corp hcorpEq
    obtain rfl := Except.ok.inj hcorpEq
    exact hnothing _ (List.suffix_refl _) hlog

/-- Only a refusal notes one. -/
theorem eq_refused_of_notes {base corp : List Assignment} {now : ℤ} (hbase : BaseForm base)
    (hcorp : CorpForm corp) (hnotes : NotesRefusal (base ++ corp ++ [.updatedAt now])) :
    corp = refusedUpdates := by
  cases hcorp with
  | none => cases hbase <;> simp [NotesRefusal, baseUpdates] at hnotes
  | refreshed token expiresAt =>
      cases hbase <;> simp [NotesRefusal, baseUpdates, corpUpdates] at hnotes
  | refused => rfl

theorem records_writeBack {base corp : List Assignment} (hbase : BaseForm base)
    (hread : Read log characterId document) {first : AuthLog}
    (hfound : CorpFound document first corp log) :
    (writeBack characterId document (base ++ corp)).Records Explained
      (fun outcome later => ∀ value, outcome = .ok value → Explained later) log := by
  rw [writeBack]
  split
  · exact fun value _ => hfound.explained
  refine (records_clock hfound.explained).bind ?_ (by simp)
  rintro now clocked ⟨hclocked, hexplained⟩
  -- the write notes a refusal only if `corp` does
  have hwrite : (await (.updateCharacter characterId (base ++ corp ++ [.updatedAt now])
      none)).Records Explained (fun _ later => Explained later) clocked := by
    refine Program.Records.perform fun answer => ?_
    rw [and_self]
    intro target updates upsert answer' hcall hnotes
    rcases List.mem_cons.mp hcall with heq | hcall
    · obtain ⟨rfl, rfl, rfl⟩ := Op.updateCharacter.inj (congrArg Call.op heq)
      obtain ⟨corpRefreshToken, hcorp, hrefused⟩ :=
        hfound.refused (eq_refused_of_notes hbase hfound.form hnotes)
      exact ⟨document, corpRefreshToken, (hread.mono hclocked).mono (List.suffix_cons _ _), hcorp,
        (hrefused.mono hclocked).mono (List.suffix_cons _ _)⟩
    · obtain ⟨document, corpRefreshToken, hread, hdocument, hrefused⟩ :=
        hexplained target updates upsert answer' hcall hnotes
      exact ⟨document, corpRefreshToken, hread.mono (List.suffix_cons _ _), hdocument,
        hrefused.mono (List.suffix_cons _ _)⟩
  exact hwrite.bind (fun _ _ hlater _ _ => hlater) (by simp)

/-- What `currentCharacterOptional` has done when it returns. -/
structure CharacterFound (session : Session) (found : Option CharacterDocument × Session)
    (log : AuthLog) : Prop where
  explained : Explained log
  kept : found.1 ≠ none → found.2 = session
  dropped : found.2.characterId = none → session.characterId = none ∨
    ∃ characterId document, session.characterId = some characterId ∧
      Read log characterId document ∧ Refused log document.refreshToken

theorem records_currentCharacterOptional (session : Session) :
    (currentCharacterOptional session).Records Explained (fun outcome later =>
      ∀ found, outcome = .ok found → CharacterFound session found later) [] := by
  -- a return with the session as it was
  have hkept : ∀ (character : Option CharacterDocument) later, Explained later →
      CharacterFound session (character, session) later :=
    fun character later hlater => ⟨hlater, fun _ => rfl, fun hnone => Or.inl hnone⟩
  unfold currentCharacterOptional
  split
  · intro found hfound
    obtain rfl := Except.ok.inj hfound
    exact hkept none [] explained_nil
  rename_i characterId hsession
  have hfind : (await (.findCharacter characterId)).Records Explained (fun outcome later =>
      Explained later ∧
        ∀ document, outcome = .ok (some document) → Read later characterId document) [] := by
    refine Program.Records.perform fun answer => ?_
    have hlater : Explained [⟨.findCharacter characterId, answer⟩] := explained_nil.cons trivial
    refine ⟨hlater, hlater, fun document hanswer => ?_⟩
    rw [hanswer]
    exact List.mem_cons_self ..
  refine hfind.bind ?_ (by simp)
  rintro (_ | document) log ⟨hlog, hread⟩
  · intro found hfound
    obtain rfl := Except.ok.inj hfound
    exact hkept none log hlog
  have hread := hread document rfl
  refine (records_clock hlog).bind ?_ (by simp)
  rintro now clocked ⟨hclocked, hexplained⟩
  -- what is written back, and the return after it
  have hwriteBack : ∀ {base corp first log}, BaseForm base → Read log characterId document →
      CorpFound document first corp log →
      (writeBack characterId document (base ++ corp) >>= fun character =>
        (return (some character, session) : Code _)).Records Explained
        (fun outcome later => ∀ found, outcome = .ok found → CharacterFound session found later)
        log := by
    intro base corp first log hbase hread hfound
    refine (records_writeBack hbase hread hfound).bind ?_ (by simp)
    intro character later hlater found hreturn
    obtain rfl := Except.ok.inj hreturn
    exact hkept (some character) later (hlater character rfl)
  split
  · refine (records_refreshAccessToken document.refreshToken hexplained).bind ?_ (by simp)
    rintro token refreshed ⟨hrefreshed, hexplained, hrefused⟩
    have hread := (hread.mono hclocked).mono hrefreshed
    cases token with
    | none =>
        intro found hfound
        obtain rfl := Except.ok.inj hfound
        exact ⟨hexplained, fun hnone => absurd rfl hnone, fun _ =>
          Or.inr ⟨characterId, document, hsession, hread, hrefused rfl⟩⟩
    | some token =>
        refine (records_expiresAt token.expiresIn hexplained).bind ?_ (by simp)
        rintro expiresAt expiring ⟨hexpiring, hexplained⟩
        refine (records_refreshCorp hexplained).bind ?_ (by simp)
        intro corp later hcorp
        obtain ⟨hsuffix, hlater, hform, hwhy⟩ := hcorp corp rfl
        exact hwriteBack (.refreshed token expiresAt) ((hread.mono hexpiring).mono hsuffix)
          ⟨hsuffix, hlater, hform, hwhy⟩
  · refine (records_refreshCorp hexplained).bind ?_ (by simp)
    intro corp later hcorp
    have hfound := hcorp corp rfl
    exact hwriteBack .none ((hread.mono hclocked).mono hfound.suffix) hfound

end Logs

/-! ## What a request gives up -/

/-- The session of a request that reads its character. -/
def Start.session? : Start → Option Session
  | .page session => some session
  | .memberPage session => some session
  | .connectCorp session => some session
  | .disconnectCorp session => some session
  | .clearData session => some session
  | _ => none

/-- The reply of a request that has found no character and leaves no character in its
session. -/
structure DropsLogin (session : Session) (reply : Reply) : Prop where
  loggedIn : session.characterId ≠ none
  loggedOut : reply.session.characterId = none
  nobody : reply.body = .page none ∨ reply.body = .httpException 401 "Not authenticated"

/-- A request drops the login only after SSO has refused the token of the document that it
has read. -/
def requestPost (start : Start) (outcome : Except AuthError Reply) (log : AuthLog) : Prop :=
  ∀ session reply, start.session? = some session → outcome = .ok reply →
    DropsLogin session reply → ∃ characterId document, session.characterId = some characterId ∧
      Read log characterId document ∧ Refused log document.refreshToken

theorem CharacterFound.drops {session : Session} {found : Option CharacterDocument × Session}
    {log : AuthLog} (hfound : CharacterFound session found log) {reply : Reply}
    (hreply : reply.session = found.2) (hdrops : DropsLogin session reply) :
    ∃ characterId document, session.characterId = some characterId ∧
      Read log characterId document ∧ Refused log document.refreshToken :=
  (hfound.dropped (hreply ▸ hdrops.loggedOut)).resolve_left hdrops.loggedIn

theorem records_withCharacter {start : Start} {session : Session}
    (hstart : start.session? = some session) {handler : CharacterDocument → Session → Code Reply}
    (hissues : ∀ character session, (handler character session).Issues Quiet)
    (hreturns : ∀ character session, (handler character session).Returns fun reply =>
      reply.body ≠ .page none ∧ reply.body ≠ .httpException 401 "Not authenticated") :
    (withCharacter session handler).Records Explained (requestPost start) [] := by
  refine (records_currentCharacterOptional session).bind ?_ ?_
  · rintro ⟨_ | character, left⟩ log hmiddle
    · intro session' reply hsession hreply hdrops
      obtain rfl := Option.some_inj.mp (hstart.symm.trans hsession)
      obtain rfl := Except.ok.inj hreply
      exact (hmiddle _ rfl).drops rfl hdrops
    · refine ((hissues character left).records_of_cons (hreturns character left)
        (fun call log hquiet hlog => hlog.cons hquiet) (hmiddle _ rfl).explained).mono ?_
      rintro outcome later ⟨_, hreturned⟩ session' reply _ hreply hdrops
      obtain ⟨hpage, hexception⟩ := hreturned reply hreply
      rcases hdrops.nobody with hbody | hbody
      · exact absurd hbody hpage
      · exact absurd hbody hexception
  · intro error log _ session' reply _ hreply
    cases hreply

/-- A request that reads no character. -/
theorem records_of_quiet {start : Start} (hstart : start.session? = none) {program : Code Reply}
    (hissues : program.Issues Quiet) : program.Records Explained (requestPost start) [] := by
  refine (hissues.records_of_cons (Program.returns_true program)
    (fun call log hquiet hlog => hlog.cons hquiet) explained_nil).mono ?_
  intro outcome later _ session reply hsession
  rw [hstart] at hsession
  cases hsession

theorem issues_quiet_login (session : Session) : (login session).Issues Quiet := by
  refine Program.Issues.bind (Program.Issues.perform trivial) fun _ => ?_
  exact Program.Issues.bind (Program.Issues.perform trivial) fun _ => trivial

theorem issues_quiet_completeLogin (session : Session) (code state : String) :
    (completeLogin session code state).Issues Quiet := by
  unfold completeLogin
  extract_lets expectedState codeVerifier
  split
  · trivial
  refine Program.Issues.bind (Program.Issues.perform trivial) fun token => ?_
  refine Program.Issues.bind (Program.Issues.perform trivial) fun claims => ?_
  refine Program.Issues.bind (Program.Issues.perform trivial) fun now => ?_
  refine Program.Issues.bind (issues_addSeconds ..) fun expiresAt => ?_
  have hquiet : Quiet (.updateCharacter claims.characterId
      (loginDocument token claims now expiresAt).modelDump
      (some (loginDocument token claims now expiresAt))) := by
    simp [Quiet, NotesRefusal, CharacterDocument.modelDump, loginDocument]
  exact Program.Issues.bind (Program.Issues.perform hquiet) fun _ => trivial

theorem issues_quiet_completeCorpConnection (session : Session) (code : String) :
    (completeCorpConnection session code).Issues Quiet := by
  unfold completeCorpConnection
  extract_lets codeVerifier
  split
  · trivial
  split
  · trivial
  refine Program.Issues.bind (Program.Issues.perform trivial) fun token => ?_
  refine Program.Issues.bind (Program.Issues.perform trivial) fun claims => ?_
  split
  · trivial
  refine Program.Issues.bind (Program.Issues.perform trivial) fun corporationId => ?_
  refine Program.Issues.bind (Program.Issues.perform trivial) fun now => ?_
  refine Program.Issues.bind (issues_addSeconds ..) fun expiresAt => ?_
  have hquiet : Quiet (.updateCharacter claims.characterId
      (connectUpdates corporationId token claims now expiresAt) none) := by
    simp [Quiet, NotesRefusal, connectUpdates]
  exact Program.Issues.bind (Program.Issues.perform hquiet) fun _ => trivial

/-- **Every request** gives up only after a refusal. -/
theorem records_body (start : Start) :
    Explained [] ∧ (auth.body start).Records Explained (requestPost start) [] := by
  refine ⟨explained_nil, ?_⟩
  cases start with
  | page session =>
      -- a session is dropped only for the reason that the read had
      refine (records_currentCharacterOptional session).bind ?_ ?_
      · intro found log hmiddle session' reply hsession hreply hdrops
        obtain rfl := Option.some_inj.mp hsession
        obtain rfl := Except.ok.inj hreply
        exact (hmiddle found rfl).drops rfl hdrops
      · intro error log _ session' reply _ hreply
        cases hreply
  | memberPage session =>
      exact records_withCharacter rfl (fun _ _ => trivial) fun _ _ => ⟨nofun, nofun⟩
  | login session => exact records_of_quiet rfl (issues_quiet_login session)
  | callback session code state =>
      refine records_of_quiet rfl ?_
      show (callback session code state).Issues Quiet
      unfold callback
      split
      · exact issues_quiet_completeCorpConnection session code
      · exact issues_quiet_completeLogin session code state
  | logout session => exact records_of_quiet rfl trivial
  | connectCorp session =>
      refine records_withCharacter rfl (fun _ session => ?_) fun _ session => ?_
      · refine Program.Issues.bind (Program.Issues.perform trivial) fun _ => ?_
        exact Program.Issues.bind (Program.Issues.perform trivial) fun _ => trivial
      · refine Program.Returns.bind (Program.returns_true _) fun _ _ => ?_
        exact Program.Returns.bind (Program.returns_true _) fun _ _ => ⟨nofun, nofun⟩
  | disconnectCorp session =>
      refine records_withCharacter rfl (fun character session => ?_) fun _ session => ?_
      · have hquiet : Quiet (.updateCharacter character.characterId disconnectUpdates none) := by
          simp [Quiet, NotesRefusal, disconnectUpdates]
        exact Program.Issues.bind (Program.Issues.perform hquiet) fun _ => trivial
      · exact Program.Returns.bind (Program.returns_true _) fun _ _ => ⟨nofun, nofun⟩
  | clearData session =>
      refine records_withCharacter rfl (fun character session => ?_) fun _ session => ?_
      · exact Program.Issues.bind (Program.Issues.perform trivial) fun _ => trivial
      · exact Program.Returns.bind (Program.returns_true _) fun _ _ => ⟨nofun, nofun⟩

/-! ## Single use -/

/-- Refresh tokens are single use: one that is not accepted is refused, one that is
accepted is not, it is used up by the token that is granted for it, and that is a new
one. -/
def singleUse : Policy signature AuthError World Start Choice Tick where
  start _ _ := True
  call _ op choice moment :=
    match op, choice with
    | .requestToken form, .token answer usedUp =>
        (∀ token, answer = .ok token →
          (∀ presented ∈ form.refreshToken?, presented ∈ moment.world.accepted ∧ usedUp = true) ∧
          token.refreshToken ∉ form.refreshToken?.toList ++ moment.world.seen) ∧
        (answer = .error (.httpStatus 400) ∨ answer = .error (.httpStatus 401) →
          ∀ presented ∈ form.refreshToken?, presented ∉ moment.world.accepted)
    | _, _ => True
  crash _ _ := True
  tick _ _ := True

/-- What has been refused is not accepted any more, and will not be granted again. -/
def RefusedForever (moment : AuthMoment) : Prop :=
  ∀ thread refreshToken, Refused (moment.logOf thread) refreshToken →
    refreshToken ∈ moment.world.seen ∧ refreshToken ∉ moment.world.accepted

/-- An answer that refuses a token. -/
theorem refused_answer {moment : AuthMoment} {thread other : ℕ} {call : Call signature AuthError}
    {world : World} {refreshToken : String}
    (hrefused : Refused ((moment.answer thread call world).logOf other) refreshToken) :
    Refused (moment.logOf other) refreshToken ∨
      ∃ error, (error = .httpStatus 400 ∨ error = .httpStatus 401) ∧
        call = ⟨.requestToken (.refreshToken refreshToken), .error error⟩ := by
  rcases hrefused with hmem | hmem
  · rcases Moment.mem_answer_logOf hmem with hold | ⟨_, rfl⟩
    · exact Or.inl (Or.inl hold)
    · exact Or.inr ⟨_, Or.inl rfl, rfl⟩
  · rcases Moment.mem_answer_logOf hmem with hold | ⟨_, rfl⟩
    · exact Or.inl (Or.inr hold)
    · exact Or.inr ⟨_, Or.inr rfl, rfl⟩

/-- SSO only ever grants new tokens, so that one it has seen and does not accept stays so. -/
theorem dead_answerForm {world : World} {form : TokenForm}
    {answer : Except AuthError TokenResponse} {usedUp : Bool} {refreshToken : String}
    (hgranted : ∀ token, answer = .ok token →
      token.refreshToken ∉ form.refreshToken?.toList ++ world.seen)
    (hdead : refreshToken ∈ world.seen ∧ refreshToken ∉ world.accepted) :
    refreshToken ∈ (world.answerForm form answer usedUp).seen ∧
      refreshToken ∉ (world.answerForm form answer usedUp).accepted := by
  obtain ⟨hseen, haccepted⟩ := hdead
  refine ⟨List.mem_append_right _ hseen, fun hmem => ?_⟩
  rcases List.mem_append.mp hmem with hmem | hmem
  · obtain ⟨token, htoken, rfl⟩ := List.mem_map.mp hmem
    have hanswer : answer = .ok token := by
      cases answer with
      | ok other =>
          have heq : token = other := by simpa [Except.toOption] using htoken
          exact congrArg Except.ok heq.symm
      | error error => simp [Except.toOption] at htoken
    exact hgranted token hanswer (List.mem_append_right _ hseen)
  · split at hmem
    · exact haccepted (List.mem_of_mem_filter hmem)
    · exact haccepted hmem

/-- A token that has just been refused is not accepted. -/
theorem dead_of_refused {world : World} {refreshToken : String} {error : AuthError} {usedUp : Bool}
    (haccepted : refreshToken ∉ world.accepted) :
    refreshToken ∈ (world.answerForm (.refreshToken refreshToken) (.error error) usedUp).seen ∧
      refreshToken ∉
        (world.answerForm (.refreshToken refreshToken) (.error error) usedUp).accepted := by
  refine ⟨by simp [World.answerForm, TokenForm.refreshToken?], fun hmem => haccepted ?_⟩
  rcases List.mem_append.mp hmem with hmem | hmem
  · cases hmem
  · split at hmem
    · exact List.mem_of_mem_filter hmem
    · exact hmem

/-- A call other than that to SSO leaves its tokens. -/
theorem tokens_of_respond {op : Op} {choice : Choice} {world later : World}
    {answer : Except AuthError op.Answer} (hop : ∀ form, op ≠ .requestToken form)
    (hrespond : respond op choice world = some (answer, later)) :
    later.accepted = world.accepted ∧ later.seen = world.seen := by
  cases op <;> cases choice <;>
    simp only [respond, Option.some.injEq, Prod.mk.injEq, reduceCtorEq] at hrespond
  case requestToken form _ _ => exact absurd rfl (hop form)
  all_goals
    obtain ⟨_, rfl⟩ := hrespond
    first
      | exact ⟨rfl, rfl⟩
      | (rw [World.carryOut]; split <;> exact ⟨rfl, rfl⟩)

theorem refusedForever_step {before after : AuthConfig} {event : AuthEvent}
    (hbefore : RefusedForever before.moment) (hmeets : singleUse.Meets before event)
    (hstep : auth.Steps before event after) : RefusedForever after.moment := by
  cases hstep with
  | start henter =>
      obtain rfl := Option.some_inj.mp henter
      exact hbefore
  | @call thread choice op next answer world hthread hrespond =>
      intro other refreshToken hrefused
      have hold := refused_answer hrefused
      by_cases hop : ∀ form, op ≠ .requestToken form
      · -- a call that is no request for tokens refuses none
        obtain ⟨haccepted, hseen⟩ := tokens_of_respond hop hrespond
        rw [Moment.answer_world, haccepted, hseen]
        rcases hold with hold | ⟨_, _, heq⟩
        · exact hbefore other refreshToken hold
        · exact absurd (congrArg Call.op heq) (hop _)
      · simp only [not_forall, not_not] at hop
        obtain ⟨form, rfl⟩ := hop
        cases choice with
        | token given usedUp =>
            obtain ⟨rfl, rfl⟩ := Prod.mk.inj (Option.some_inj.mp hrespond)
            obtain ⟨hgranted, hrefusal⟩ := hmeets _ next hthread
            -- the token was refused before, or this is the refusal
            rcases hold with hold | ⟨error, herror, heq⟩
            · exact dead_answerForm (fun token htoken => (hgranted token htoken).2)
                (hbefore other refreshToken hold)
            · cases heq
              have hrefuses := hrefusal (herror.imp (congrArg _) (congrArg _))
              exact dead_of_refused (hrefuses refreshToken rfl)
        | _ => cases hrespond
  | crash hthread => exact hbefore
  | @tick tick world htick =>
      cases tick with
      -- revoking makes no token valid
      | revoke revoked =>
          obtain rfl := Option.some_inj.mp htick
          intro thread refreshToken hrefused
          obtain ⟨hseen, haccepted⟩ := hbefore thread refreshToken hrefused
          exact ⟨hseen, fun hmem => haccepted (List.mem_of_mem_filter hmem)⟩

/-- The request has read a token of the character that SSO does not accept any more, and
the one that is stored is not accepted either or has replaced it. -/
def ReadDead (config : AuthConfig) (thread : ℕ) (characterId : ℤ)
    (token : CharacterDocument → Option String) : Prop :=
  ∃ document refreshToken, Read (config.moment.logOf thread) characterId document ∧
    token document = some refreshToken ∧ refreshToken ∉ config.moment.world.accepted ∧
    ∀ stored, config.moment.world.characters characterId = some stored →
      (∀ other, token stored = some other → other ∉ config.moment.world.accepted) ∨
        token stored ≠ token document

theorem readDead_of_refused {config : AuthConfig} {thread : ℕ} {characterId : ℤ}
    {token : CharacterDocument → Option String} {document : CharacterDocument}
    {refreshToken : String} (hforever : RefusedForever config.moment)
    (hread : Read (config.moment.logOf thread) characterId document)
    (htoken : token document = some refreshToken)
    (hrefused : Refused (config.moment.logOf thread) refreshToken) :
    ReadDead config thread characterId token := by
  obtain ⟨_, hdead⟩ := hforever thread refreshToken hrefused
  refine ⟨document, refreshToken, hread, htoken, hdead, fun stored _ => ?_⟩
  by_cases hsame : token stored = token document
  · refine Or.inl fun other hother => ?_
    obtain rfl := Option.some_inj.mp (hother.symm.trans (hsame.trans htoken))
    exact hdead
  · exact Or.inr hsame

theorem logged_of_reaches {policy : Policy signature AuthError World Start Choice Tick}
    {world : World} {config : AuthConfig}
    (hreaches : auth.Reaches policy (Config.initial _ _ _ _ world) config) :
    System.Logged (fun _ => Explained) requestPost config :=
  hreaches.logged records_body .initial

theorem refusedForever_of_reaches {world : World} {config : AuthConfig}
    (hreaches : auth.Reaches singleUse (Config.initial _ _ _ _ world) config) :
    RefusedForever config.moment := by
  refine hreaches.invariant (motive := fun config => RefusedForever config.moment) ?_ ?_
  · rintro thread refreshToken (hmem | hmem) <;> cases hmem
  · exact fun before event after hbefore hmeets hstep => refusedForever_step hbefore hmeets hstep

/-- **Giving up.**  However requests interleave, one that has dropped the login of its
character has itself read a base token that is not accepted any more, and one that is
about to write down the refusal of a corporation token has itself read a corporation token
that is not accepted any more. -/
theorem gives_up_only_refused {world : World} {config : AuthConfig}
    (hreaches : auth.Reaches singleUse (Config.initial _ _ _ _ world) config) :
    (∀ (thread : ℕ) start session reply, config.moment.starts[thread]? = some start →
      start.session? = some session → config.threads thread = some (.ret reply) →
      DropsLogin session reply → ∃ characterId, session.characterId = some characterId ∧
        ReadDead config thread characterId (fun document => some document.refreshToken)) ∧
    ∀ characterId event, RefusedWrite characterId config event → ∃ thread choice,
      event = .call thread choice ∧
        ReadDead config thread characterId CharacterDocument.corpRefreshToken := by
  have hforever := refusedForever_of_reaches hreaches
  have hlogged := logged_of_reaches hreaches
  refine ⟨fun thread start session reply hstart hsession hthread hdrops => ?_, ?_⟩
  · obtain ⟨characterId, document, hcharacter, hread, hrefused⟩ :=
      hlogged.outcome hstart hthread rfl session reply hsession rfl hdrops
    exact ⟨characterId, hcharacter, readDead_of_refused hforever hread rfl hrefused⟩
  · rintro characterId event ⟨base, now, hbase, thread, next, delivery, rfl, _, hthread⟩
    obtain ⟨start, hstart, hrecords⟩ := hlogged.threads thread _ hthread
    -- the write explains itself, whatever it is answered
    obtain ⟨hexplained, _⟩ := hrecords (.error .database)
    have hnotes : NotesRefusal (base ++ refusedUpdates ++ [.updatedAt now]) := by
      cases hbase <;> simp [NotesRefusal, baseUpdates, refusedUpdates]
    obtain ⟨document, corpRefreshToken, hread, hcorp, hrefused⟩ :=
      hexplained characterId _ none _ (List.mem_cons_self ..) hnotes
    have hreadBefore : Read (config.moment.logOf thread) characterId document := by
      simpa [Read] using hread
    have hrefusedBefore : Refused (config.moment.logOf thread) corpRefreshToken := by
      simpa [Refused] using hrefused
    exact ⟨thread, _, rfl, readDead_of_refused hforever hreadBefore hcorp hrefusedBefore⟩

/-! ## Two page views at once -/

/-- Two page views have read the character after its access token has expired. -/
def bothReadEvents : List AuthEvent :=
  [.call 0 (.claims (.ok sampleClaims)), .call 0 (.utcnow 0), .call 0 (.database .done),
    .start (.page sampleSession), .call 1 (.database .done), .call 1 (.utcnow 36000000000),
    .start (.page sampleSession), .call 2 (.database .done), .call 2 (.utcnow 36000000000)]

/-- The first one has stored a new token. -/
def firstStoredEvents : List AuthEvent :=
  [.call 1 (.utcnow 36000000000), .call 1 (.utcnow 36000000000), .call 1 (.database .done)]

def loginStart : AuthEvent :=
  .start (.callback { pkceVerifier := some "verifier", pkceState := some "state" } "code" "state")

def granted (thread : ℕ) (accessToken refreshToken : String) : AuthEvent :=
  .call thread (.token (.ok ⟨accessToken, refreshToken, 36000⟩) true)

def droppedEvents : List AuthEvent :=
  loginStart :: granted 0 "access" "refresh" :: bothReadEvents ++
    granted 1 "access 2" "refresh 2" :: firstStoredEvents ++
    [.call 2 (.token (.error (.httpStatus 400)) false)]

/-- The event is no answer of SSO. -/
def NotToken : AuthEvent → Bool
  | .call _ (.token ..) => false
  | _ => true

theorem meets_of_notToken {event : AuthEvent} (hevent : NotToken event) (config : AuthConfig) :
    singleUse.Meets config event := by
  cases event with
  | call thread choice =>
      intro op next _
      cases choice with
      | token answer usedUp => cases hevent
      | _ => cases op <;> trivial
  | _ => trivial

theorem reaches_of_notToken {config later : AuthConfig} (events : List AuthEvent)
    (hrun : auth.run config events = some later) (hevents : events.all NotToken) :
    auth.Reaches singleUse config later :=
  System.reaches_of_run hrun fun event hevent config =>
    meets_of_notToken (List.all_eq_true.mp hevents event hevent) config

/-- A new token is granted for a code, or for a token that is accepted. -/
theorem meets_granted {config : AuthConfig} {thread : ℕ} {form : TokenForm}
    {next : Except AuthError TokenResponse → Code Reply} {accessToken refreshToken : String}
    (hthread : config.threads thread = some (.call (.requestToken form) next))
    (haccepted : ∀ presented ∈ form.refreshToken?, presented ∈ config.moment.world.accepted)
    (hnew : refreshToken ∉ form.refreshToken?.toList ++ config.moment.world.seen) :
    singleUse.Meets config (granted thread accessToken refreshToken) := by
  intro op next' hthread'
  cases hthread.symm.trans hthread'
  refine ⟨fun token htoken => ?_, by simp⟩
  obtain rfl := Except.ok.inj htoken
  exact ⟨fun presented hpresented => ⟨haccepted presented hpresented, rfl⟩, hnew⟩

/-- A token that is not accepted is refused. -/
theorem meets_refused {config : AuthConfig} {thread : ℕ} {refreshToken : String}
    {next : Except AuthError TokenResponse → Code Reply} {error : AuthError}
    (hthread : config.threads thread =
      some (.call (.requestToken (.refreshToken refreshToken)) next))
    (hdead : refreshToken ∉ config.moment.world.accepted) :
    singleUse.Meets config (.call thread (.token (.error error) false)) := by
  intro op next' hthread'
  cases hthread.symm.trans hthread'
  refine ⟨by simp, fun _ presented hpresented => ?_⟩
  obtain rfl := Option.some_inj.mp hpresented
  exact hdead

theorem reaches_dropped : auth.Reaches singleUse sampleStart (sampleAfter droppedEvents) := by
  have hlogin : singleUse.Meets (sampleAfter [loginStart]) (granted 0 "access" "refresh") :=
    meets_granted rfl (by decide) (by decide)
  have hfirst : singleUse.Meets
      (sampleAfter (loginStart :: granted 0 "access" "refresh" :: bothReadEvents))
      (granted 1 "access 2" "refresh 2") :=
    meets_granted rfl (by decide) (by decide)
  have hsecond : singleUse.Meets
      (sampleAfter (loginStart :: granted 0 "access" "refresh" :: bothReadEvents ++
        granted 1 "access 2" "refresh 2" :: firstStoredEvents))
      (.call 2 (.token (.error (.httpStatus 400)) false)) :=
    meets_refused rfl (by decide)
  refine (reaches_of_notToken [loginStart] rfl rfl).trans ?_
  refine .head ⟨_, hlogin, rfl⟩ ?_
  refine (reaches_of_notToken bothReadEvents rfl rfl).trans ?_
  refine .head ⟨_, hfirst, rfl⟩ ?_
  refine (reaches_of_notToken firstStoredEvents rfl rfl).trans ?_
  exact .single ⟨_, hsecond, rfl⟩

/-- **A live login is dropped.**  SSO grants each token once and refuses what has been used
up; the second page view drops the login although the token that is stored is accepted. -/
theorem live_login_dropped :
    auth.Reaches singleUse sampleStart (sampleAfter droppedEvents) ∧
    (sampleAfter droppedEvents).threads 2 = some (.ret ⟨{}, .page none⟩) ∧
    DropsLogin sampleSession ⟨{}, .page none⟩ ∧
    ∃ stored, (sampleAfter droppedEvents).moment.world.characters 1 = some stored ∧
      stored.refreshToken ∈ (sampleAfter droppedEvents).moment.world.accepted := by
  exact ⟨reaches_dropped, rfl, ⟨by decide, rfl, Or.inl rfl⟩, _, rfl, by decide⟩

/-! ## A connection that has been revoked -/

def connectStart : AuthEvent :=
  .start (.callback
    { characterId := some 1, corpPkceVerifier := some "verifier", corpPkceState := some "state" }
    "code" "state")

/-- The character has logged in and asks for a connection. -/
def loggedInEvents : List AuthEvent :=
  [.call 0 (.claims (.ok sampleClaims)), .call 0 (.utcnow 0), .call 0 (.database .done),
    connectStart]

/-- The corporation token is revoked, and has expired when a page view reads the clock for the
second time. -/
def revokedEvents : List AuthEvent :=
  [.call 1 (.claims (.ok sampleClaims)), .call 1 (.publicInfo (.ok 98)), .call 1 (.utcnow 0),
    .call 1 (.database .done), .tick (.revoke "corp refresh"), .start (.page sampleSession),
    .call 2 (.database .done), .call 2 (.utcnow 35999999999), .call 2 (.utcnow 36000000000)]

/-- SSO has refused the corporation token, and the page view is about to write that down. -/
def refusedCorpEvents : List AuthEvent :=
  loginStart :: granted 0 "access" "refresh" :: loggedInEvents ++
    granted 1 "corp access" "corp refresh" :: revokedEvents ++
    [.call 2 (.token (.error (.httpStatus 400)) false), .call 2 (.utcnow 36000000000)]

theorem reaches_refusedCorp :
    auth.Reaches singleUse sampleStart (sampleAfter refusedCorpEvents) := by
  have hlogin : singleUse.Meets (sampleAfter [loginStart]) (granted 0 "access" "refresh") :=
    meets_granted rfl (by decide) (by decide)
  have hconnect : singleUse.Meets
      (sampleAfter (loginStart :: granted 0 "access" "refresh" :: loggedInEvents))
      (granted 1 "corp access" "corp refresh") :=
    meets_granted rfl (by decide) (by decide)
  have hrefused : singleUse.Meets
      (sampleAfter (loginStart :: granted 0 "access" "refresh" :: loggedInEvents ++
        granted 1 "corp access" "corp refresh" :: revokedEvents))
      (.call 2 (.token (.error (.httpStatus 400)) false)) :=
    meets_refused rfl (by decide)
  refine (reaches_of_notToken [loginStart] rfl rfl).trans ?_
  refine .head ⟨_, hlogin, rfl⟩ ?_
  refine (reaches_of_notToken loggedInEvents rfl rfl).trans ?_
  refine .head ⟨_, hconnect, rfl⟩ ?_
  refine (reaches_of_notToken revokedEvents rfl rfl).trans ?_
  refine .head ⟨_, hrefused, rfl⟩ ?_
  exact reaches_of_notToken [.call 2 (.utcnow 36000000000)] rfl rfl

/-- The page view that drops the login has read a base token that is not accepted, and the one
that writes down a refusal a corporation token. -/
theorem gives_up_only_refused_both :
    (∃ characterId, sampleSession.characterId = some characterId ∧
      ReadDead (sampleAfter droppedEvents) 2 characterId
        (fun document => some document.refreshToken)) ∧
    ∃ thread choice, (.call 2 (.database .done) : AuthEvent) = .call thread choice ∧
      ReadDead (sampleAfter refusedCorpEvents) thread 1 CharacterDocument.corpRefreshToken := by
  have hwrite : RefusedWrite 1 (sampleAfter refusedCorpEvents) (.call 2 (.database .done)) :=
    ⟨[], 36000000000, .none, 2, _, .done, rfl, by decide, rfl⟩
  exact ⟨(gives_up_only_refused reaches_dropped).1 2 (.page sampleSession) sampleSession
      ⟨{}, .page none⟩ rfl rfl rfl ⟨by decide, rfl, Or.inl rfl⟩,
    (gives_up_only_refused reaches_refusedCorp).2 1 _ hwrite⟩

end EveBuild.Auth
