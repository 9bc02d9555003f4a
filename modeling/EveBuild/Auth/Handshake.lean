import EveBuild.Auth.Callback
import EveBuild.Data.Base64
import EveBuild.Data.Urlencoded

/-!
# The handshake with SSO

A login sends the browser to SSO with a challenge, the digest of a verifier that stays in the
session, and the callback sends the verifier with the code.  `generate_pkce_pair` and
`build_authorize_url` of `app/services/eve_sso.py` write the URL, and SSO reads its query.

In every run of a browser, a code is only sent by the callback that has brought it, and the
verifier that is sent with it belongs to the challenge of an earlier URL that has the same state
(`verifier_matches`).  So SSO, which keeps the challenge with the code, accepts the verifier.

`sha256` is `hashlib.sha256(…).digest()`.  Verifiers are ASCII, so that their bytes are those of
UTF-8.
-/

namespace EveBuild.Auth

open Base64 Effect Urlencoded

/-! ## The challenge -/

structure PkcePair where
  codeVerifier : String
  codeChallenge : String

/-- `generate_pkce_pair`, for the verifier that it has drawn. -/
def generatePkcePair (sha256 : List UInt8 → List UInt8) (codeVerifier : String) : PkcePair where
  codeVerifier := codeVerifier
  codeChallenge :=
    String.ofList ((urlsafeB64encode (sha256 (utf8 codeVerifier))).rdropWhile (· = '='))

/-- **The challenge** is the digest of the verifier in digits. -/
theorem codeChallenge_eq (sha256 : List UInt8 → List UInt8) (codeVerifier : String) :
    (generatePkcePair sha256 codeVerifier).codeChallenge =
      String.ofList (digits (sha256 (utf8 codeVerifier))) := by
  obtain ⟨padding, hpadding⟩ := urlsafeB64encode_eq (sha256 (utf8 codeVerifier))
  rw [generatePkcePair, hpadding, rdropWhile_padding (notMem_digits _)]

/-! ## The URL -/

/-- The settings of the URL. -/
structure SsoSettings where
  eveSsoAuthorizeUrl : String
  eveSsoCallbackUrl : String
  eveSsoClientId : String
  eveSsoScopes : String
  eveSsoCorpScopes : String

/-- `build_authorize_url`. -/
def buildAuthorizeUrl (settings : SsoSettings) (codeChallenge state : String)
    (scope : Option String) : String :=
  let params := [("response_type", "code"), ("redirect_uri", settings.eveSsoCallbackUrl),
    ("client_id", settings.eveSsoClientId), ("scope", scope.getD settings.eveSsoScopes),
    ("code_challenge", codeChallenge), ("code_challenge_method", "S256"), ("state", state)]
  settings.eveSsoAuthorizeUrl ++ "?" ++ String.ofList (urlencode params)

/-- The URL of the redirect of `login` and `connect_corp`: the challenge is that of the verifier
in the session, to which both have just written the pair's. -/
def Reply.authorizeUrl? (settings : SsoSettings) (sha256 : List UInt8 → List UInt8) :
    Reply → Option String
  | ⟨session, .authorize state false⟩ => session.pkceVerifier.map fun codeVerifier =>
      buildAuthorizeUrl settings (generatePkcePair sha256 codeVerifier).codeChallenge state none
  | ⟨session, .authorize state true⟩ => session.corpPkceVerifier.map fun codeVerifier =>
      buildAuthorizeUrl settings (generatePkcePair sha256 codeVerifier).codeChallenge state
        (some settings.eveSsoCorpScopes)
  | _ => none

/-- What SSO reads in the query of a URL, where `replace` stands for bytes that are no UTF-8. -/
def IsAuthorizeUrl (settings : SsoSettings) (codeChallenge : List Char) (state scope url : String) :
    Prop :=
  ∃ query, url = settings.eveSsoAuthorizeUrl ++ "?" ++ String.ofList query ∧
    ∀ replace, parseQsl replace query =
      [("response_type".toList, "code".toList),
        ("redirect_uri".toList, settings.eveSsoCallbackUrl.toList),
        ("client_id".toList, settings.eveSsoClientId.toList), ("scope".toList, scope.toList),
        ("code_challenge".toList, codeChallenge), ("code_challenge_method".toList, "S256".toList),
        ("state".toList, state.toList)]

theorem isAuthorizeUrl_build (settings : SsoSettings) (codeChallenge : List Char) (state : String)
    (scope : Option String) :
    IsAuthorizeUrl settings codeChallenge state (scope.getD settings.eveSsoScopes)
      (buildAuthorizeUrl settings (String.ofList codeChallenge) state scope) := by
  refine ⟨_, rfl, fun replace => ?_⟩
  rw [parseQsl_urlencode]
  simp

/-! ## What a request sends -/

/-- The call sends no code. -/
def NoCode : Op → Prop
  | .requestToken (.authorizationCode ..) => False
  | _ => True

/-- The state is pending, with the verifier.  The one of a connection comes first. -/
def IsPending (session : Session) (state codeVerifier : String) : Prop :=
  if session.corpPkceState = some state then session.corpPkceVerifier = some codeVerifier
  else session.pkceState = some state ∧ session.pkceVerifier = some codeVerifier

/-- A call that sends a code sends the one that the callback has brought, with the verifier that
the session keeps next to the state of the callback. -/
def SendsPending (session : Session) (visit : Visit) : Op → Prop
  | .requestToken (.authorizationCode code codeVerifier) =>
      ∃ state, visit = .callback code state ∧ IsPending session state codeVerifier
  | _ => True

section Requests

variable {session : Session} {visit : Visit}

theorem NoCode.sendsPending {op : Op} (hop : NoCode op) : SendsPending session visit op := by
  cases op with
  | requestToken form =>
      cases form with
      | authorizationCode code codeVerifier => exact hop.elim
      | refreshToken refreshToken => trivial
  | _ => trivial

theorem noCode_of_refreshes {op : Op} (hop : Refreshes op) : NoCode op := by
  cases hop <;> trivial

theorem noCode_withCharacter (session : Session)
    {handler : CharacterDocument → Session → Code Reply}
    (hhandler : ∀ character session, (handler character session).Issues NoCode) :
    (withCharacter session handler).Issues NoCode := by
  refine Program.Issues.bind
    ((refreshes_currentCharacterOptional session).mono fun _ => noCode_of_refreshes) ?_
  rintro ⟨_ | character, session⟩
  · trivial
  · exact hhandler character session

/-- Two calls that draw a verifier and a state. -/
theorem noCode_draws {reply : String → String → Reply} :
    (do
      let codeVerifier ← await .tokenUrlsafe
      let state ← await .tokenUrlsafe
      return reply codeVerifier state : Code Reply).Issues NoCode := by
  refine Program.Issues.bind (Program.Issues.perform trivial) fun codeVerifier => ?_
  exact Program.Issues.bind (Program.Issues.perform trivial) fun state => trivial

/-- A value that is not empty is there. -/
theorem eq_some_of_getD_ne {value : Option String} (hne : value.getD "" ≠ "") :
    value = some (value.getD "") := by
  cases value with
  | none => exact absurd rfl hne
  | some value => rfl

theorem sendsPending_completeLogin {state : String} (hcorp : session.corpPkceState ≠ some state)
    (code : String) :
    (completeLogin session code state).Issues (SendsPending session (.callback code state)) := by
  unfold completeLogin
  extract_lets expectedState codeVerifier
  split
  · trivial
  rename_i hvalid
  obtain ⟨hstate, hverifier, heq⟩ := by simpa only [not_or, not_not] using hvalid
  have hpending : IsPending session state codeVerifier := by
    rw [IsPending, if_neg hcorp]
    exact ⟨heq ▸ eq_some_of_getD_ne hstate, eq_some_of_getD_ne hverifier⟩
  refine Program.Issues.bind (Program.Issues.perform ⟨state, rfl, hpending⟩) fun token => ?_
  refine Program.Issues.bind (Program.Issues.perform trivial) fun claims => ?_
  refine Program.Issues.bind (Program.Issues.perform trivial) fun now => ?_
  refine Program.Issues.bind (issues_addSeconds ..) fun _ => ?_
  exact Program.Issues.bind (Program.Issues.perform trivial) fun _ => trivial

theorem sendsPending_completeCorpConnection {state : String}
    (hstate : session.corpPkceState = some state) (code : String) :
    (completeCorpConnection session code).Issues
      (SendsPending session (.callback code state)) := by
  unfold completeCorpConnection
  extract_lets codeVerifier
  split
  · trivial
  split
  · trivial
  rename_i hverifier
  have hpending : IsPending session state codeVerifier := by
    rw [IsPending, if_pos hstate]
    exact eq_some_of_getD_ne hverifier
  refine Program.Issues.bind (Program.Issues.perform ⟨state, rfl, hpending⟩) fun token => ?_
  refine Program.Issues.bind (Program.Issues.perform trivial) fun claims => ?_
  split
  · trivial
  refine Program.Issues.bind (Program.Issues.perform trivial) fun corporationId => ?_
  refine Program.Issues.bind (Program.Issues.perform trivial) fun now => ?_
  refine Program.Issues.bind (issues_addSeconds ..) fun _ => ?_
  exact Program.Issues.bind (Program.Issues.perform trivial) fun _ => trivial

/-- **Every request.** -/
theorem sendsPending_body (session : Session) (visit : Visit) :
    (auth.body (visit.start session)).Issues (SendsPending session visit) := by
  cases visit with
  | callback code state =>
      show (callback session code state).Issues _
      unfold callback
      split
      · exact sendsPending_completeCorpConnection ‹_› code
      · exact sendsPending_completeLogin ‹_› code
  | page =>
      refine Program.Issues.mono (fun _ => NoCode.sendsPending) ?_
      have hissues := (refreshes_currentCharacterOptional session).mono fun _ => noCode_of_refreshes
      exact Program.Issues.bind hissues fun _ => trivial
  | memberPage =>
      refine Program.Issues.mono (fun _ => NoCode.sendsPending) ?_
      exact noCode_withCharacter session fun _ _ => trivial
  | login => exact Program.Issues.mono (fun _ => NoCode.sendsPending) noCode_draws
  | logout => trivial
  | connectCorp =>
      refine Program.Issues.mono (fun _ => NoCode.sendsPending) ?_
      exact noCode_withCharacter session fun _ _ => noCode_draws
  | disconnectCorp =>
      refine Program.Issues.mono (fun _ => NoCode.sendsPending) ?_
      refine noCode_withCharacter session fun _ _ => ?_
      exact Program.Issues.bind (Program.Issues.perform trivial) fun _ => trivial
  | clearData =>
      refine Program.Issues.mono (fun _ => NoCode.sendsPending) ?_
      refine noCode_withCharacter session fun _ _ => ?_
      exact Program.Issues.bind (Program.Issues.perform trivial) fun _ => trivial

end Requests

/-! ## Every run -/

/-- The request has led to SSO, with the state and the challenge of the verifier. -/
structure LeadsToSso (corp : Bool) (state codeVerifier : String) (visited : Visited) : Prop where
  authorizeUrl : ∀ settings sha256, ∃ reply, visited.outcome = .ok reply ∧
    reply.authorizeUrl? settings sha256 = some (buildAuthorizeUrl settings
      (generatePkcePair sha256 codeVerifier).codeChallenge state
      (if corp then some settings.eveSsoCorpScopes else none))

/-- What is pending in a session has been asked for: the verifiers belong to the states. -/
structure Pending (history : List Visited) (session : Session) : Prop where
  pkce : ∀ state, session.pkceState = some state → ∃ codeVerifier,
    session.pkceVerifier = some codeVerifier ∧
      ∃ visited ∈ history, LeadsToSso false state codeVerifier visited
  corp : ∀ state, session.corpPkceState = some state → ∃ codeVerifier,
    session.corpPkceVerifier = some codeVerifier ∧
      ∃ visited ∈ history, LeadsToSso true state codeVerifier visited

theorem pending_nil : Pending [] {} where
  pkce := by simp
  corp := by simp

section Steps

variable {history : List Visited} {visited : Visited} {session : Session}

theorem Pending.mono (visited : Visited) (hpending : Pending history session) :
    Pending (visited :: history) session where
  pkce state hstate := by
    obtain ⟨codeVerifier, hverifier, asked, hasked, hleads⟩ := hpending.pkce state hstate
    exact ⟨codeVerifier, hverifier, asked, List.mem_cons_of_mem _ hasked, hleads⟩
  corp state hstate := by
    obtain ⟨codeVerifier, hverifier, asked, hasked, hleads⟩ := hpending.corp state hstate
    exact ⟨codeVerifier, hverifier, asked, List.mem_cons_of_mem _ hasked, hleads⟩

/-- **A request** keeps the verifiers and the states together. -/
theorem Pending.visit (hpending : Pending history visited.before.session)
    (hvalid : visited.Valid) : Pending (visited :: history) visited.session := by
  obtain ⟨before, visit, log, outcome, after⟩ := visited
  have hleaves : Leaves before.session visit log outcome := leaves_of_valid hvalid
  cases hleaves with
  | raised hcallback => exact hpending.mono _
  | refused hunwritten => exact hpending.mono _
  | shown hvisit hleft hbody =>
      rcases hleft with rfl | rfl
      · exact hpending.mono _
      · exact ⟨(hpending.mono _).pkce, (hpending.mono _).corp⟩
  | cleared hvisit => exact ⟨nofun, nofun⟩
  | @asked verifier state hvisit =>
      refine ⟨fun pending hstate => ?_, (hpending.mono _).corp⟩
      cases hstate
      exact ⟨verifier, rfl, _, List.mem_cons_self, ⟨fun _ _ => ⟨_, rfl, rfl⟩⟩⟩
  | @askedCorp verifier state hvisit =>
      refine ⟨(hpending.mono _).pkce, fun pending hstate => ?_⟩
      cases hstate
      exact ⟨verifier, rfl, _, List.mem_cons_self, ⟨fun _ _ => ⟨_, rfl, rfl⟩⟩⟩
  | loggedIn verifier token claims hvisit hstate hcorp hverifier hexchanged =>
      exact ⟨nofun, (hpending.mono _).corp⟩
  | connected hvisit hstate => exact ⟨(hpending.mono _).pkce, nofun⟩

end Steps

/-- What is pending in the session of a browser, in every run. -/
theorem pending_of_browses {world : World} {history : List Visited} {browser : Browser}
    (hbrowses : Browses ⟨{}, world⟩ history browser) : Pending history browser.session := by
  induction hbrowses with
  | nil => exact pending_nil
  | visit hbrowses hvalid ih => exact ih.visit hvalid

/-- A request of a run comes after a run of the requests before it. -/
theorem browses_before {start browser : Browser} {later earlier : List Visited} {visited : Visited}
    (hbrowses : Browses start (later ++ visited :: earlier) browser) :
    Browses start earlier visited.before ∧ visited.Valid := by
  induction later generalizing browser with
  | nil =>
      cases hbrowses with
      | visit hbrowses hvalid => exact ⟨hbrowses, hvalid⟩
  | cons last later ih =>
      cases hbrowses with
      | visit hbrowses hvalid => exact ih hbrowses

/-- **The handshake.**  A code is sent by the callback that has brought it, with a verifier for
which an earlier request has led to SSO, with the state of the callback, the scopes of what it
completes and the challenge that SSO computes for the verifier. -/
theorem verifier_matches {world : World} {later earlier : List Visited} {visited : Visited}
    {browser : Browser} (hbrowses : Browses ⟨{}, world⟩ (later ++ visited :: earlier) browser)
    {code codeVerifier : String} {answer : Except AuthError TokenResponse}
    (hsent : ⟨.requestToken (.authorizationCode code codeVerifier), answer⟩ ∈ visited.log)
    (settings : SsoSettings) (sha256 : List UInt8 → List UInt8) :
    ∃ state, visited.visit = .callback code state ∧ ∃ asked ∈ earlier, ∃ reply url,
      asked.outcome = .ok reply ∧ reply.authorizeUrl? settings sha256 = some url ∧
      IsAuthorizeUrl settings (digits (sha256 (utf8 codeVerifier))) state
        (if visited.before.session.corpPkceState = some state then settings.eveSsoCorpScopes
          else settings.eveSsoScopes) url := by
  obtain ⟨hearlier, hvalid⟩ := browses_before hbrowses
  have hpending := pending_of_browses hearlier
  obtain ⟨state, hvisit, hkept⟩ := (sendsPending_body _ _).of_ran hvalid.ran _ hsent
  refine ⟨state, hvisit, ?_⟩
  rw [IsPending] at hkept
  split at hkept
  · rename_i hstate
    obtain ⟨other, hother, asked, hasked, hleads⟩ := hpending.corp state hstate
    obtain rfl := Option.some_inj.mp (hother.symm.trans hkept)
    obtain ⟨reply, houtcome, hurl⟩ := hleads.authorizeUrl settings sha256
    refine ⟨asked, hasked, reply, _, houtcome, hurl, ?_⟩
    rw [if_pos hstate, codeChallenge_eq]
    exact isAuthorizeUrl_build settings _ state (some settings.eveSsoCorpScopes)
  · rename_i hstate
    obtain ⟨other, hother, asked, hasked, hleads⟩ := hpending.pkce state hkept.1
    obtain rfl := Option.some_inj.mp (hother.symm.trans hkept.2)
    obtain ⟨reply, houtcome, hurl⟩ := hleads.authorizeUrl settings sha256
    refine ⟨asked, hasked, reply, _, houtcome, hurl, ?_⟩
    rw [if_neg hstate, codeChallenge_eq]
    exact isAuthorizeUrl_build settings _ state none

/-- The digest of `verifier`. -/
def verifierDigest : List UInt8 :=
  [136, 201, 234, 230, 142, 179, 0, 178, 151, 26, 43, 236, 158, 90, 38, 255, 65, 121, 253, 102,
    29, 107, 125, 134, 30, 76, 101, 87, 185, 170, 238, 20]

def sampleSso : SsoSettings where
  eveSsoAuthorizeUrl := "https://login.eveonline.com/v2/oauth/authorize"
  eveSsoCallbackUrl := "http://testserver/auth/callback"
  eveSsoClientId := "my-client-id"
  eveSsoScopes := "publicData"
  eveSsoCorpScopes := "esi-assets.read_corporation_assets.v1"

example : String.ofList (digits verifierDigest) =
    "iMnq5o6zALKXGivsnlom_0F5_WYda32GHkxlV7mq7hQ" := by decide

theorem verifier_matches_login :
    ∃ state, (calledBack .done).visit = .callback "code" state ∧
      ∃ first ∈ [asked], ∃ reply url, first.outcome = .ok reply ∧
      reply.authorizeUrl? sampleSso (fun _ => verifierDigest) = some url ∧
      IsAuthorizeUrl sampleSso (digits verifierDigest) state
        (if (calledBack .done).before.session.corpPkceState = some state then
          sampleSso.eveSsoCorpScopes else sampleSso.eveSsoScopes) url := by
  have hbrowses : Browses ⟨{}, nobody.world⟩ ([] ++ calledBack .done :: [asked])
      (calledBack .done).browser := browses_calledBack .done
  have hsent : ⟨.requestToken (.authorizationCode "code" "verifier"),
      .ok ⟨"access", "refresh", 1200⟩⟩ ∈ (calledBack .done).log :=
    .tail _ (.tail _ (.tail _ (.head _)))
  exact verifier_matches hbrowses hsent sampleSso fun _ => verifierDigest

end EveBuild.Auth
