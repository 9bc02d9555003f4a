import EveBuild.Auth.Connection
import EveBuild.Auth.Visits

/-!
# The shared callback

One browser makes requests one after another, with any parameters; MongoDB, the clock, SSO
and ESI answer them in any way (`Browses`).  In every such run in which the generated
states are different (`callback_safe`)

* a character is logged in only by a callback with the pending state of the login, and
  only with a token of this character,
* the corporation tokens of a document come from a callback of its own character, or from
  refreshing such tokens (`CorpGranted`),
* no state is accepted twice, and
* a callback that fails leaves the session, and it leaves the characters unless the update
  itself has raised an error.

MongoDB may carry an update out and then fail to answer, so that a callback can fail and
yet change a character (`failed_callback_changes`).
-/

namespace EveBuild.Auth

open Effect

/-! ## Runs -/

/-- The session that a browser has, and the world. -/
structure Browser where
  session : Session
  world : World

/-- A request that has ended. -/
structure Visited where
  before : Browser
  visit : Visit
  log : AuthLog
  outcome : Except AuthError Reply
  after : World

namespace Visited

variable (visited : Visited)

/-- A request that raises leaves no cookie. -/
def session : Session :=
  match visited.outcome with
  | .ok reply => reply.session
  | .error _ => visited.before.session

def browser : Browser := ⟨visited.session, visited.after⟩

/-- The call is answered by any choice. -/
def Answers (op : Op) (world : World) (answer : Except AuthError op.Answer) (later : World) :
    Prop :=
  ∃ choice, respond op choice world = some (answer, later)

/-- The request has run from the session and the world before it to those after it. -/
structure Valid : Prop where
  ran : Program.Ran (auth.body (visited.visit.start visited.before.session)) visited.log
    visited.outcome
  answered : Program.Answered Answers visited.before.world visited.log visited.after

/-- The state that the request has generated, if it leads to SSO. -/
def generated : Option String :=
  match visited.outcome with
  | .ok ⟨_, .authorize state _⟩ => some state
  | _ => none

/-- The state that the request has accepted, if it is a callback that succeeds. -/
def accepted : Option String :=
  match visited.visit, visited.outcome with
  | .callback _ state, .ok ⟨_, .redirect _⟩ => some state
  | _, _ => none

end Visited

/-- The requests of a browser, the newest first. -/
inductive Browses (start : Browser) : List Visited → Browser → Prop
  | nil : Browses start [] start
  | visit {history visited} (hbrowses : Browses start history visited.before)
      (hvalid : visited.Valid) : Browses start (visited :: history) visited.browser

/-! ## Corporation tokens -/

/-- **Where corporation tokens come from.**  They are from before the run, or the session
was logged in as the character and the code was exchanged for a token of this character,
or they have been granted for a refresh token that comes from there. -/
inductive CorpGranted (start : Characters) (history : List Visited) (characterId : ℤ) :
    Option String → Option String → Prop
  | start {document} (hdocument : start characterId = some document) :
      CorpGranted start history characterId document.corpAccessToken document.corpRefreshToken
  | none : CorpGranted start history characterId none none
  | exchanged {visited code state verifier token claims} (hvisited : visited ∈ history)
      (hvisit : visited.visit = .callback code state)
      (hloggedIn : visited.before.session.characterId = some characterId)
      (hexchanged : Exchanged visited.log code verifier token claims)
      (hclaims : claims.characterId = characterId) :
      CorpGranted start history characterId (some token.accessToken) (some token.refreshToken)
  | refreshed {visited accessToken refreshToken token} (hvisited : visited ∈ history)
      (hloggedIn : visited.before.session.characterId = some characterId)
      (hgranted : CorpGranted start history characterId accessToken (some refreshToken))
      (hrefreshed : ⟨.requestToken (.refreshToken refreshToken), .ok token⟩ ∈ visited.log) :
      CorpGranted start history characterId (some token.accessToken) (some token.refreshToken)

/-- All corporation tokens of the characters come from there. -/
def AllCorpGranted (start : Characters) (history : List Visited) (characters : Characters) : Prop :=
  ∀ characterId document, characters characterId = some document →
    CorpGranted start history characterId document.corpAccessToken document.corpRefreshToken

section Tokens

variable {start : Characters} {history : List Visited} {characterId : ℤ}

/-- A document that is only updated was there. -/
theorem exists_of_elim_none {α : Type} {old : Option α} {f : α → α} {new : α}
    (hnew : old.elim none (fun value => some (f value)) = some new) :
    ∃ value, old = some value ∧ f value = new := by
  cases old with
  | none => cases hnew
  | some value => exact ⟨value, rfl, Option.some_inj.mp hnew⟩

theorem CorpGranted.cons {accessToken refreshToken : Option String} (visited : Visited)
    (hgranted : CorpGranted start history characterId accessToken refreshToken) :
    CorpGranted start (visited :: history) characterId accessToken refreshToken := by
  induction hgranted with
  | start hdocument => exact .start hdocument
  | none => exact .none
  | exchanged hvisited hvisit hloggedIn hexchanged hclaims =>
      exact .exchanged (List.mem_cons_of_mem _ hvisited) hvisit hloggedIn hexchanged hclaims
  | refreshed hvisited hloggedIn _ hrefreshed ih =>
      exact .refreshed (List.mem_cons_of_mem _ hvisited) hloggedIn ih hrefreshed

/-- The corporation tokens of a document that has been updated for a reason. -/
theorem granted_of_warranted {visited : Visited} {log : AuthLog}
    (hlog : ∀ call ∈ log, call ∈ visited.log)
    (hread : ∀ document, Read log characterId document →
      CorpGranted start (visited :: history) characterId document.corpAccessToken
        document.corpRefreshToken)
    {updates : List Assignment} {upsert : Option CharacterDocument}
    (hwarranted : Warranted visited.before.session visited.visit log characterId updates upsert)
    {old : Option CharacterDocument}
    (hold : ∀ document, old = some document → CorpGranted start (visited :: history) characterId
      document.corpAccessToken document.corpRefreshToken) {new : CharacterDocument}
    (hnew : old.elim (upsert.map CharacterDocument.kept) (fun document =>
      some (document.update (updates.map Assignment.kept))) = some new) :
    CorpGranted start (visited :: history) characterId new.corpAccessToken
      new.corpRefreshToken := by
  cases hwarranted with
  | login token claims now expiresAt =>
      cases old with
      | none =>
          -- a login clears the corporation's fields, and a first login has none
          obtain rfl := Option.some_inj.mp hnew
          exact .none
      | some document =>
          obtain rfl := Option.some_inj.mp hnew
          exact .none
  | connect verifier token claims corporationId now expiresAt hvisit hloggedIn hexchanged =>
      obtain ⟨document, rfl, rfl⟩ := exists_of_elim_none hnew
      exact .exchanged (List.mem_cons_self ..) hvisit hloggedIn
        ⟨hlog _ hexchanged.exchanged, hlog _ hexchanged.validated⟩ rfl
  | disconnect =>
      obtain ⟨document, rfl, rfl⟩ := exists_of_elim_none hnew
      exact .none
  | @writeBack _ read base corp now hloggedIn hreadDocument hbase hcorp =>
      obtain ⟨document, rfl, rfl⟩ := exists_of_elim_none hnew
      cases hcorp with
      | none =>
          -- the tokens are those that the document had
          have hsame := sameCorp_base hbase now document
          rw [hsame.corpAccessToken, hsame.corpRefreshToken]
          exact hold document rfl
      | @refreshed refreshToken token expiresAt hdocument hgranted =>
          -- the token that is used up came with what was read
          have hbefore := hread read hreadDocument
          rw [hdocument] at hbefore
          have htokens := CorpGranted.refreshed (List.mem_cons_self ..) hloggedIn hbefore
            (hlog _ hgranted)
          cases hbase <;> exact htokens
      | refused => cases hbase <;> exact .none

theorem found_of_respond {choice : Choice} {world later : World} {document : CharacterDocument}
    (hrespond : respond (.findCharacter characterId) choice world =
      some (.ok (some document), later)) : world.characters characterId = some document := by
  cases choice <;> simp only [respond, Option.some.injEq, Prod.mk.injEq, reduceCtorEq] at hrespond
  rename_i delivery
  obtain ⟨hanswer, _⟩ := hrespond
  cases delivery <;> simp [Delivery.answer] at hanswer
  exact hanswer

/-- A call that is carried out for a reason leaves only granted tokens. -/
theorem AllCorpGranted.effect {visited : Visited} {log : AuthLog} {characters : Characters}
    {op : Op} (hall : AllCorpGranted start (visited :: history) characters)
    (hlog : ∀ call ∈ log, call ∈ visited.log)
    (hread : ∀ characterId document, Read log characterId document →
      CorpGranted start (visited :: history) characterId document.corpAccessToken
        document.corpRefreshToken)
    (hwarranted : WarrantedOp visited.before.session visited.visit log op) :
    AllCorpGranted start (visited :: history) (op.effect characters) := by
  intro other document hdocument
  cases op with
  | updateCharacter characterId updates upsert =>
      by_cases hother : other = characterId
      · subst hother
        rw [Op.effect, Characters.update, Function.update_self] at hdocument
        exact granted_of_warranted hlog (hread other) hwarranted (hall other) hdocument
      · rw [Op.effect, Characters.update, Function.update_of_ne hother] at hdocument
        exact hall other document hdocument
  | deleteCharacter characterId =>
      by_cases hother : other = characterId
      · subst hother
        rw [Op.effect, Function.update_self] at hdocument
        cases hdocument
      · rw [Op.effect, Function.update_of_ne hother] at hdocument
        exact hall other document hdocument
  | _ => exact hall other document hdocument

/-- **The calls of a request** leave only granted tokens, and read only such. -/
theorem granted_of_answered {visited : Visited} {world later : World} {log : AuthLog}
    (hanswered : Program.Answered Visited.Answers world log later) (hsuffix : log <:+ visited.log)
    (hwarranted : ∀ call earlier, (call :: earlier) <:+ visited.log →
      WarrantedOp visited.before.session visited.visit earlier call.op)
    (hall : AllCorpGranted start (visited :: history) world.characters) :
    AllCorpGranted start (visited :: history) later.characters ∧
      ∀ characterId document, Read log characterId document →
        CorpGranted start (visited :: history) characterId document.corpAccessToken
          document.corpRefreshToken := by
  induction hanswered with
  | nil => exact ⟨hall, by simp [Read]⟩
  | @cons middle later log op answer _ hanswer ih =>
      obtain ⟨choice, hrespond⟩ := hanswer
      have hearlier : log <:+ visited.log := (List.suffix_cons _ log).trans hsuffix
      obtain ⟨hmiddle, hread⟩ := ih hearlier
      constructor
      · rcases characters_of_respond hrespond with ⟨_, heffect⟩ | ⟨_, hsame⟩
        · rw [heffect]
          exact hmiddle.effect hearlier.subset hread (hwarranted _ _ hsuffix)
        · rwa [hsame]
      · intro characterId document hmem
        rcases List.mem_cons.mp hmem with heq | hmem
        · cases heq
          exact hmiddle characterId document (found_of_respond hrespond)
        · exact hread characterId document hmem

end Tokens

/-! ## One request -/

section Visits

variable {visited : Visited}

theorem leaves_of_valid (hvalid : visited.Valid) :
    Leaves visited.before.session visited.visit visited.log visited.outcome := by
  simpa using ((records_visit _ _).of_ran hvalid.ran).2

theorem warranted_of_valid (hvalid : visited.Valid) (call : Call signature AuthError)
    (earlier : AuthLog) (hsuffix : (call :: earlier) <:+ visited.log) :
    WarrantedOp visited.before.session visited.visit earlier call.op := by
  simpa [NewestWarranted] using ((records_visit _ _).of_ran hvalid.ran).1 call earlier hsuffix

/-- Calls that can change no character change none. -/
theorem characters_of_unwritten {world later : World} {log : AuthLog}
    (hanswered : Program.Answered Visited.Answers world log later) (hunwritten : Unwritten log) :
    later.characters = world.characters := by
  induction hanswered with
  | nil => rfl
  | cons _ hanswer ih =>
      obtain ⟨choice, hrespond⟩ := hanswer
      obtain ⟨hcall, hlog⟩ := List.forall_mem_cons.mp hunwritten
      rcases characters_of_respond hrespond with ⟨_, heffect⟩ | ⟨_, hsame⟩
      · rw [heffect, hcall, ih hlog]
      · rw [hsame, ih hlog]

/-- **Logging in.**  The session of a request has the character that it had before, or the
request is a callback with the pending state of the login, and the character is that of the
token for which it has exchanged the code. -/
def LogsInOwn (visited : Visited) : Prop :=
  ∀ characterId, visited.session.characterId = some characterId →
    visited.before.session.characterId = some characterId ∨
      ∃ code state verifier token claims, visited.visit = .callback code state ∧
        visited.before.session.pkceState = some state ∧
        visited.before.session.pkceVerifier = some verifier ∧
        Exchanged visited.log code verifier token claims ∧ claims.characterId = characterId

theorem logsInOwn_of_valid (hvalid : visited.Valid) : LogsInOwn visited := by
  intro characterId hsession
  unfold Visited.session at hsession
  have hleaves := leaves_of_valid hvalid
  generalize visited.outcome = outcome at hsession hleaves
  cases hleaves with
  | raised hcallback => exact Or.inl hsession
  | refused hunwritten => exact Or.inl hsession
  | shown hvisit hleft hbody =>
      rcases hleft with rfl | rfl
      · exact Or.inl hsession
      · cases hsession
  | cleared hvisit => cases hsession
  | asked hvisit => exact Or.inl hsession
  | askedCorp hvisit => exact Or.inl hsession
  | loggedIn verifier token claims hvisit hpending hcorp hverifier hexchanged =>
      exact Or.inr ⟨_, _, verifier, token, claims, hvisit, hpending, hverifier, hexchanged,
        Option.some_inj.mp hsession⟩
  | connected hvisit hpending => exact Or.inl hsession

/-- The callback has not succeeded. -/
def Visited.Fails (visited : Visited) : Prop :=
  visited.visit.IsCallback ∧ visited.accepted = none

/-- **Failing.**  A callback that fails leaves the session, and the characters unless the
update itself has raised an error. -/
def FailsUnchanged (visited : Visited) : Prop :=
  visited.Fails → visited.session = visited.before.session ∧
    (visited.after.characters = visited.before.world.characters ∨ UpdateRaised visited.log)

theorem failsUnchanged_of_valid (hvalid : visited.Valid) : FailsUnchanged visited := by
  rintro ⟨hcallback, hfails⟩
  unfold Visited.accepted at hfails
  unfold Visited.session
  have hunchanged : Unwritten visited.log → visited.after.characters =
      visited.before.world.characters := characters_of_unwritten hvalid.answered
  have hleaves := leaves_of_valid hvalid
  generalize visited.outcome = outcome at hfails hleaves
  cases hleaves with
  | raised hwrites => exact ⟨rfl, (hwrites hcallback).imp_left hunchanged⟩
  | refused hunwritten => exact ⟨rfl, Or.inl (hunchanged hunwritten)⟩
  | shown hvisit hleft hbody => exact absurd hcallback hvisit
  | cleared hvisit => exact absurd hcallback hvisit
  | asked hvisit => exact absurd hcallback hvisit
  | askedCorp hvisit => exact absurd hcallback hvisit
  | loggedIn verifier token claims hvisit hpending hcorp hverifier hexchanged =>
      rw [hvisit] at hfails
      cases hfails
  | connected hvisit hpending =>
      rw [hvisit] at hfails
      cases hfails

end Visits

/-! ## States -/

/-- The states that have been generated, and those that have been accepted. -/
def generatedStates (history : List Visited) : List String := history.filterMap Visited.generated

def acceptedStates (history : List Visited) : List String := history.filterMap Visited.accepted

/-- The pending states of a session have been generated and not been accepted, and no state
has been accepted twice. -/
structure Unspent (history : List Visited) (session : Session) : Prop where
  pkce : ∀ state, session.pkceState = some state →
    state ∈ generatedStates history ∧ state ∉ acceptedStates history
  corp : ∀ state, session.corpPkceState = some state →
    state ∈ generatedStates history ∧ state ∉ acceptedStates history
  apart : ∀ state, session.pkceState = some state → session.corpPkceState ≠ some state
  accepted : ∀ state ∈ acceptedStates history, state ∈ generatedStates history
  once : (acceptedStates history).Nodup

section States

variable {history : List Visited} {visited : Visited} {session left : Session} {state : String}

theorem unspent_nil : Unspent [] {} where
  pkce := by simp
  corp := by simp
  apart := by simp
  accepted := by simp [acceptedStates]
  once := by simp [acceptedStates]

/-- A request that generates and accepts no state, and leaves no other pending ones. -/
theorem Unspent.keep (hunspent : Unspent history session) (hgenerated : visited.generated = none)
    (haccepted : visited.accepted = none)
    (hpkce : ∀ state, left.pkceState = some state → session.pkceState = some state)
    (hcorp : ∀ state, left.corpPkceState = some state → session.corpPkceState = some state) :
    Unspent (visited :: history) left := by
  have hstates : generatedStates (visited :: history) = generatedStates history :=
    List.filterMap_cons_none hgenerated
  have hspent : acceptedStates (visited :: history) = acceptedStates history :=
    List.filterMap_cons_none haccepted
  constructor
  · intro state hstate
    rw [hstates, hspent]
    exact hunspent.pkce state (hpkce state hstate)
  · intro state hstate
    rw [hstates, hspent]
    exact hunspent.corp state (hcorp state hstate)
  · exact fun state hstate hother =>
      hunspent.apart state (hpkce state hstate) (hcorp state hother)
  · rw [hstates, hspent]
    exact hunspent.accepted
  · rw [hspent]
    exact hunspent.once

/-- A request that generates a state. -/
theorem Unspent.generate (hunspent : Unspent history session)
    (hdistinct : (generatedStates (visited :: history)).Nodup)
    (hgenerated : visited.generated = some state) (haccepted : visited.accepted = none)
    (hpkce : ∀ pending, left.pkceState = some pending →
      session.pkceState = some pending ∨
        pending = state ∧ left.corpPkceState = session.corpPkceState)
    (hcorp : ∀ pending, left.corpPkceState = some pending →
      session.corpPkceState = some pending ∨
        pending = state ∧ left.pkceState = session.pkceState) :
    Unspent (visited :: history) left := by
  have hstates : generatedStates (visited :: history) = state :: generatedStates history :=
    List.filterMap_cons_some hgenerated
  have hspent : acceptedStates (visited :: history) = acceptedStates history :=
    List.filterMap_cons_none haccepted
  rw [hstates, List.nodup_cons] at hdistinct
  obtain ⟨hnew, _⟩ := hdistinct
  -- what has been accepted was generated before, and the state is new
  have hunaccepted : state ∉ acceptedStates history := fun hmem =>
    hnew (hunspent.accepted state hmem)
  constructor
  · intro pending hpending
    rw [hstates, hspent]
    rcases hpkce pending hpending with hold | ⟨rfl, _⟩
    · exact (hunspent.pkce pending hold).imp_left (List.mem_cons_of_mem _)
    · exact ⟨List.mem_cons_self .., hunaccepted⟩
  · intro pending hpending
    rw [hstates, hspent]
    rcases hcorp pending hpending with hold | ⟨rfl, _⟩
    · exact (hunspent.corp pending hold).imp_left (List.mem_cons_of_mem _)
    · exact ⟨List.mem_cons_self .., hunaccepted⟩
  · intro pending hpending hother
    rcases hpkce pending hpending with hold | ⟨rfl, hsame⟩
    · rcases hcorp pending hother with hcorpOld | ⟨rfl, hsame⟩
      · -- neither of the two is the new one
        exact hunspent.apart pending hold hcorpOld
      · exact hnew (hunspent.pkce pending hold).1
    · exact hnew (hunspent.corp pending (hsame ▸ hother)).1
  · rw [hstates, hspent]
    exact fun pending hmem => List.mem_cons_of_mem _ (hunspent.accepted pending hmem)
  · rw [hspent]
    exact hunspent.once

/-- A callback that accepts a pending state, which is not pending any more. -/
theorem Unspent.accept (hunspent : Unspent history session)
    (hgenerated : visited.generated = none) (haccepted : visited.accepted = some state)
    (hpending : session.pkceState = some state ∨ session.corpPkceState = some state)
    (hpkce : ∀ pending, left.pkceState = some pending →
      session.pkceState = some pending ∧ pending ≠ state)
    (hcorp : ∀ pending, left.corpPkceState = some pending →
      session.corpPkceState = some pending ∧ pending ≠ state) :
    Unspent (visited :: history) left := by
  have hstates : generatedStates (visited :: history) = generatedStates history :=
    List.filterMap_cons_none hgenerated
  have hspent : acceptedStates (visited :: history) = state :: acceptedStates history :=
    List.filterMap_cons_some haccepted
  -- it was pending, so that it has not been accepted
  have hstate : state ∈ generatedStates history ∧ state ∉ acceptedStates history :=
    hpending.elim (hunspent.pkce state) (hunspent.corp state)
  constructor
  · intro pending hleft
    obtain ⟨hold, hne⟩ := hpkce pending hleft
    rw [hstates, hspent, List.mem_cons, not_or]
    exact ⟨(hunspent.pkce pending hold).1, hne, (hunspent.pkce pending hold).2⟩
  · intro pending hleft
    obtain ⟨hold, hne⟩ := hcorp pending hleft
    rw [hstates, hspent, List.mem_cons, not_or]
    exact ⟨(hunspent.corp pending hold).1, hne, (hunspent.corp pending hold).2⟩
  · exact fun pending hleft hother =>
      hunspent.apart pending (hpkce pending hleft).1 (hcorp pending hother).1
  · rw [hstates, hspent]
    exact List.forall_mem_cons.mpr ⟨hstate.1, hunspent.accepted⟩
  · rw [hspent, List.nodup_cons]
    exact ⟨hstate.2, hunspent.once⟩

/-- **A request** leaves pending states that are generated and not accepted. -/
theorem Unspent.visit (hunspent : Unspent history visited.before.session) (hvalid : visited.Valid)
    (hdistinct : (generatedStates (visited :: history)).Nodup) :
    Unspent (visited :: history) visited.session := by
  obtain ⟨before, visit, log, outcome, after⟩ := visited
  have hleaves : Leaves before.session visit log outcome := leaves_of_valid hvalid
  cases hleaves with
  | raised hcallback => exact hunspent.keep rfl (by cases visit <;> rfl) (fun _ => id) fun _ => id
  | refused hunwritten =>
      exact hunspent.keep rfl (by cases visit <;> rfl) (fun _ => id) fun _ => id
  | @shown left body hvisit hleft hbody =>
      -- a page generates and accepts nothing, whichever of the two sessions it leaves
      refine hunspent.keep ?_ ?_ ?_ ?_
      · cases body with
        | authorize state corp => exact absurd rfl (hbody state corp)
        | _ => rfl
      · cases visit with
        | callback code state => exact absurd ⟨code, state, rfl⟩ hvisit
        | _ => rfl
      · rcases hleft with rfl | rfl <;> exact fun _ => id
      · rcases hleft with rfl | rfl <;> exact fun _ => id
  | cleared hvisit =>
      refine hunspent.keep rfl ?_ (by simp [Visited.session]) (by simp [Visited.session])
      cases visit with
      | callback code state => exact absurd ⟨code, state, rfl⟩ hvisit
      | _ => rfl
  | @asked verifier state hvisit =>
      refine hunspent.generate hdistinct rfl (by cases visit <;> rfl) ?_ fun _ => Or.inl
      exact fun pending hpending => Or.inr ⟨(Option.some_inj.mp hpending).symm, rfl⟩
  | @askedCorp verifier state hvisit =>
      refine hunspent.generate hdistinct rfl (by cases visit <;> rfl) (fun _ => Or.inl) ?_
      exact fun pending hpending => Or.inr ⟨(Option.some_inj.mp hpending).symm, rfl⟩
  | @loggedIn code state verifier token claims hvisit hpending hcorp hverifier hexchanged =>
      obtain rfl : visit = .callback code state := hvisit
      refine hunspent.accept rfl rfl (Or.inl hpending) (by simp [Visited.session]) ?_
      exact fun pending hleft => ⟨hleft, fun heq => hcorp (heq ▸ hleft)⟩
  | @connected code state hvisit hpending =>
      obtain rfl : visit = .callback code state := hvisit
      refine hunspent.accept rfl rfl (Or.inr hpending) ?_ (by simp [Visited.session])
      exact fun pending hleft => ⟨hleft, fun heq => hunspent.apart _ (heq ▸ hleft) hpending⟩

end States

/-! ## Every run -/

/-- What a run of requests leaves. -/
structure SafelyBrowsed (start : Characters) (history : List Visited) (browser : Browser) :
    Prop where
  logsIn : ∀ visited ∈ history, LogsInOwn visited
  granted : AllCorpGranted start history browser.world.characters
  unspent : Unspent history browser.session
  fails : ∀ visited ∈ history, FailsUnchanged visited

theorem safelyBrowsed {world : World} {history : List Visited} {browser : Browser}
    (hbrowses : Browses ⟨{}, world⟩ history browser)
    (hdistinct : (generatedStates history).Nodup) :
    SafelyBrowsed world.characters history browser := by
  induction hbrowses with
  | nil =>
      refine ⟨by simp, fun _ _ hdocument => .start hdocument, unspent_nil, by simp⟩
  | @visit history visited _ hvalid ih =>
      have hearlier : (generatedStates history).Nodup :=
        hdistinct.sublist ((List.sublist_cons_self visited history).filterMap _)
      obtain ⟨hlogsIn, hgranted, hunspent, hfails⟩ := ih hearlier
      refine ⟨List.forall_mem_cons.mpr ⟨logsInOwn_of_valid hvalid, hlogsIn⟩, ?_,
        hunspent.visit hvalid hdistinct,
        List.forall_mem_cons.mpr ⟨failsUnchanged_of_valid hvalid, hfails⟩⟩
      have hbefore : AllCorpGranted world.characters (visited :: history)
          visited.before.world.characters := fun characterId document hdocument =>
        (hgranted characterId document hdocument).cons visited
      exact (granted_of_answered hvalid.answered (List.suffix_refl _)
        (warranted_of_valid hvalid) hbefore).1

/-- **The shared callback is safe.**  From a session without anything, in every run in which
the generated states are different: characters log in by their own callbacks, corporation
tokens come from callbacks of their own character, no state is accepted twice, and a
callback that fails leaves the session, and the characters unless the update itself has
raised an error. -/
theorem callback_safe {world : World} {history : List Visited} {browser : Browser}
    (hbrowses : Browses ⟨{}, world⟩ history browser)
    (hdistinct : (generatedStates history).Nodup) :
    (∀ visited ∈ history, LogsInOwn visited) ∧
    AllCorpGranted world.characters history browser.world.characters ∧
    (acceptedStates history).Nodup ∧
    ∀ visited ∈ history, FailsUnchanged visited := by
  obtain ⟨hlogsIn, hgranted, hunspent, hfails⟩ := safelyBrowsed hbrowses hdistinct
  exact ⟨hlogsIn, hgranted, hunspent.once, hfails⟩

/-! ## A login -/

/-- The request with a choice for each of its calls. -/
def visitWith (before : Browser) (visit : Visit) (choices : List Choice) : Option Visited :=
  ((auth.body (visit.start before.session)).follow respond choices before.world).map fun ended =>
    ⟨before, visit, ended.1, ended.2.1, ended.2.2⟩

theorem valid_of_visitWith {before : Browser} {visit : Visit} {choices : List Choice}
    (hvisit : visitWith before visit choices = some visited) :
    visited.before = before ∧ visited.Valid := by
  obtain ⟨ended, hfollow, rfl⟩ := Option.map_eq_some_iff.mp hvisit
  obtain ⟨hran, hanswered⟩ := Program.ran_of_follow hfollow
  exact ⟨rfl, hran, hanswered⟩

def nobody : Browser := ⟨{}, ⟨fun _ => none, [], []⟩⟩

theorem isSome_asked :
    (visitWith nobody .login [.tokenUrlsafe "verifier", .tokenUrlsafe "state"]).isSome := rfl

/-- A browser asks for a login. -/
def asked : Visited :=
  (visitWith nobody .login [.tokenUrlsafe "verifier", .tokenUrlsafe "state"]).get isSome_asked

def pilotClaims : CharacterClaims := ⟨7, "Pilot", "owner", ["publicData"]⟩

/-- SSO answers a code, and the update of the character comes to `delivery`. -/
def loginChoices (delivery : Delivery) : List Choice :=
  [.token (.ok ⟨"access", "refresh", 1200⟩) false, .claims (.ok pilotClaims), .utcnow 0,
    .database delivery]

theorem isSome_calledBack (delivery : Delivery) :
    (visitWith asked.browser (.callback "code" "state") (loginChoices delivery)).isSome := by
  cases delivery <;> rfl

/-- SSO leads back to the callback. -/
def calledBack (delivery : Delivery) : Visited :=
  (visitWith asked.browser (.callback "code" "state") (loginChoices delivery)).get
    (isSome_calledBack delivery)

theorem browses_calledBack (delivery : Delivery) :
    Browses nobody [calledBack delivery, asked] (calledBack delivery).browser := by
  obtain ⟨hasked, hvalidAsked⟩ := valid_of_visitWith (Option.some_get isSome_asked).symm
  obtain ⟨hcalled, hvalidCalled⟩ :=
    valid_of_visitWith (Option.some_get (isSome_calledBack delivery)).symm
  have hfirst : Browses nobody [asked] asked.browser := .visit (hasked ▸ .nil) hvalidAsked
  exact .visit (hcalled ▸ hfirst) hvalidCalled

/-- **A callback can fail and change a character**: MongoDB has carried the update out, but
the answer is lost. -/
theorem failed_callback_changes :
    Browses nobody [calledBack .lost, asked] (calledBack .lost).browser ∧
    (generatedStates [calledBack .lost, asked]).Nodup ∧ (calledBack .lost).Fails ∧
    (calledBack .lost).before.world.characters 7 = none ∧
    (calledBack .lost).after.characters 7 ≠ none := by
  have hwritten : (calledBack .lost).after.characters 7 =
      some (loginDocument ⟨"access", "refresh", 1200⟩ pilotClaims 0 1200000000) := rfl
  refine ⟨browses_calledBack .lost, by decide, ⟨⟨_, _, rfl⟩, rfl⟩, rfl, ?_⟩
  rw [hwritten]
  exact Option.some_ne_none _

/-! ## A login and a connection -/

theorem isSome_corpAsked :
    (visitWith (calledBack .done).browser .connectCorp [.database .done, .utcnow 0,
      .tokenUrlsafe "corp verifier", .tokenUrlsafe "corp state"]).isSome := rfl

/-- The character asks for a connection of corporation data. -/
def corpAsked : Visited :=
  (visitWith (calledBack .done).browser .connectCorp [.database .done, .utcnow 0,
    .tokenUrlsafe "corp verifier", .tokenUrlsafe "corp state"]).get isSome_corpAsked

theorem isSome_corpCalledBack :
    (visitWith corpAsked.browser (.callback "corp code" "corp state")
      [.token (.ok ⟨"corp access", "corp refresh", 1200⟩) false, .claims (.ok pilotClaims),
        .publicInfo (.ok 98), .utcnow 0, .database .done]).isSome := rfl

/-- SSO leads back to the callback once more. -/
def corpCalledBack : Visited :=
  (visitWith corpAsked.browser (.callback "corp code" "corp state")
    [.token (.ok ⟨"corp access", "corp refresh", 1200⟩) false, .claims (.ok pilotClaims),
      .publicInfo (.ok 98), .utcnow 0, .database .done]).get isSome_corpCalledBack

/-- A login, and a connection of corporation data after it. -/
def connectedHistory : List Visited := [corpCalledBack, corpAsked, calledBack .done, asked]

theorem browses_corpCalledBack : Browses nobody connectedHistory corpCalledBack.browser := by
  obtain ⟨hasked, hvalidAsked⟩ := valid_of_visitWith (Option.some_get isSome_corpAsked).symm
  obtain ⟨hcalled, hvalidCalled⟩ := valid_of_visitWith (Option.some_get isSome_corpCalledBack).symm
  have hfirst : Browses nobody [corpAsked, calledBack .done, asked] corpAsked.browser :=
    .visit (hasked ▸ browses_calledBack .done) hvalidAsked
  exact .visit (hcalled ▸ hfirst) hvalidCalled

/-- The connection is stored, and the login and the connection are safe. -/
theorem callback_safe_connected :
    (corpCalledBack.browser.world.characters 7).bind CharacterDocument.corpRefreshToken =
      some "corp refresh" ∧
    (∀ visited ∈ connectedHistory, LogsInOwn visited) ∧
    AllCorpGranted nobody.world.characters connectedHistory
      corpCalledBack.browser.world.characters ∧
    (acceptedStates connectedHistory).Nodup ∧
    ∀ visited ∈ connectedHistory, FailsUnchanged visited :=
  ⟨rfl, callback_safe browses_corpCalledBack (by decide)⟩

end EveBuild.Auth
