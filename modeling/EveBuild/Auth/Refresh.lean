import EveBuild.Auth.Connection
import EveBuild.Effect.Owned

/-!
# The tokens that SSO grants

`get_current_character_optional` asks SSO for up to two new tokens and writes what it
has got once, at its end.  With the character to itself, the request ends in one of two
ways (`Ended`): it has returned, and everything that was granted is in the document that
is stored and, but for what is below a millisecond, returned; or it has raised, and the
document is as the request has read it, so that what was granted before is lost.

It raises after a grant if SSO fails on the second token, since the two are asked for in
turn (`Failed`), or if the time at which a granted token expires cannot be computed
(`Timeless`).  `pairs_stored_iff` says that these are the only ways in which a token gets
lost.
-/

namespace EveBuild.Auth

open Effect

/-! ## One page view with a character to itself -/

/-- The request with this number is the page view of the session.  Its database calls
succeed, and no other request changes the document of the character. -/
def undisturbed (thread : ℕ) (session : Session) (characterId : ℤ) :
    Policy signature AuthError World Start Choice Tick where
  start start moment := moment.starts.length = thread → start = .page session
  call other op choice moment := ∀ delivery, choice = .database delivery →
    if other = thread then delivery = .done
    else op.effect moment.world.characters characterId = moment.world.characters characterId
  crash _ _ := True
  tick _ _ := True

/-- SSO has granted a token for another one. -/
def Granted (log : AuthLog) (refreshToken : String) (token : TokenResponse) : Prop :=
  ⟨.requestToken (.refreshToken refreshToken), .ok token⟩ ∈ log

/-- SSO has failed otherwise than by refusing a token. -/
def Failed (log : AuthLog) : Prop :=
  ∃ form error, ⟨.requestToken form, .error error⟩ ∈ log ∧
    error ≠ .httpStatus 400 ∧ error ≠ .httpStatus 401

/-- The time at which a granted token expires was no `datetime`. -/
def Timeless (log : AuthLog) : Prop :=
  ∃ form token now,
    ([⟨.utcnow, .ok now⟩, ⟨.requestToken form, .ok token⟩] : AuthLog) <:+: log ∧
      token.expiresIn.after? now = none

/-- The document has the pair as its base token. -/
def CharacterDocument.HoldsBase (document : CharacterDocument) (token : TokenResponse) : Prop :=
  document.accessToken = token.accessToken ∧ document.refreshToken = token.refreshToken

/-- The document has the pair as its corporation token. -/
def CharacterDocument.HoldsCorp (document : CharacterDocument) (token : TokenResponse) : Prop :=
  document.corpAccessToken = some token.accessToken ∧
    document.corpRefreshToken = some token.refreshToken

/-- The stored document has the pair where the other one had the token that the pair was
granted for. -/
def Holds (document stored : CharacterDocument) (refreshToken : String) (token : TokenResponse) :
    Prop :=
  document.refreshToken = refreshToken ∧ stored.HoldsBase token ∨
    document.corpRefreshToken = some refreshToken ∧ stored.HoldsCorp token

/-- What a request has to itself: its log and the document of its character. -/
structure View where
  log : AuthLog
  stored : Option CharacterDocument

section Request

variable (thread : ℕ) (session : Session) (characterId : ℤ)

/-- The request relies on the document of its character. -/
def keepsCharacter : Contract signature AuthError World Start where
  inv _ := True
  rely other moment later := other = thread →
    later.world.characters characterId = moment.world.characters characterId
  rely_refl _ _ _ := rfl
  rely_trans _ _ _ _ hfirst hsecond hthread := (hsecond hthread).trans (hfirst hthread)

def requestShare : (keepsCharacter thread characterId).Share thread View where
  held _ := True
  part moment := ⟨moment.logOf thread, moment.world.characters characterId⟩
  stable hlater _ _ := ⟨trivial, by rw [hlater.logOf, hlater.rely rfl]⟩

/-- Triples of the request. -/
abbrev RequestTriple {β : Type} (pre : View → Prop) (program : Code β)
    (post : Except AuthError β → View → Prop) : Prop :=
  (requestShare thread characterId).Triple auth (undisturbed thread session characterId) pre
    program post

/-- Ends with a result only, and one of which `finished` holds. -/
def Returning {β : Type} (finished : β → View → Prop) : Except AuthError β → View → Prop
  | .ok result => finished result
  | .error _ => fun _ => False

/-- What a call of the request does to what it has to itself. -/
def Op.Answered (characterId : ℤ) (view : View) (stored : Option CharacterDocument) :
    (op : Op) → Except AuthError op.Answer → Prop
  | .findCharacter target, answer => target = characterId →
      stored = view.stored ∧ answer = .ok view.stored
  | .updateCharacter target updates upsert, answer => target = characterId →
      stored = view.stored.elim (upsert.map CharacterDocument.kept) (fun document =>
          some (document.update (updates.map Assignment.kept))) ∧
        answer = .ok ()
  | .deleteCharacter target, answer => target = characterId → stored = none ∧ answer = .ok ()
  | .utcnow, answer => stored = view.stored ∧ ∃ now, answer = .ok now
  | _, _ => stored = view.stored

variable {thread session characterId}

/-- The database does what the request asks for. -/
theorem answered_of_respond {op : Op} {choice : Choice} {world later : World} {log : AuthLog}
    {answer : Except AuthError op.Answer}
    (hdone : ∀ delivery, choice = .database delivery → delivery = .done)
    (hrespond : respond op choice world = some (answer, later)) :
    op.Answered characterId ⟨log, world.characters characterId⟩ (later.characters characterId)
      answer := by
  cases op <;> cases choice <;>
    simp only [respond, Option.some.injEq, Prod.mk.injEq, reduceCtorEq] at hrespond
  -- the three calls of the database, each of which is carried out
  case findCharacter.database target delivery =>
    obtain rfl := hdone delivery rfl
    obtain ⟨rfl, rfl⟩ := hrespond
    rintro rfl
    exact ⟨rfl, rfl⟩
  case updateCharacter.database target updates upsert delivery =>
    obtain rfl := hdone delivery rfl
    obtain ⟨rfl, rfl⟩ := hrespond
    rintro rfl
    exact ⟨characters_update_self .., rfl⟩
  case deleteCharacter.database target delivery =>
    obtain rfl := hdone delivery rfl
    obtain ⟨rfl, rfl⟩ := hrespond
    rintro rfl
    exact ⟨Function.update_self .., rfl⟩
  case utcnow.utcnow now =>
    obtain ⟨rfl, rfl⟩ := hrespond
    exact ⟨rfl, now, rfl⟩
  all_goals
    obtain ⟨_, rfl⟩ := hrespond
    rfl

theorem requestTriple_await {op : Op} {pre : View → Prop}
    {post : Except AuthError op.Answer → View → Prop}
    (hpost : ∀ view stored answer, pre view → op.Answered characterId view stored answer →
      post answer ⟨⟨op, answer⟩ :: view.log, stored⟩) :
    RequestTriple thread session characterId pre (await op) post := by
  refine Contract.Share.Triple.perform fun moment _ _ hpre answer world hanswers => ?_
  obtain ⟨choice, hpolicy, hrespond⟩ := hanswers
  have hdone : ∀ delivery, choice = .database delivery → delivery = .done := by
    intro delivery hdelivery
    have hmeets := hpolicy delivery hdelivery
    rwa [if_pos rfl] at hmeets
  have hview := hpost _ _ answer hpre (answered_of_respond hdone hrespond)
  refine ⟨trivial, fun other hother heq => absurd heq hother, trivial, ?_⟩
  simpa [requestShare] using hview

/-! ### Before the write -/

/-- The request has read the document, which is still stored, nothing has failed, what has
been granted is `held`, and the last call was no grant. -/
structure Working (characterId : ℤ) (document : CharacterDocument)
    (held : String → TokenResponse → Prop) (view : View) : Prop where
  read : ∀ other, Read view.log characterId other ↔ other = document
  stored : view.stored = some document
  sound : ¬ Failed view.log
  timed : ¬ Timeless view.log
  held : ∀ refreshToken token, Granted view.log refreshToken token → held refreshToken token
  settled : ∀ form token rest, view.log ≠ ⟨.requestToken form, .ok token⟩ :: rest

/-- The last call has granted a token. -/
def JustGranted (characterId : ℤ) (document : CharacterDocument)
    (held : String → TokenResponse → Prop) (refreshToken : String) (token : TokenResponse)
    (view : View) : Prop :=
  ∃ rest, view.log = ⟨.requestToken (.refreshToken refreshToken), .ok token⟩ :: rest ∧
    Working characterId document held ⟨rest, view.stored⟩

/-- SSO has failed, or a time has, and the document is still as the request has read it. -/
structure Broken (characterId : ℤ) (document : CharacterDocument) (view : View) : Prop where
  read : ∀ other, Read view.log characterId other ↔ other = document
  stored : view.stored = some document
  failed : Failed view.log ∨ Timeless view.log

variable {document : CharacterDocument} {held : String → TokenResponse → Prop}

/-- A call other than the read of the character has read nothing. -/
theorem read_cons {log : AuthLog} {call : Call signature AuthError}
    (hcall : ∀ target, call.op ≠ .findCharacter target) (other : CharacterDocument) :
    Read (call :: log) characterId other ↔ Read log characterId other := by
  refine ⟨fun hread => ?_, List.mem_cons_of_mem _⟩
  rcases List.mem_cons.mp hread with rfl | hread
  · exact absurd rfl (hcall _)
  · exact hread

/-- A time fails in the call that follows the grant. -/
theorem timeless_cons {log : AuthLog} {call : Call signature AuthError}
    (htimeless : Timeless (call :: log)) :
    Timeless log ∨ ∃ form token now rest, call = ⟨.utcnow, .ok now⟩ ∧
      log = ⟨.requestToken form, .ok token⟩ :: rest ∧ token.expiresIn.after? now = none := by
  obtain ⟨form, token, now, hwithin, hnone⟩ := htimeless
  rcases List.infix_cons_iff.mp hwithin with hprefix | hwithin
  · obtain ⟨rfl, rest, rfl⟩ := List.cons_prefix_cons.mp hprefix
    exact Or.inr ⟨form, token, now, rest, rfl, rfl, hnone⟩
  · exact Or.inl ⟨form, token, now, hwithin, hnone⟩

/-- A call that SSO has not failed in. -/
theorem not_failed_cons {log : AuthLog} {call : Call signature AuthError} (hlog : ¬ Failed log)
    (hcall : ∀ form error, call = ⟨.requestToken form, .error error⟩ →
      error = .httpStatus 400 ∨ error = .httpStatus 401) : ¬ Failed (call :: log) := by
  rintro ⟨form, error, hmem, hbad, hunauthorized⟩
  rcases List.mem_cons.mp hmem with heq | hmem
  · exact (hcall form error heq.symm).elim hbad hunauthorized
  · exact hlog ⟨form, error, hmem, hbad, hunauthorized⟩

/-- A call that asks for no token. -/
theorem Working.cons {view : View} {call : Call signature AuthError}
    (hread : ∀ target, call.op ≠ .findCharacter target)
    (hcall : ∀ form, call.op ≠ .requestToken form)
    (hworking : Working characterId document held view) :
    Working characterId document held ⟨call :: view.log, view.stored⟩ := by
  refine ⟨fun other => (read_cons hread other).trans (hworking.read other), hworking.stored,
    not_failed_cons hworking.sound ?_, fun htimeless => ?_, fun refreshToken token hmem => ?_, ?_⟩
  · rintro form error rfl
    exact absurd rfl (hcall form)
  · rcases timeless_cons htimeless with hold | ⟨form, token, now, rest, _, hlog, _⟩
    · exact hworking.timed hold
    · exact hworking.settled form token rest hlog
  · rcases List.mem_cons.mp hmem with rfl | hmem
    · exact absurd rfl (hcall _)
    · exact hworking.held refreshToken token hmem
  · rintro form token rest heq
    obtain ⟨rfl, _⟩ := List.cons.inj heq
    exact hcall form rfl

theorem Working.mono {wider : String → TokenResponse → Prop} {view : View}
    (hworking : Working characterId document held view)
    (hwider : ∀ refreshToken token, held refreshToken token → wider refreshToken token) :
    Working characterId document wider view :=
  ⟨hworking.read, hworking.stored, hworking.sound, hworking.timed, fun refreshToken token hmem =>
    hwider refreshToken token (hworking.held refreshToken token hmem), hworking.settled⟩

/-- The clock has been read after a grant, and the token expires at a time. -/
theorem Working.grant {token : TokenResponse} {now expiresAt : ℤ} {rest : AuthLog}
    {stored : Option CharacterDocument} (refreshToken : String)
    (hworking : Working characterId document held ⟨rest, stored⟩)
    (hafter : token.expiresIn.after? now = some expiresAt) :
    Working characterId document
      (fun other granted => held other granted ∨ refreshToken = other ∧ token = granted)
      ⟨⟨.utcnow, .ok now⟩ :: ⟨.requestToken (.refreshToken refreshToken), .ok token⟩ :: rest,
        stored⟩ := by
  refine ⟨fun other => ?_, hworking.stored, ?_, fun htimeless => ?_, fun other granted hmem => ?_,
    by simp⟩
  · exact ((read_cons (by simp) other).trans (read_cons (by simp) other)).trans
      (hworking.read other)
  · exact not_failed_cons (not_failed_cons hworking.sound (by simp)) (by simp)
  · rcases timeless_cons htimeless with htimeless | ⟨_, _, _, _, hclock, hlog, hnone⟩
    · rcases timeless_cons htimeless with hold | ⟨_, _, _, _, hcall, _⟩
      · exact hworking.timed hold
      · cases hcall
    · cases hclock
      cases hlog
      rw [hafter] at hnone
      cases hnone
  · rcases List.mem_cons.mp hmem with heq | hmem
    · cases heq
    rcases List.mem_cons.mp hmem with heq | hmem
    · cases heq
      exact Or.inr ⟨rfl, rfl⟩
    · exact Or.inl (hworking.held other granted hmem)

/-- What SSO has answered to a refresh token. -/
def Refreshed (characterId : ℤ) (document : CharacterDocument)
    (held : String → TokenResponse → Prop) (refreshToken : String) :
    Except AuthError (Option TokenResponse) → View → Prop
  | .ok none => Working characterId document held
  | .ok (some token) => JustGranted characterId document held refreshToken token
  | .error _ => Broken characterId document

/-- The clock does not fail. -/
def AfterClock {β : Type} (characterId : ℤ) (document : CharacterDocument)
    (held : String → TokenResponse → Prop) : Except AuthError β → View → Prop
  | .ok _ => Working characterId document held
  | .error _ => fun _ => False

theorem triple_utcnow :
    RequestTriple thread session characterId (Working characterId document held) (await .utcnow)
      (AfterClock characterId document held) := by
  refine requestTriple_await fun view stored answer hworking ⟨hstored, now, hanswer⟩ => ?_
  subst hstored hanswer
  exact hworking.cons nofun nofun

/-- What a granted token comes to, once it is to be known when it expires. -/
def Timed (characterId : ℤ) (document : CharacterDocument)
    (held : String → TokenResponse → Prop) (refreshToken : String) (token : TokenResponse) :
    Except AuthError ℤ → View → Prop
  | .ok _ => Working characterId document fun other granted =>
      held other granted ∨ refreshToken = other ∧ token = granted
  | .error _ => Broken characterId document

theorem triple_expiresAt (refreshToken : String) (token : TokenResponse) :
    RequestTriple thread session characterId
      (JustGranted characterId document held refreshToken token) (expiresAt token.expiresIn)
      (Timed characterId document held refreshToken token) := by
  have hclock : RequestTriple thread session characterId
      (JustGranted characterId document held refreshToken token) (await .utcnow)
      (fun outcome view => ∃ now rest, outcome = .ok now ∧ view.log = ⟨.utcnow, .ok now⟩ ::
          ⟨.requestToken (.refreshToken refreshToken), .ok token⟩ :: rest ∧
        Working characterId document held ⟨rest, view.stored⟩) := by
    refine requestTriple_await fun view stored answer ⟨rest, hlog, hworking⟩ hanswered => ?_
    obtain ⟨rfl, now, rfl⟩ := hanswered
    exact ⟨now, rest, rfl, congrArg _ hlog, hworking⟩
  refine hclock.bind (fun now => ?_) fun error view ⟨_, _, herror, _⟩ => by cases herror
  rw [addSeconds]
  split
  · rename_i expiresAt hafter
    refine .ret fun view ⟨other, rest, hother, hlog, hworking⟩ => ?_
    obtain rfl := Except.ok.inj hother
    have hgranted := hworking.grant refreshToken hafter
    rw [← hlog] at hgranted
    exact hgranted
  · rename_i hafter
    refine .raise fun view ⟨other, rest, hother, hlog, hworking⟩ => ?_
    obtain rfl := Except.ok.inj hother
    refine ⟨fun character => ?_, hworking.stored,
      Or.inr ⟨.refreshToken refreshToken, token, now, ?_, hafter⟩⟩
    · rw [hlog, read_cons (by simp), read_cons (by simp)]
      exact hworking.read character
    · rw [hlog]
      exact ⟨[], rest, rfl⟩

/-- What SSO has answered, before the refusals are caught. -/
def Asked (characterId : ℤ) (document : CharacterDocument)
    (held : String → TokenResponse → Prop) (refreshToken : String) :
    Except AuthError TokenResponse → View → Prop
  | .ok token => Refreshed characterId document held refreshToken (.ok (some token))
  | .error error => if error = .httpStatus 400 ∨ error = .httpStatus 401 then
      Working characterId document held else Broken characterId document

theorem triple_requestToken (refreshToken : String) :
    RequestTriple thread session characterId (Working characterId document held)
      (await (.requestToken (.refreshToken refreshToken)))
      (Asked characterId document held refreshToken) := by
  refine requestTriple_await fun view stored answer hworking hstored => ?_
  obtain rfl : stored = view.stored := hstored
  -- the request is not a read
  have hread : ∀ other, Read (⟨.requestToken (.refreshToken refreshToken), answer⟩ :: view.log)
      characterId other ↔ other = document :=
    fun other => (read_cons (by simp) other).trans (hworking.read other)
  cases answer with
  | ok token => exact ⟨view.log, rfl, hworking⟩
  | error error =>
      -- a refusal is an answer, and anything else is raised
      rw [Asked]
      split_ifs with hrefused
      · refine ⟨hread, hworking.stored, not_failed_cons hworking.sound ?_, fun htimeless => ?_,
          fun other granted hmem => ?_, by simp⟩
        · rintro form other heq
          cases heq
          exact hrefused
        · rcases timeless_cons htimeless with hold | ⟨_, _, _, _, hcall, _⟩
          · exact hworking.timed hold
          · cases hcall
        · rcases List.mem_cons.mp hmem with heq | hmem
          · cases heq
          · exact hworking.held other granted hmem
      · exact ⟨hread, hworking.stored,
          Or.inl ⟨_, error, List.mem_cons_self .., not_or.mp hrefused⟩⟩

theorem triple_refreshAccessToken (refreshToken : String) :
    RequestTriple thread session characterId (Working characterId document held)
      (refreshAccessToken refreshToken) (Refreshed characterId document held refreshToken) := by
  have hasked : RequestTriple thread session characterId (Working characterId document held)
      (await (.requestToken (.refreshToken refreshToken)) >>= fun token => return some token)
      (fun outcome => match outcome with
        | .ok token => Refreshed characterId document held refreshToken (.ok token)
        | .error error => Asked characterId document held refreshToken (.error error)) := by
    refine (triple_requestToken refreshToken).bind (fun token => ?_) fun error view hview => hview
    exact .ret fun view hview => hview
  refine hasked.tryCatch (fun token view hview => hview) fun error => ?_
  simp only [Asked]
  split
  · exact .ret fun view hview => hview
  · exact .raise fun view hview => hview

/-- What `refreshCorp` has found to be written. -/
def CorpAsked (characterId : ℤ) (document : CharacterDocument)
    (held : String → TokenResponse → Prop) (corpRefreshToken : Option String) :
    Except AuthError (List Assignment) → View → Prop
  | .ok corp => fun view => CorpForm corp ∧ Working characterId document (fun refreshToken token =>
      held refreshToken token ∨ corpRefreshToken = some refreshToken ∧
        ∃ expiresAt, corp = corpUpdates token expiresAt) view
  | .error _ => Broken characterId document

theorem triple_refreshCorp (current : CharacterDocument) :
    RequestTriple thread session characterId (Working characterId document held)
      (refreshCorp current) (CorpAsked characterId document held current.corpRefreshToken) := by
  have hleft : ∀ {corp view}, CorpForm corp → Working characterId document held view →
      CorpAsked characterId document held current.corpRefreshToken (.ok corp) view :=
    fun hform hworking => ⟨hform, hworking.mono fun _ _ => Or.inl⟩
  unfold refreshCorp
  split
  · rename_i corpRefreshToken corpAccessTokenExpiresAt hcorp hexpires
    refine triple_utcnow.bind (fun now => ?_) fun error view hfalse => hfalse.elim
    split
    · refine (triple_refreshAccessToken corpRefreshToken).bind (fun token => ?_)
        fun error view hbroken => hbroken
      cases token with
      | none => exact .ret fun view hworking => hleft .refused hworking
      | some corpToken =>
          refine (triple_expiresAt corpRefreshToken corpToken).bind (fun expiresAt => ?_)
            fun error view hbroken => hbroken
          refine .ret fun view hworking => ⟨.refreshed corpToken expiresAt, hworking.mono ?_⟩
          rintro refreshToken token (hold | ⟨rfl, rfl⟩)
          · exact Or.inl hold
          · exact Or.inr ⟨hcorp, expiresAt, rfl⟩
    · exact .ret fun view hworking => hleft .none hworking
  · exact .ret fun view hworking => hleft .none hworking

/-! ### The write -/

/-- The request has read the document; what it returns has been stored as `kept`, which has
whatever was granted. -/
structure Finished (characterId : ℤ) (result kept : CharacterDocument) (view : View) :
    Prop where
  stored : view.stored = some kept
  same : kept.kept = result.kept
  sound : ¬ Failed view.log
  timed : ¬ Timeless view.log
  held : ∀ refreshToken token, Granted view.log refreshToken token →
    ∃ document, Read view.log characterId document ∧ Holds document kept refreshToken token

/-- What a write that is about to be made has for what has been granted. -/
def ToBeHeld (document : CharacterDocument) (base corp : List Assignment) (refreshToken : String)
    (token : TokenResponse) : Prop :=
  (refreshToken = document.refreshToken ∧ ∃ expiresAt, base = baseUpdates token expiresAt) ∨
    document.corpRefreshToken = some refreshToken ∧
      ∃ expiresAt, corp = corpUpdates token expiresAt

theorem holds_update {base corp : List Assignment} {now : ℤ} {refreshToken : String}
    {token : TokenResponse} (hcorp : CorpForm corp)
    (hbase : BaseForm base) (hheld : ToBeHeld document base corp refreshToken token) :
    Holds document
      (document.update ((base ++ corp ++ [Assignment.updatedAt now]).map Assignment.kept))
      refreshToken token := by
  rcases hheld with ⟨rfl, expiresAt, rfl⟩ | ⟨htoken, expiresAt, rfl⟩
  · refine Or.inl ⟨rfl, ?_⟩
    cases hcorp <;>
      simp [CharacterDocument.HoldsBase, baseUpdates, corpUpdates, refusedUpdates,
        CharacterDocument.assign, Assignment.kept]
  · refine Or.inr ⟨htoken, ?_⟩
    cases hbase <;>
      simp [CharacterDocument.HoldsCorp, baseUpdates, corpUpdates, CharacterDocument.assign,
        Assignment.kept]

theorem triple_writeBack {base corp : List Assignment} (hbase : BaseForm base)
    (hcorp : CorpForm corp) :
    RequestTriple thread session characterId
      (Working characterId document (ToBeHeld document base corp))
      (writeBack characterId document (base ++ corp))
      (Returning fun result view => ∃ kept, Finished characterId result kept view) := by
  rw [writeBack]
  split
  · rename_i hempty
    -- no update: then nothing has been granted
    obtain ⟨rfl, rfl⟩ := List.append_eq_nil_iff.mp hempty
    refine .ret fun view hworking => ⟨document, hworking.stored, rfl, hworking.sound,
      hworking.timed, ?_⟩
    intro refreshToken token hmem
    rcases hworking.held refreshToken token hmem with ⟨_, expiresAt, hnil⟩ | ⟨_, expiresAt, hnil⟩
    · cases hnil
    · cases hnil
  · refine triple_utcnow.bind (fun now => ?_) fun error view hfalse => hfalse.elim
    -- the one write holds what has been granted
    have hwrite : RequestTriple thread session characterId
        (Working characterId document (ToBeHeld document base corp))
        (await (.updateCharacter characterId (base ++ corp ++ [.updatedAt now]) none))
        (Returning fun _ view => ∃ kept,
          Finished characterId (document.update (base ++ corp ++ [.updatedAt now])) kept
            view) := by
      refine requestTriple_await fun view stored answer hworking hanswered => ?_
      obtain ⟨hstored, hanswer⟩ := hanswered rfl
      subst hanswer
      have hcons : Working characterId document (ToBeHeld document base corp)
          ⟨⟨.updateCharacter characterId (base ++ corp ++ [.updatedAt now]) none, .ok ()⟩ ::
            view.log, view.stored⟩ := hworking.cons (by simp) (by simp)
      refine ⟨document.update ((base ++ corp ++ [Assignment.updatedAt now]).map
          Assignment.kept), ?_, CharacterDocument.kept_update_map_kept .., hcons.sound,
        hcons.timed, fun refreshToken token hmem => ?_⟩
      · rw [hstored, hworking.stored]
        rfl
      · exact ⟨document, (hcons.read document).mpr rfl,
          holds_update hcorp hbase (hcons.held refreshToken token hmem)⟩
    refine hwrite.bind (fun _ => ?_) fun error view hfalse => hfalse
    exact .ret fun view hfinished => hfinished

/-! ### The whole request -/

/-- **How the request ends.**  It has found nobody, and nothing was granted; or it returns
the document that it has stored; or it raises, and the document is the one it has read. -/
inductive Ended (characterId : ℤ) :
    Except AuthError (Option CharacterDocument) → View → Prop
  | nobody {view} (hnothing : ∀ refreshToken token, ¬ Granted view.log refreshToken token)
      (hsound : ¬ Failed view.log) : Ended characterId (.ok none) view
  | finished {result kept view} (hfinished : Finished characterId result kept view) :
      Ended characterId (.ok (some result)) view
  | broken {document error view} (hbroken : Broken characterId document view) :
      Ended characterId (.error error) view

/-- The read of the character. -/
theorem triple_findCharacter :
    RequestTriple thread session characterId (fun view => view.log = [])
      (await (.findCharacter characterId)) (fun outcome => match outcome with
        | .ok none => Ended characterId (.ok none)
        | .ok (some document) => Working characterId document fun _ _ => False
        | .error _ => fun _ => False) := by
  refine requestTriple_await fun view stored answer hnil hanswered => ?_
  obtain ⟨rfl, rfl⟩ := hanswered rfl
  rw [hnil]
  have hsound : ¬ Failed [⟨.findCharacter characterId, .ok view.stored⟩] := by
    rintro ⟨form, error, hmem, _⟩
    cases List.mem_singleton.mp hmem
  have hnothing : ∀ refreshToken token,
      ¬ Granted [⟨.findCharacter characterId, .ok view.stored⟩] refreshToken token := by
    intro refreshToken token hmem
    cases List.mem_singleton.mp hmem
  cases hfound : view.stored with
  | none => exact .nobody (hfound ▸ hnothing) (hfound ▸ hsound)
  | some document =>
      refine ⟨fun other => ?_, rfl, hfound ▸ hsound, ?_, fun refreshToken token hmem =>
        hnothing refreshToken token (hfound ▸ hmem), by simp⟩
      · simp [Read, eq_comm]
      · rintro ⟨form, token, now, hwithin, _⟩
        exact absurd hwithin.length_le (by simp)

theorem triple_currentCharacterOptional (hsession : session.characterId = some characterId) :
    RequestTriple thread session characterId (fun view => view.log = [])
      (currentCharacterOptional session)
      (fun outcome => Ended characterId (outcome.map Prod.fst)) := by
  -- the write and the return after it
  have hwriteBack : ∀ {document base corp}, BaseForm base → CorpForm corp →
      RequestTriple thread session characterId
        (Working characterId document (ToBeHeld document base corp))
        (writeBack characterId document (base ++ corp) >>= fun character =>
          (return (some character, session) : Code _))
        (fun outcome => Ended characterId (outcome.map Prod.fst)) := by
    intro document base corp hbase hcorp
    refine (triple_writeBack hbase hcorp).bind (fun result => ?_)
      fun error view hfalse => hfalse.elim
    exact .ret fun view ⟨_, hfinished⟩ => .finished hfinished
  unfold currentCharacterOptional
  rw [hsession]
  refine triple_findCharacter.bind (fun found => ?_) fun error view hfalse => hfalse.elim
  cases found with
  | none => exact .ret fun view hended => hended
  | some document =>
      refine triple_utcnow.bind (fun now => ?_) fun error view hfalse => hfalse.elim
      split
      · refine (triple_refreshAccessToken document.refreshToken).bind (fun token => ?_)
          fun error view hbroken => .broken hbroken
        cases token with
        | none => exact .ret fun view hworking => .nobody hworking.held hworking.sound
        | some token =>
            refine (triple_expiresAt document.refreshToken token).bind (fun expiresAt => ?_)
              fun error view hbroken => .broken hbroken
            refine (triple_refreshCorp _).bind (fun corp => ?_) fun error view hbroken =>
              .broken hbroken
            refine .assume fun hcorp => (hwriteBack (.refreshed token expiresAt) hcorp).consequence
              (fun view hworking => hworking.mono ?_) fun outcome view hended => hended
            rintro refreshToken other ((hfalse | ⟨rfl, rfl⟩) | hcorpHeld)
            · exact hfalse.elim
            · exact Or.inl ⟨rfl, expiresAt, rfl⟩
            · exact Or.inr hcorpHeld
      · refine (triple_refreshCorp document).bind (fun corp => ?_) fun error view hbroken =>
          .broken hbroken
        refine .assume fun hcorp => (hwriteBack .none hcorp).consequence
          (fun view hworking => hworking.mono ?_) fun outcome view hended => hended
        rintro refreshToken other (hfalse | hcorpHeld)
        · exact hfalse.elim
        · exact Or.inr hcorpHeld

/-- The character that a page shows. -/
def Reply.character? : Reply → Option CharacterDocument
  | ⟨_, .page character⟩ => character
  | _ => none

theorem triple_showPage (hsession : session.characterId = some characterId) :
    RequestTriple thread session characterId (fun view => view.log = []) (showPage session)
      (fun outcome => Ended characterId (outcome.map Reply.character?)) := by
  refine (triple_currentCharacterOptional hsession).bind (fun found => ?_) fun _ _ hended => hended
  exact .ret fun view hended => hended

/-- Another request does not change the character. -/
theorem characters_of_undisturbed {moment : AuthMoment} {caller : ℕ} {op : Op} {world : World}
    {answer : Except AuthError op.Answer} (hcaller : caller ≠ thread)
    (hanswers : Contract.Answers auth (undisturbed thread session characterId) caller op moment
      answer world) :
    world.characters characterId = moment.world.characters characterId := by
  obtain ⟨choice, hpolicy, hrespond⟩ := hanswers
  rcases characters_of_respond hrespond with ⟨⟨delivery, hdelivery, _⟩, heffect⟩ | ⟨_, hsame⟩
  · have hmeets := hpolicy delivery hdelivery
    rw [if_neg hcaller] at hmeets
    rw [heffect, hmeets]
  · rw [hsame]

/-- **The request keeps what it relies on**, and so do the others. -/
theorem keepsCharacter_kept (hsession : session.characterId = some characterId) :
    (keepsCharacter thread characterId).Kept auth (undisturbed thread session characterId)
      (fun number outcome moment => number = thread →
        Ended characterId (outcome.map Reply.character?)
          ((requestShare thread characterId).part moment)) where
  start moment start world _ hlog hstart henter := by
    obtain rfl := Option.some_inj.mp henter
    refine ⟨trivial, fun _ _ _ => rfl, ?_⟩
    rcases eq_or_ne moment.starts.length thread with rfl | hne
    · obtain rfl := hstart rfl
      refine (triple_showPage hsession (moment.enter _ _) trivial trivial hlog).mono ?_
      exact fun outcome later _ ⟨_, hended⟩ _ => hended
    · refine .of_answers (fun later op answer world _ hanswers => ⟨trivial, ?_⟩)
        fun outcome later _ heq => absurd heq hne
      exact fun other _ _ => characters_of_undisturbed hne hanswers
  crash moment number _ _ _ := ⟨trivial, fun _ _ _ => rfl⟩
  tick moment tick world _ _ htick := by
    cases tick with
    | revoke refreshToken =>
        obtain rfl := Option.some_inj.mp htick
        exact ⟨trivial, fun _ _ => rfl⟩

/-- Whatever was granted to the request is stored, and the document that it returns is
the stored one, as far as the database keeps it. -/
structure PairsStored (characterId : ℤ) (config : AuthConfig) (thread : ℕ)
    (outcome : Except AuthError Reply) : Prop where
  granted : ∀ refreshToken token, Granted (config.moment.logOf thread) refreshToken token →
    ∃ document stored, Read (config.moment.logOf thread) characterId document ∧
      config.moment.world.characters characterId = some stored ∧
      Holds document stored refreshToken token
  returned : ∀ session document, outcome = .ok ⟨session, .page (some document)⟩ →
    ∃ stored, config.moment.world.characters characterId = some stored ∧
      stored.kept = document.kept

end Request

/-- **No granted token is lost** exactly if SSO does not fail on one token after it has
granted the other, and every granted token has a time at which it expires, or the stored
document has the granted one already. -/
theorem pairs_stored_iff {world : World} {config : AuthConfig} {thread : ℕ} {session : Session}
    {characterId : ℤ} (hreaches : auth.Reaches (undisturbed thread session characterId)
      (Config.initial _ _ _ _ world) config)
    (hsession : session.characterId = some characterId) {program : Code Reply}
    {outcome : Except AuthError Reply} (hthread : config.threads thread = some program)
    (houtcome : program.outcome? = some outcome) :
    PairsStored characterId config thread outcome ↔
      ∀ document refreshToken token, Read (config.moment.logOf thread) characterId document →
        Granted (config.moment.logOf thread) refreshToken token →
        Failed (config.moment.logOf thread) ∨ Timeless (config.moment.logOf thread) →
        Holds document document refreshToken token := by
  have hgood := (keepsCharacter_kept hsession).reaches (Contract.Good.initial trivial) hreaches
  have hended := hgood.outcome hthread houtcome rfl
  have hshown : ∀ session document, outcome = .ok ⟨session, .page (some document)⟩ →
      outcome.map Reply.character? = .ok (some document) := by
    rintro session document rfl
    rfl
  change Ended characterId (outcome.map Reply.character?)
    ⟨config.moment.logOf thread, config.moment.world.characters characterId⟩ at hended
  generalize outcome.map Reply.character? = shown at hended hshown
  cases hended with
  | nobody hnothing hsound =>
      -- nothing has been granted
      refine ⟨fun _ document refreshToken token _ hgranted _ => absurd hgranted (hnothing _ _),
        fun _ => ⟨fun refreshToken token hgranted => absurd hgranted (hnothing _ _), ?_⟩⟩
      intro session document hreturned
      cases hshown session document hreturned
  | @finished result kept _ hfinished =>
      -- nothing has failed, and all that was granted is stored
      refine ⟨fun _ document refreshToken token _ _ hfailed => ?_,
        fun _ => ⟨fun refreshToken token hgranted => ?_, fun session document hreturned => ?_⟩⟩
      · exact hfailed.elim (absurd · hfinished.sound) (absurd · hfinished.timed)
      · obtain ⟨document, hread, hholds⟩ := hfinished.held refreshToken token hgranted
        exact ⟨document, kept, hread, hfinished.stored, hholds⟩
      · cases hshown session document hreturned
        exact ⟨kept, hfinished.stored, hfinished.same⟩
  | @broken document _ _ hbroken =>
      -- the request has raised, and the document is as it was read
      constructor
      · intro hstored other refreshToken token hread hgranted _
        obtain ⟨document', stored, hread', hcharacter, hholds⟩ :=
          hstored.granted refreshToken token hgranted
        obtain rfl := Option.some_inj.mp (hcharacter.symm.trans hbroken.stored)
        obtain rfl := (hbroken.read other).mp hread
        obtain rfl := (hbroken.read document').mp hread'
        exact hholds
      · intro hcondition
        refine ⟨fun refreshToken token hgranted => ?_, fun session shown hreturned => ?_⟩
        · have hread := (hbroken.read document).mpr rfl
          exact ⟨document, document, hread, hbroken.stored,
            hcondition document refreshToken token hread hgranted hbroken.failed⟩
        · cases hshown session shown hreturned

/-! ## Two page views with both tokens expired -/

def expiredDocument : CharacterDocument where
  characterId := 1
  characterName := "Pilot"
  ownerHash := "owner"
  scopes := []
  accessToken := "access"
  refreshToken := "refresh"
  accessTokenExpiresAt := 0
  createdAt := 0
  updatedAt := 0
  corporationId := some 98
  corpScopes := some []
  corpAccessToken := some "corp access"
  corpRefreshToken := some "corp refresh"
  corpAccessTokenExpiresAt := some 0

def expiredStart : AuthConfig :=
  Config.initial _ _ _ _ ⟨fun _ => some expiredDocument, ["refresh", "corp refresh"], []⟩

def expiredAfter (events : List AuthEvent) : AuthConfig :=
  (auth.run expiredStart events).getD expiredStart

/-- A page view gets a new base token and is about to ask for a corporation token. -/
def baseGrantedEvents : List AuthEvent :=
  [.start (.page sampleSession), .call 0 (.database .done), .call 0 (.utcnow 1000123),
    .call 0 (.token (.ok ⟨"access 2", "refresh 2", 1200⟩) true), .call 0 (.utcnow 1000123),
    .call 0 (.utcnow 1000123)]

/-- SSO cannot be reached for the corporation token. -/
def networkEvents : List AuthEvent :=
  baseGrantedEvents ++ [.call 0 (.token (.error .network) false)]

/-- SSO refuses the corporation token. -/
def refusedEvents : List AuthEvent :=
  baseGrantedEvents ++ [.call 0 (.token (.error (.httpStatus 400)) false), .call 0 (.utcnow 1000123),
    .call 0 (.database .done)]

/-- An event of the one request, whose database calls succeed. -/
def Alone : AuthEvent → Bool
  | .start (.page session) => session = sampleSession
  | .call 0 (.database delivery) => delivery = .done
  | .call 0 _ => true
  | _ => false

theorem meets_of_alone {event : AuthEvent} (hevent : Alone event) (config : AuthConfig) :
    (undisturbed 0 sampleSession 1).Meets config event := by
  cases event with
  | start start =>
      cases start with
      | page session => exact fun _ => congrArg Start.page (of_decide_eq_true hevent)
      | _ => cases hevent
  | call thread choice =>
      cases thread with
      | zero =>
          rintro op next _ delivery rfl
          exact of_decide_eq_true hevent
      | succ thread => cases choice <;> cases hevent
  | crash thread => cases hevent
  | tick tick => cases hevent

theorem reaches_expiredAfter (events : List AuthEvent)
    (hrun : auth.run expiredStart events = some (expiredAfter events))
    (hevents : events.all Alone) :
    auth.Reaches (undisturbed 0 sampleSession 1) expiredStart (expiredAfter events) :=
  System.reaches_of_run hrun fun event hevent config =>
    meets_of_alone (List.all_eq_true.mp hevents event hevent) config

/-- **A granted token is lost.**  SSO grants a new base token and cannot be reached for the
corporation token: the request raises, and the old base token is stored. -/
theorem granted_token_lost :
    auth.Reaches (undisturbed 0 sampleSession 1) expiredStart (expiredAfter networkEvents) ∧
    (expiredAfter networkEvents).threads 0 = some (.raise .network) ∧
    ¬ PairsStored 1 (expiredAfter networkEvents) 0 (.error .network) := by
  refine ⟨reaches_expiredAfter _ rfl (by decide), rfl, fun hstored => ?_⟩
  have hgranted : Granted ((expiredAfter networkEvents).moment.logOf 0) "refresh"
      ⟨"access 2", "refresh 2", 1200⟩ :=
    .tail _ (.tail _ (.tail _ (.head _)))
  obtain ⟨document, stored, _, hcharacter, hholds⟩ := hstored.granted _ _ hgranted
  obtain rfl : expiredDocument = stored := Option.some_inj.mp hcharacter
  rcases hholds with ⟨_, hbase⟩ | ⟨_, hcorp⟩
  · exact absurd hbase.1 (by decide)
  · exact absurd hcorp.1 (by decide)

/-- A call is no failure of SSO. -/
def Unfailed : Call signature AuthError → Bool
  | ⟨.requestToken _, .error error⟩ => error = .httpStatus 400 ∨ error = .httpStatus 401
  | _ => true

theorem not_failed {log : AuthLog} (hlog : log.all Unfailed) : ¬ Failed log := by
  rintro ⟨form, error, hmem, hbad, hunauthorized⟩
  rcases of_decide_eq_true (List.all_eq_true.mp hlog _ hmem) with hrefused | hrefused
  · exact hbad hrefused
  · exact hunauthorized hrefused

/-- Every granted token of the log expires at a time, whenever the clock was read. -/
def allTimed (log : AuthLog) : Bool :=
  log.all fun call => match call with
    | ⟨.requestToken _, .ok token⟩ => log.all fun other => match other with
      | ⟨.utcnow, .ok now⟩ => (token.expiresIn.after? now).isSome
      | _ => true
    | _ => true

theorem not_timeless {log : AuthLog} (hlog : allTimed log) : ¬ Timeless log := by
  rintro ⟨form, token, now, hwithin, hnone⟩
  have hgranted := List.all_eq_true.mp hlog _
    (hwithin.subset (List.mem_cons_of_mem _ (List.mem_singleton_self _)))
  have hsome : (token.expiresIn.after? now).isSome :=
    List.all_eq_true.mp hgranted _ (hwithin.subset (List.mem_cons_self ..))
  rw [hnone] at hsome
  cases hsome

/-- The refusal of the corporation token loses nothing, but the microseconds of the times. -/
theorem pairs_stored_refused : ∃ document,
    (expiredAfter refusedEvents).threads 0 =
      some (.ret ⟨sampleSession, .page (some document)⟩) ∧
    (expiredAfter refusedEvents).moment.world.characters 1 ≠ some document ∧
    PairsStored 1 (expiredAfter refusedEvents) 0
      (.ok ⟨sampleSession, .page (some document)⟩) := by
  refine ⟨_, rfl, by decide, ?_⟩
  refine (pairs_stored_iff (reaches_expiredAfter _ rfl (by decide)) rfl rfl rfl).mpr ?_
  exact fun _ _ _ _ _ hfailed => absurd hfailed (not_or.mpr ⟨not_failed rfl, not_timeless rfl⟩)

end EveBuild.Auth
