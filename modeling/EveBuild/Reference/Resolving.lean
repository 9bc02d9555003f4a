import EveBuild.Reference.Lookups

/-!
# Lookups that go on with ESI

What the two stores do not have, a lookup asks ESI for, one identifier after the other, and
keeps what it is answered if that is a value (`safe_keep`).  Each value that a resolver
returns is ESI's; only where it has asked itself, and has got no value, it is `None`
(`Settled`).  It asks for nothing twice, and for nothing that MongoDB has held
(`safe_resolve`).
-/

namespace EveBuild.Reference

open Effect

section Resolving

variable (esi : Path → ℤ → Document)

/-- What a lookup has made of an identifier: ESI's value, for which it has asked if it is
`None`, or `None` because its own request has failed. -/
def Settled (resolver : Resolver) (log : ReferenceLog) (id : ℤ) (value : Value) : Prop :=
  (value = resolver.truth esi id ∧ (resolver.isResolved value = true ∨
    ⟨.inr (.get (resolver.path id) id (resolver.accessToken id)),
      .ok (esi (resolver.path id) id)⟩ ∈ log)) ∨
  (value = resolver.failed ∧ ∃ statusCode,
    ⟨.inr (.get (resolver.path id) id (resolver.accessToken id)),
      .error (.inr (.httpStatus statusCode))⟩ ∈ log)

/-- A value for each of the identifiers. -/
structure Resolved (resolver : Resolver) (ids : List ℤ) (log : ReferenceLog)
    (found : Dict ℤ Value) : Prop where
  keys : ∀ id, id ∈ found.keys ↔ id ∈ ids
  settled : ∀ id value, found.get? id = some value → Settled esi resolver log id value

variable {esi} {sde : Collections} {float : Number → Number} {tracked : Kind → Prop}
  {redis : Bool} {ttlSeconds : ℕ} {thread : ℕ} {start : Start} {began : Collections}
  {log : ReferenceLog} {moment : ReferenceMoment} {resolver : Resolver} {id : ℤ} {value : Value}

theorem Settled.mono {more : ReferenceLog} (hsettled : Settled esi resolver log id value)
    (hmore : log ⊆ more) : Settled esi resolver more id value :=
  hsettled.imp (And.imp_right (Or.imp_right fun hcall => hmore hcall))
    (And.imp_right fun ⟨statusCode, hcall⟩ => ⟨statusCode, hmore hcall⟩)

/-- A value that is kept is ESI's. -/
theorem Settled.eq_truth (hsettled : Settled esi resolver log id value)
    (hlawful : resolver.Lawful sde esi float) (hresolved : resolver.isResolved value = true) :
    value = resolver.truth esi id := by
  rcases hsettled with ⟨htruth, _⟩ | ⟨rfl, _⟩
  · exact htruth
  · cases hlawful.failed.symm.trans hresolved

/-! ## One identifier -/

theorem respond_get {path : Path} {accessToken : Option String} {choice : Choice}
    {world after : World} {answer : Except ReferenceError Document}
    (hrespond : respond esi (.inr (.get path id accessToken)) choice world =
      some (answer, after)) :
    answer = .ok (esi path id) ∨ (∃ statusCode, answer = .error (.inr (.httpStatus statusCode))) ∨
      answer = .error (.inr .network) := by
  cases choice with
  | inl choice => cases hrespond
  | inr choice =>
      cases choice with
      | esi outcome =>
          cases outcome with
          | answered =>
              cases hrespond
              exact Or.inl rfl
          | status statusCode =>
              cases hrespond
              exact Or.inr (Or.inl ⟨statusCode, rfl⟩)
          | unreachable =>
              cases hrespond
              exact Or.inr (Or.inr rfl)
      | _ => cases hrespond

/-- **Asking ESI** for what has not been asked for, and was not in MongoDB. -/
theorem safe_ask (hstage : Stage thread start began log moment)
    (hpath : start.askedBy (resolver.path id) = some resolver.kind)
    (hnew : (some resolver.kind, id) ∉ asked start log)
    (hunheld : ¬ began.Holds resolver.kind id) :
    (contract sde esi float tracked).Safe (looking esi redis ttlSeconds float)
      (lookingUp tracked) thread (resolver.ask id)
      (fun outcome later => ∃ own, Stage thread start began (own ++ log) later ∧
        asked start own = [(some resolver.kind, id)] ∧
        (∀ value, outcome = .ok value → Settled esi resolver own id value) ∧
        ∀ error, outcome = .error error → error = .inr .network) moment := by
  have hasked : ∀ answer, asked start
      [⟨.inr (.get (resolver.path id) id (resolver.accessToken id)), answer⟩] =
        [(some resolver.kind, id)] := by
    intro answer
    rw [← hpath]
    rfl
  refine safe_call hstage (fun _ _ _ _ => trivial) (fun hasks answer => ?_)
    fun before choice answer world _ _ _ hrespond _ _ hafter => ?_
  · -- the first request for the identifier
    have hcons := (asked_append [_] log).trans (congrArg (· ++ asked start log) (hasked answer))
    refine ⟨?_, ?_⟩
    · rw [show asked start (_ :: log) = _ from hcons]
      exact List.nodup_cons.mpr ⟨hnew, hasks.nodup⟩
    · rw [show asked start (_ :: log) = _ from hcons]
      exact List.forall_mem_cons.mpr ⟨⟨_, rfl, hunheld⟩, hasks.unheld⟩
  · -- ESI answers, refuses, or cannot be reached
    rcases respond_get hrespond with rfl | ⟨statusCode, rfl⟩ | rfl
    · refine safe_ret hafter fun later _ hlater _ => ⟨[_], hlater, hasked _, ?_, nofun⟩
      intro value hvalue
      obtain rfl := Except.ok.inj hvalue
      exact Or.inl ⟨rfl, Or.inr (List.mem_singleton_self _)⟩
    · refine safe_ret hafter fun later _ hlater _ => ⟨[_], hlater, hasked _, ?_, nofun⟩
      intro value hvalue
      obtain rfl := Except.ok.inj hvalue
      exact Or.inr ⟨rfl, statusCode, List.mem_singleton_self _⟩
    · refine safe_raise hafter fun later _ hlater _ => ⟨[_], hlater, hasked _, nofun, ?_⟩
      intro error herror
      exact (Except.error.inj herror).symm

/-- An update is made, or fails. -/
theorem respond_upsert {collectionName : String} {fields : List (String × Value)}
    {choice : Choice} {world after : World} {answer : Except ReferenceError Unit}
    (hrespond : respond esi (.inr (.upsert collectionName id fields)) choice world =
      some (answer, after)) :
    (answer = .ok () ∧ after.documents collectionName id ≠ none) ∨
      answer = .error (.inr .database) := by
  cases choice with
  | inl choice => cases hrespond
  | inr choice =>
      cases choice with
      | database delivery =>
          cases delivery with
          | done =>
              cases hrespond
              refine Or.inl ⟨rfl, ?_⟩
              have hheld := upsert_documents world collectionName collectionName id id fields
              rw [if_pos ⟨rfl, rfl⟩] at hheld
              exact fun hnone => by cases hheld.symm.trans hnone
          | error carriedOut =>
              cases hrespond
              exact Or.inr rfl
      | _ => cases hrespond

/-- The time is told. -/
theorem safe_stamp (hstage : Stage thread start began log moment) :
    (contract sde esi float tracked).Safe (looking esi redis ttlSeconds float)
      (lookingUp tracked) thread resolver.stamp
      (fun outcome later => ∃ own stamp, outcome = .ok stamp ∧ IsStamp stamp ∧
        Stage thread start began (own ++ log) later ∧ asked start own = []) moment := by
  unfold Resolver.stamp
  split_ifs
  · refine safe_call hstage (fun _ _ _ _ => trivial) (fun hasks => asksOnce_cons not_false hasks)
      fun before choice answer world _ _ _ hrespond _ _ hafter => ?_
    obtain ⟨now, rfl⟩ : ∃ now, answer = .ok now := by
      rcases choice with choice | choice
      · cases hrespond
      · cases choice <;> cases hrespond
        exact ⟨_, rfl⟩
    exact safe_ret hafter fun later _ hlater _ =>
      ⟨[_], _, rfl, Or.inr ⟨now, rfl⟩, hlater, rfl⟩
  · exact safe_ret hstage fun later _ hlater _ => ⟨[], [], rfl, Or.inl rfl, hlater, rfl⟩

/-- **Keeping a value** of ESI, first in MongoDB and then in Redis. -/
theorem safe_keep (hkept : Kept sde esi float tracked moment)
    (hstage : Stage thread start began log moment) (hlawful : resolver.Lawful sde esi float)
    (hvalue : resolver.isResolved value = true → value = resolver.truth esi id) :
    (contract sde esi float tracked).Safe (looking esi redis ttlSeconds float)
      (lookingUp tracked) thread (resolver.keep redis ttlSeconds id value)
      (fun outcome later => ∃ own, Stage thread start began (own ++ log) later ∧
        asked start own = [] ∧ ∀ error, outcome = .error error → error = .inr .database)
      moment := by
  unfold Resolver.keep
  split_ifs with hresolved
  · obtain rfl := hvalue hresolved
    refine (safe_stamp hstage).bind hkept ?_ ?_
    · rintro stamp later hlater ⟨timed, _, heq, hstamp, hstaged, hquiet⟩
      obtain rfl := Except.ok.inj heq
      refine safe_call hstaged (fun _ _ _ _ => ?_) (fun hasks => asksOnce_cons not_false hasks)
        fun before choice answer world _ _ _ hrespond _ hafterKept hafter => ?_
      · exact ⟨resolver, _, hlawful, hstamp, rfl, hresolved, rfl⟩
      have hwritten : asked start (⟨.inr (.upsert resolver.kind.store.collectionName id
          (resolver.fields (resolver.truth esi id) ++ stamp)), answer⟩ :: timed) = [] := by
        rw [asked_cons_of_not_gets, hquiet]
        exact not_false
      rw [← List.cons_append] at hafter
      rcases respond_upsert hrespond with ⟨rfl, hheld⟩ | rfl
      · show (contract sde esi float tracked).Safe _ _ thread (onCache _) _ _
        refine (safe_setManyCached hafter ?_).mono ?_
        · -- what is written to Redis, MongoDB holds by now
          refine List.forall_mem_singleton.mpr ⟨resolver.kind, id, rfl, ?_, hheld⟩
          rw [hlawful.source, Resolver.kept, if_pos hresolved]
        · rintro outcome final _ ⟨own, rfl, hfinal, hnone⟩
          rw [← List.append_assoc] at hfinal
          refine ⟨_, hfinal, ?_, fun _ herror => by cases herror⟩
          rw [asked_append, hnone, hwritten]
          rfl
      · -- MongoDB has failed, and nothing is written to Redis
        refine safe_raise hafter fun final _ hfinal _ => ⟨_, hfinal, hwritten, ?_⟩
        exact fun error herror => (Except.error.inj herror).symm
    · rintro error later _ ⟨_, _, heq, _⟩
      cases heq
  · -- a value that is not resolved is not kept
    exact safe_ret hstage fun later _ hlater _ =>
      ⟨[], hlater, rfl, fun _ herror => by cases herror⟩

/-- What a lookup that goes on with ESI can raise. -/
def OfServers (error : ReferenceError) : Prop :=
  error = .inr .network ∨ error = .inr .database

/-- **One identifier**: ESI is asked for it, and what it answers is kept. -/
theorem safe_askAndKeep (hkept : Kept sde esi float tracked moment)
    (hstage : Stage thread start began log moment) (hlawful : resolver.Lawful sde esi float)
    (hpath : start.askedBy (resolver.path id) = some resolver.kind)
    (hnew : (some resolver.kind, id) ∉ asked start log)
    (hunheld : ¬ began.Holds resolver.kind id) :
    (contract sde esi float tracked).Safe (looking esi redis ttlSeconds float)
      (lookingUp tracked) thread
      (resolver.ask id >>= fun value =>
        resolver.keep redis ttlSeconds id value >>= fun _ => return value)
      (fun outcome later => ∃ own, Stage thread start began (own ++ log) later ∧
        asked start own = [(some resolver.kind, id)] ∧
        (∀ value, outcome = .ok value → Settled esi resolver own id value) ∧
        ∀ error, outcome = .error error → OfServers error) moment := by
  refine (safe_ask hstage hpath hnew hunheld).bind hkept ?_ ?_
  · rintro value later hlater ⟨asking, hasking, hone, hsettled, _⟩
    have hvalue := hsettled value rfl
    -- keeping asks for nothing
    have hasked : ∀ keeping, asked start keeping = [] →
        asked start (keeping ++ asking) = [(some resolver.kind, id)] := by
      intro keeping hquiet
      rw [asked_append, hquiet, hone]
      rfl
    refine (safe_keep hlater hasking hlawful fun hkeep =>
      hvalue.eq_truth hlawful hkeep).bind hlater ?_ ?_
    · rintro _ final _ ⟨keeping, hkeeping, hquiet, _⟩
      rw [← List.append_assoc] at hkeeping
      refine safe_ret hkeeping fun last _ hlast _ => ⟨_, hlast, hasked keeping hquiet, ?_, nofun⟩
      intro other hother
      obtain rfl := Except.ok.inj hother
      exact hvalue.mono (List.subset_append_right _ _)
    · rintro error final _ ⟨keeping, hkeeping, hquiet, hdatabase⟩
      rw [← List.append_assoc] at hkeeping
      refine ⟨_, hkeeping, hasked keeping hquiet, nofun, fun other hother => Or.inr ?_⟩
      exact Except.error.inj hother ▸ hdatabase error rfl
  · rintro error later _ ⟨asking, hasking, hone, _, hnetwork⟩
    refine ⟨asking, hasking, hone, nofun, fun other hother => Or.inl ?_⟩
    exact Except.error.inj hother ▸ hnetwork error rfl

/-! ## All identifiers -/

theorem resolveEach_cons (ids : List ℤ) (resolved : Dict ℤ Value) :
    resolver.resolveEach redis ttlSeconds (id :: ids) resolved =
      (resolver.ask id >>= fun value =>
        resolver.keep redis ttlSeconds id value >>= fun _ => return value) >>= fun value =>
          resolver.resolveEach redis ttlSeconds ids (resolved.set id value) := by
  rw [Program.bind_assoc]
  refine congrArg (resolver.ask id >>= ·) (funext fun value => ?_)
  rw [Program.bind_assoc]
  rfl

/-- **The loop**, over identifiers that have not been asked for. -/
theorem safe_resolveEach (hlawful : resolver.Lawful sde esi float)
    (hpath : ∀ id, start.askedBy (resolver.path id) = some resolver.kind) {ids : List ℤ}
    {resolved : Dict ℤ Value} (hkept : Kept sde esi float tracked moment)
    (hstage : Stage thread start began log moment) (hnodup : ids.Nodup)
    (hids : ∀ id ∈ ids, (some resolver.kind, id) ∉ asked start log ∧
      ¬ began.Holds resolver.kind id)
    (hresolved : ∀ id value, resolved.get? id = some value →
      Settled esi resolver log id value) :
    (contract sde esi float tracked).Safe (looking esi redis ttlSeconds float)
      (lookingUp tracked) thread (resolver.resolveEach redis ttlSeconds ids resolved)
      (fun outcome later => ∃ own, Stage thread start began (own ++ log) later ∧
        (∀ pair ∈ asked start own, pair.1 = some resolver.kind) ∧
        (∀ found, outcome = .ok found →
          (∀ id, id ∈ found.keys ↔ id ∈ resolved.keys ∨ id ∈ ids) ∧
          ∀ id value, found.get? id = some value → Settled esi resolver (own ++ log) id value) ∧
        ∀ error, outcome = .error error → OfServers error) moment := by
  induction ids generalizing resolved log moment with
  | nil =>
      refine safe_ret hstage fun later _ hlater _ =>
        ⟨[], hlater, List.forall_mem_nil _, fun found hfound => ?_, nofun⟩
      obtain rfl := Except.ok.inj hfound
      exact ⟨fun id => by simp, hresolved⟩
  | cons id ids ih =>
      obtain ⟨⟨hnew, hunheld⟩, hothers⟩ := List.forall_mem_cons.mp hids
      obtain ⟨hfirst, hrest⟩ := List.nodup_cons.mp hnodup
      rw [resolveEach_cons]
      refine (safe_askAndKeep hkept hstage hlawful (hpath id) hnew hunheld).bind hkept ?_ ?_
      · rintro value later hlater ⟨asking, hasking, hone, hsettled, _⟩
        refine (ih hlater hasking hrest (fun other hother => ?_) fun other held hheld => ?_).mono ?_
        · -- the other identifiers are still not asked for
          obtain ⟨hotherNew, hotherUnheld⟩ := hothers other hother
          refine ⟨?_, hotherUnheld⟩
          rw [asked_append, hone, List.singleton_append, List.mem_cons, not_or]
          refine ⟨fun heq => hfirst ?_, hotherNew⟩
          exact (Prod.mk.inj heq).2 ▸ hother
        · rw [Dict.get?_set] at hheld
          split_ifs at hheld with heq
          · obtain rfl := Option.some.inj hheld
            exact heq ▸ (hsettled value rfl).mono (List.subset_append_left _ _)
          · exact (hresolved other held hheld).mono (List.subset_append_right _ _)
        · rintro outcome last _ ⟨own, hlast, hkinds, hfound, herrors⟩
          rw [← List.append_assoc] at hlast
          refine ⟨_, hlast, ?_, fun found heq => ?_, herrors⟩
          · rw [asked_append, hone]
            exact List.forall_mem_append.mpr ⟨hkinds, List.forall_mem_singleton.mpr rfl⟩
          · obtain ⟨hkeys, hvalues⟩ := hfound found heq
            rw [← List.append_assoc] at hvalues
            refine ⟨fun other => ?_, hvalues⟩
            rw [hkeys, Dict.mem_keys_set, List.mem_cons]
            tauto
      · rintro error later _ ⟨asking, hasking, hone, _, herrors⟩
        refine ⟨asking, hasking, ?_, nofun, fun other hother => ?_⟩
        · rw [hone]
          exact List.forall_mem_singleton.mpr rfl
        · exact Except.error.inj hother ▸ herrors error rfl

/-- **A resolver.**  It asks for nothing that MongoDB has held, and returns a value for each
identifier. -/
theorem safe_resolve (hlawful : resolver.Lawful sde esi float)
    (hpath : ∀ id, start.askedBy (resolver.path id) = some resolver.kind)
    (htracked : tracked resolver.kind) {ids : List ℤ} (hnodup : ids.Nodup)
    (hkept : Kept sde esi float tracked moment) (hstage : Stage thread start began log moment)
    (hnew : ∀ id, (some resolver.kind, id) ∉ asked start log) :
    (contract sde esi float tracked).Safe (looking esi redis ttlSeconds float)
      (lookingUp tracked) thread (resolver.resolve redis ttlSeconds ids)
      (fun outcome later => ∃ own, Stage thread start began (own ++ log) later ∧
        (∀ pair ∈ asked start own, pair.1 = some resolver.kind) ∧
        (∀ found, outcome = .ok found → Resolved esi resolver ids (own ++ log) found) ∧
        ∀ error, outcome = .error error → OfServers error) moment := by
  refine (safe_heldById hkept hstage htracked ids).bind hkept ?_ ?_
  · rintro held later hlater ⟨looking, hlooking, hquiet, hheld, _⟩
    obtain ⟨hknown, hunknown⟩ := hheld held rfl
    refine (safe_resolveEach hlawful hpath hlater hlooking (hnodup.filter _) ?_ ?_).mono ?_
    · intro id hid
      obtain ⟨hmem, hmissing⟩ := List.mem_filter.mp hid
      refine ⟨?_, (hunknown id hmem (of_decide_eq_true hmissing)).1⟩
      rw [asked_append, hquiet]
      exact hnew id
    · -- what the stores hold is ESI's value
      intro id value hvalue
      have hsource := (hknown id value hvalue).2
      rw [hlawful.source] at hsource
      obtain ⟨hresolved, htruth⟩ := Option.ite_none_right_eq_some.mp hsource
      obtain rfl := Option.some.inj htruth
      exact Or.inl ⟨rfl, Or.inl hresolved⟩
    · rintro outcome final _ ⟨own, hfinal, hkinds, hfound, herrors⟩
      rw [← List.append_assoc] at hfinal
      refine ⟨_, hfinal, ?_, fun found heq => ?_, herrors⟩
      · rw [asked_append, hquiet, List.append_nil]
        exact hkinds
      · obtain ⟨hkeys, hvalues⟩ := hfound found heq
        rw [← List.append_assoc] at hvalues
        refine ⟨fun id => ?_, hvalues⟩
        rw [hkeys, List.mem_filter, decide_eq_true_iff]
        constructor
        · rintro (hmem | ⟨hmem, _⟩)
          · obtain ⟨value, hvalue⟩ := Dict.mem_keys_iff.mp hmem
            exact (hknown id value hvalue).1
          · exact hmem
        · -- what the stores do not have, the loop goes over
          intro hmem
          by_cases hold : id ∈ held.keys
          · exact Or.inl hold
          · exact Or.inr ⟨hmem, hold⟩
  · rintro error later _ ⟨looking, hlooking, hquiet, _, hdatabase⟩
    refine ⟨looking, hlooking, ?_, nofun, fun other hother => Or.inr (hdatabase other hother).1⟩
    rw [hquiet]
    exact List.forall_mem_nil _

end Resolving

end EveBuild.Reference
