import Mathlib.Algebra.BigOperators.Group.List.Basic
import EveBuild.Esi.Attempts

/-!
# The error limit of ESI

A response tells how many errors are left and in how many seconds there are more again.  After a
success that leaves few of them the scraper sleeps for so long.  After an error, by which their
number has just been reduced, it does not look at them: it sleeps as before any repetition, or
not at all.

`respectsErrorLimit_iff` says for which responses every run keeps the limit nevertheless.  What
is slept after a response only depends on which attempt of its call it answers, and that only on
the responses before it (`attemptAfter`).
-/

namespace EveBuild.Esi

open Effect Significand

variable {Body : Type} {settings : Settings} {stream : Stream Body}

/-! ## The limit -/

/-- The seconds that are slept before the next request. -/
def sleptFirst : List (Event Body) → ℚ
  | .slept seconds :: rest => max 0 seconds + sleptFirst rest
  | _ => 0

/-- After each response that leaves few errors, the next request is only sent once there are
more again. -/
def RespectsErrorLimit (settings : Settings) : List (Event Body) → Prop
  | [] => True
  | .slept _ :: rest => RespectsErrorLimit settings rest
  | .requested _ response :: rest =>
      (∀ reset, response.Low settings reset →
        (∃ request next, .requested request next ∈ rest) → reset ≤ sleptFirst rest) ∧
      RespectsErrorLimit settings rest

/-- Which attempt of its call the next request is, after so many responses. -/
def attemptAfter (settings : Settings) (stream : Stream Body) : ℕ → ℕ
  | 0 => 1
  | received + 1 =>
      if Repeated settings (stream.response (received + 1))
          (attemptAfter settings stream received) then
        attemptAfter settings stream received + 1
      else 1

/-- What is slept after a response, where `received` came before it. -/
def pausesAt (settings : Settings) (stream : Stream Body) (received : ℕ) : List ℚ :=
  pausesAfter settings (stream.response (received + 1)) (attemptAfter settings stream received)
    (stream.jitter (received + 1))

/-- All that happens in sending some requests, after so many responses. -/
def history (settings : Settings) (stream : Stream Body) : ℕ → List Request → List (Event Body)
  | _, [] => []
  | received, request :: rest =>
      .requested request (stream.response (received + 1)) ::
        ((pausesAt settings stream received).map .slept ++
          history settings stream (received + 1) rest)

/-! ## What happens in a run -/

theorem history_concat (requests : List Request) (received : ℕ) (request : Request) :
    history settings stream received (requests ++ [request]) =
      history settings stream received requests ++
        .requested request (stream.response (received + requests.length + 1)) ::
          (pausesAt settings stream (received + requests.length)).map .slept := by
  induction requests generalizing received with
  | nil => simp [history]
  | cons first rest ih =>
      rw [List.cons_append, history, ih, history, List.length_cons,
        show received + 1 + rest.length = received + (rest.length + 1) by omega]
      simp

/-- The record tells what happened in sending some requests, and the next one is this attempt of
its call. -/
structure AtAttempt (settings : Settings) (stream : Stream Body) (attempt : ℕ)
    (record : Record Body) : Prop where
  events : ∃ requests : List Request, record.received = requests.length ∧
    record.events = history settings stream 0 requests
  attempt : attemptAfter settings stream record.received = attempt

/-- **One attempt.** -/
theorem AtAttempt.exchange {attempt : ℕ} {record : Record Body}
    (hat : AtAttempt settings stream attempt record) (request : Request)
    {response : Response Body} (hresponse : stream.response (record.received + 1) = response) :
    AtAttempt settings stream (if Repeated settings response attempt then attempt + 1 else 1)
      (record.exchange request response
        (pausesAfter settings response attempt (stream.jitter (record.received + 1)))) where
  events := by
    obtain ⟨requests, hreceived, hevents⟩ := hat.events
    refine ⟨requests ++ [request], ?_, ?_⟩
    · rw [Record.exchange, hreceived, List.length_append, List.length_singleton]
    · rw [history_concat, Nat.zero_add, ← hreceived, ← hevents, pausesAt, hat.attempt,
        hresponse]
      rfl
  attempt := by
    rw [Record.exchange, attemptAfter, hat.attempt, hresponse]

/-- **One call**, from any of its attempts on. -/
theorem runOn_getWithRetry_atAttempt (request : Request) {attempt : ℕ} {record : Record Body}
    (hat : AtAttempt settings stream attempt record) :
    ∃ outcome later, runOn stream (getWithRetry settings request attempt) record =
        (outcome, later) ∧
      AtAttempt settings stream 1 later ∧ record.received < later.received := by
  induction hleft : (settings.marketOrdersPageRetryMaxAttempts - attempt).toNat
    using Nat.strong_induction_on generalizing attempt record with
  | _ left ih =>
      have hnext := hat.exchange request rfl
      by_cases hrepeated : Repeated settings (stream.response (record.received + 1)) attempt
      · have hmore : (attempt : ℤ) < settings.marketOrdersPageRetryMaxAttempts := by
          by_contra hnot
          exact hrepeated.1 (Or.inr (Or.inr (by omega)))
        rw [if_pos hrepeated] at hnext
        obtain ⟨outcome, later, hrun, hlater, hlt⟩ :=
          ih _ (by omega) hnext rfl
        refine ⟨outcome, later, (runOn_of_repeated rfl hrepeated).trans hrun, hlater, ?_⟩
        exact (Nat.lt_succ_self _).trans hlt
      · rw [if_neg hrepeated] at hnext
        obtain ⟨outcome, hrun, _⟩ := runOn_of_not_repeated request record rfl hrepeated
        exact ⟨outcome, _, hrun, hnext, Nat.lt_succ_self _⟩

/-- **One thing that the scraper does with ESI.** -/
theorem runOn_fetch (request : Request) {record : Record Body}
    (hat : AtAttempt settings stream 1 record) :
    ∃ later, runOn stream (fetch settings request) record = (.ok (), later) ∧
      AtAttempt settings stream 1 later ∧ record.received < later.received := by
  obtain ⟨outcome, later, hrun, hlater, hlt⟩ := runOn_getWithRetry_atAttempt request hat
  refine ⟨later, ?_, hlater, hlt⟩
  cases request with
  | regions =>
      -- whatever is raised afterwards, no further request is made
      have hregions : (runOn stream (getRegionIds settings) record).2 = later := by
        cases outcome with
        | ok response => rw [runOn, getRegionIds, Program.eval_bind_of_ok hrun]; rfl
        | error error => rw [runOn, getRegionIds, Program.eval_bind_of_error hrun]
      rw [runOn, fetch, Program.eval_bind_of_ok (Program.eval_attempt _ _)]
      exact congrArg (Prod.mk _) hregions
  | orders regionId page =>
      -- this holds of a page that is not found, too
      have hpage :
          (runOn stream (getMarketOrdersPage settings regionId page) record).2 = later := by
        rw [runOn, getMarketOrdersPage, Program.eval_tryCatch]
        cases outcome with
        | ok response => rw [Program.eval_bind_of_ok hrun]; rfl
        | error error =>
            rw [Program.eval_bind_of_error hrun]
            cases error with
            | httpStatus response =>
                simp only
                split <;> rfl
            | transport => rfl
            | valueError => rfl
            | overflowError => rfl
      rw [runOn, fetch, Program.eval_bind_of_ok (Program.eval_attempt _ _)]
      exact congrArg (Prod.mk _) hpage

/-- **A run of the scraper.** -/
theorem runOn_scrape : ∀ (requests : List Request) {record : Record Body},
    AtAttempt settings stream 1 record →
    ∃ later, runOn stream (scrape settings requests) record = (.ok (), later) ∧
      AtAttempt settings stream 1 later ∧
      record.received + requests.length ≤ later.received := by
  intro requests
  induction requests with
  | nil =>
      intro record hat
      exact ⟨record, rfl, hat, le_rfl⟩
  | cons request rest ih =>
      intro record hat
      obtain ⟨middle, hfetch, hmiddle, hlt⟩ := runOn_fetch request hat
      obtain ⟨later, hrun, hlater, hle⟩ := ih hmiddle
      refine ⟨later, ?_, hlater, ?_⟩
      · rw [runOn, scrape, Program.forEach, Program.eval_bind_of_ok hfetch]
        exact hrun
      · rw [List.length_cons]
        omega

/-- The requests of a run, of which there are at least as many as calls. -/
theorem exists_history (settings : Settings) (stream : Stream Body) (requests : List Request) :
    ∃ sent : List Request, requests.length ≤ sent.length ∧
      (runOn stream (scrape settings requests) .empty).2.events =
        history settings stream 0 sent := by
  have hempty : AtAttempt settings stream 1 .empty := ⟨⟨[], rfl, rfl⟩, rfl⟩
  obtain ⟨later, hrun, hlater, hle⟩ := runOn_scrape requests hempty
  obtain ⟨sent, hreceived, hevents⟩ := hlater.events
  refine ⟨sent, ?_, by rw [hrun, hevents]⟩
  rw [← hreceived]
  exact (Nat.zero_add _).symm.le.trans hle

/-! ## When the limit is kept -/

theorem sleptFirst_append (pauses : List ℚ) (rest : List (Event Body)) :
    sleptFirst (pauses.map .slept ++ rest) = (pauses.map (max 0)).sum + sleptFirst rest := by
  induction pauses with
  | nil => simp
  | cons pause pauses ih =>
      rw [List.map_cons, List.cons_append, sleptFirst, ih, List.map_cons, List.sum_cons, add_assoc]

theorem sleptFirst_history (received : ℕ) (sent : List Request) :
    sleptFirst (history settings stream received sent) = 0 := by
  cases sent <;> rfl

theorem respectsErrorLimit_append (pauses : List ℚ) (rest : List (Event Body)) :
    RespectsErrorLimit settings (pauses.map .slept ++ rest) ↔ RespectsErrorLimit settings rest := by
  induction pauses with
  | nil => rfl
  | cons pause pauses ih => exact ih

/-- The responses that are followed by another request are followed by long enough pauses. -/
theorem respectsErrorLimit_history : ∀ (sent : List Request) (received : ℕ),
    RespectsErrorLimit settings (history settings stream received sent) ↔
      ∀ index, index + 1 < sent.length → ∀ reset,
        (stream.response (received + index + 1)).Low settings reset →
        reset ≤ ((pausesAt settings stream (received + index)).map (max 0)).sum := by
  intro sent
  induction sent with
  | nil =>
      intro received
      simp [history, RespectsErrorLimit]
  | cons request rest ih =>
      intro received
      rw [history, RespectsErrorLimit, respectsErrorLimit_append, ih, sleptFirst_append,
        sleptFirst_history, add_zero]
      -- the first response is followed by a request if there is a second one
      constructor
      · rintro ⟨hfirst, hrest⟩ index hindex reset hlow
        cases index with
        | zero =>
            refine hfirst reset hlow ?_
            cases rest with
            | nil => exact absurd hindex (by simp)
            | cons next rest => exact ⟨next, _, List.mem_append_right _ (List.mem_cons_self ..)⟩
        | succ index =>
            rw [List.length_cons, Nat.add_lt_add_iff_right] at hindex
            rw [show received + (index + 1) = received + 1 + index by omega] at hlow ⊢
            exact hrest index hindex reset hlow
      · intro hall
        refine ⟨fun reset hlow hnext => ?_, fun index hindex reset hlow => ?_⟩
        · refine hall 0 ?_ reset hlow
          cases rest with
          | nil =>
              obtain ⟨other, response, hmem⟩ := hnext
              simp [history] at hmem
          | cons next rest => simp
        · rw [show received + 1 + index = received + (index + 1) by omega] at hlow ⊢
          exact hall (index + 1) (by rw [List.length_cons]; omega) reset hlow

/-- The delay before the attempt is repeated lasts for so long. -/
def DelayLasts (response : Response Body) (attempt : ℕ) (jitter : Jitter) (reset : ℚ) : Prop :=
  match response.retryAfter with
  | .read seconds => reset ≤ seconds
  | .unreadable => reset ≤ retryBackoffBaseSeconds
  | .absent => attempt ≤ 1024 ∧
      reset ≤ round 53 (min (retryBackoffBaseSeconds * 2 ^ (attempt - 1)) retryBackoffMaxSeconds +
        jitter)

theorem delayLasts_iff {response : Response Body} {attempt : ℕ} {jitter : Jitter} {reset : ℚ} :
    DelayLasts response attempt jitter reset ↔
      ∃ delay, retryDelay? response attempt jitter = some delay ∧ reset ≤ delay := by
  unfold DelayLasts retryDelay?
  cases response.retryAfter with
  | absent =>
      rw [retryBackoffBaseSeconds, one_mul, double_two_pow]
      by_cases hattempt : attempt ≤ 1024
      · simp [hattempt, show attempt - 1 < 1024 by omega]
      · simp [hattempt, show ¬ attempt - 1 < 1024 by omega]
  | unreadable => simp
  | read seconds => simp

/-- What is slept after a response that leaves few errors. -/
theorem le_sum_pausesAfter_iff {response : Response Body} {attempt : ℕ} {jitter : Jitter}
    {reset : ℚ} (hlow : response.Low settings reset) :
    reset ≤ ((pausesAfter settings response attempt jitter).map (max 0)).sum ↔
      reset ≤ 0 ∨ response.isSuccess ∨
        ¬ Final settings response attempt ∧ DelayLasts response attempt jitter reset := by
  unfold pausesAfter
  by_cases hsuccess : response.isSuccess
  · obtain ⟨remain, hle, hremain, hreset⟩ := hlow
    simp [hsuccess, limitPauses, hremain, hreset, hle]
  · rw [if_neg hsuccess, delayLasts_iff]
    by_cases hfinal : Final settings response attempt
    · simp [hfinal, hsuccess]
    · cases hdelay : retryDelay? response attempt jitter with
      | none => simp [hfinal, hsuccess]
      | some delay => simp [hfinal, hsuccess]

/-- **The error limit is kept in every run** on a stream just if each response that leaves few
errors is a success, is waited for long enough before it is asked for again, or has nothing to
wait for. -/
theorem respectsErrorLimit_iff (settings : Settings) (stream : Stream Body) :
    (∀ requests, RespectsErrorLimit settings
      (runOn stream (scrape settings requests) .empty).2.events) ↔
    ∀ received reset, (stream.response (received + 1)).Low settings reset →
      reset ≤ 0 ∨ (stream.response (received + 1)).isSuccess ∨
        ¬ Final settings (stream.response (received + 1)) (attemptAfter settings stream received) ∧
          DelayLasts (stream.response (received + 1)) (attemptAfter settings stream received)
            (stream.jitter (received + 1)) reset := by
  constructor
  · intro hall received reset hlow
    obtain ⟨sent, hlength, hevents⟩ :=
      exists_history settings stream (List.replicate (received + 2) .regions)
    have hrespects := hall (List.replicate (received + 2) .regions)
    rw [hevents, respectsErrorLimit_history] at hrespects
    rw [List.length_replicate] at hlength
    have hpauses := hrespects received (by omega) reset (by rwa [Nat.zero_add])
    rw [Nat.zero_add] at hpauses
    exact (le_sum_pausesAfter_iff hlow).mp hpauses
  · intro hall requests
    obtain ⟨sent, _, hevents⟩ := exists_history settings stream requests
    rw [hevents, respectsErrorLimit_history]
    intro index _ reset hlow
    rw [Nat.zero_add] at hlow ⊢
    exact (le_sum_pausesAfter_iff hlow).mpr (hall index reset hlow)

/-- A region without a market is an error, of which few are left. -/
def noMarket : Response Unit where
  statusCode := 404
  errorLimitRemain := .read 5
  errorLimitReset := .read 60
  body := ()

/-- The next region is asked for at once. -/
theorem not_respectsErrorLimit_noMarket :
    ¬ RespectsErrorLimit ⟨5, 10⟩
      (runOn (always noMarket) (scrape ⟨5, 10⟩ [.orders 11000001 1, .orders 11000002 1])
        .empty).2.events := by
  intro hrespects
  obtain ⟨sent, hlength, hevents⟩ := exists_history ⟨5, 10⟩ (always noMarket)
    [.orders 11000001 1, .orders 11000002 1]
  rw [hevents, respectsErrorLimit_history] at hrespects
  have hlow : noMarket.Low ⟨5, 10⟩ 60 := ⟨5, by decide, rfl, rfl⟩
  rcases (le_sum_pausesAfter_iff hlow).mp (hrespects 0 hlength 60 hlow) with
    hzero | hsuccess | ⟨hnot, _⟩
  · norm_num at hzero
  · exact absurd hsuccess (by decide)
  · exact hnot (Or.inr (Or.inl (by decide)))

end EveBuild.Esi
