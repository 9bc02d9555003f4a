import EveBuild.Esi.Model

/-!
# What an attempt comes to

The response to an attempt determines how long is slept after it and whether another attempt
follows (`runOn_getWithRetry`).
-/

namespace EveBuild.Esi

open Effect Significand

variable {Body : Type} {settings : Settings} {stream : Stream Body}

/-! ## The response -/

/-- The attempt is the last one of its call: it succeeds, it may not be repeated, or there
have been enough. -/
def Final (settings : Settings) (response : Response Body) (attempt : ℕ) : Prop :=
  response.isSuccess ∨ response.statusCode ∉ retryableStatusCodes ∨
    settings.marketOrdersPageRetryMaxAttempts ≤ attempt

instance (response : Response Body) (attempt : ℕ) : Decidable (Final settings response attempt) :=
  inferInstanceAs (Decidable (_ ∨ _ ∨ _))

/-- The seconds that are slept before the attempt is repeated, unless they are too many to be
computed. -/
def retryDelay? (response : Response Body) (attempt : ℕ) (jitter : Jitter) : Option ℚ :=
  match response.retryAfter with
  | .read seconds => some seconds
  | .unreadable => some retryBackoffBaseSeconds
  | .absent => (double (retryBackoffBaseSeconds * 2 ^ (attempt - 1))).map fun backoff =>
      round 53 (min backoff retryBackoffMaxSeconds + jitter)

/-- The rate-limit headers are absent, or there is a number in each. -/
def Response.WellFormed (response : Response Body) : Prop :=
  response.errorLimitRemain ≠ .unreadable ∧ response.errorLimitReset ≠ .unreadable

/-- The response tells that at most so many errors are left, for `reset` seconds. -/
def Response.Low (settings : Settings) (response : Response Body) (reset : ℚ) : Prop :=
  ∃ remain ≤ settings.marketOrdersErrorLimitThreshold,
    response.errorLimitRemain = .read remain ∧ response.errorLimitReset = .read reset

/-- The seconds that are slept after a success. -/
def limitPauses (settings : Settings) (response : Response Body) : List ℚ :=
  match response.errorLimitRemain, response.errorLimitReset with
  | .read remain, .read reset =>
      if remain ≤ settings.marketOrdersErrorLimitThreshold then [reset] else []
  | _, _ => []

/-- The seconds that are slept after a response. -/
def pausesAfter (settings : Settings) (response : Response Body) (attempt : ℕ) (jitter : Jitter) :
    List ℚ :=
  if response.isSuccess then limitPauses settings response
  else if Final settings response attempt then []
  else (retryDelay? response attempt jitter).toList

/-- Another attempt follows. -/
def Repeated (settings : Settings) (response : Response Body) (attempt : ℕ) : Prop :=
  ¬ Final settings response attempt ∧ (response.retryAfter = .absent → attempt ≤ 1024)

instance (response : Response Body) (attempt : ℕ) :
    Decidable (Repeated settings response attempt) :=
  inferInstanceAs (Decidable (¬ _ ∧ (_ → _)))

/-- Too many doublings for a `float`. -/
theorem retryDelay?_eq_none_iff {response : Response Body} {attempt : ℕ} {jitter : Jitter} :
    retryDelay? response attempt jitter = none ↔
      response.retryAfter = .absent ∧ 1025 ≤ attempt := by
  unfold retryDelay?
  cases response.retryAfter with
  | absent =>
      rw [retryBackoffBaseSeconds, one_mul, double_two_pow, Option.map_eq_none_iff]
      split
      · simp only [reduceCtorEq, true_and, false_iff, not_le]
        omega
      · simp only [true_and, true_iff]
        omega
  | unreadable => simp
  | read seconds => simp

theorem repeated_iff {response : Response Body} {attempt : ℕ} (jitter : Jitter) :
    Repeated settings response attempt ↔
      ¬ Final settings response attempt ∧
        ∃ delay, retryDelay? response attempt jitter = some delay := by
  rw [Repeated, ← Option.ne_none_iff_exists', Ne, retryDelay?_eq_none_iff]
  simp only [not_and, not_le, Nat.lt_succ_iff]

/-! ## The run of an attempt -/

/-- What a call comes to whose last response this is. -/
def outcomeOf (response : Response Body) : Except (EsiError Body) (Response Body) :=
  if response.isSuccess then .ok response else .error (.httpStatus response)

/-- Some seconds are slept. -/
def Record.sleep (record : Record Body) (pauses : List ℚ) : Record Body :=
  { record with events := record.events ++ pauses.map .slept }

/-- One more response, and what is slept after it. -/
def Record.exchange (record : Record Body) (request : Request) (response : Response Body)
    (pauses : List ℚ) : Record Body :=
  ⟨record.received + 1, record.events ++ .requested request response :: pauses.map .slept⟩

/-- The record right after the next response. -/
def Record.next (record : Record Body) (stream : Stream Body) (request : Request) : Record Body :=
  record.exchange request (stream.response (record.received + 1)) []

theorem Record.sleep_nil (record : Record Body) : record.sleep [] = record := by
  simp [Record.sleep]

theorem Record.next_sleep (record : Record Body) (stream : Stream Body) (request : Request)
    (pauses : List ℚ) :
    (record.next stream request).sleep pauses =
      record.exchange request (stream.response (record.received + 1)) pauses := by
  simp [Record.sleep, Record.next, Record.exchange]

theorem runOn_sleep (seconds : ℚ) (record : Record Body) :
    runOn stream (await (.sleep seconds)) record = (.ok (), record.sleep [seconds]) :=
  Program.eval_perform _ _

theorem runOn_timedGet (request : Request) (record : Record Body) :
    runOn stream (timedGet request) record =
      (outcomeOf (stream.response (record.received + 1)), record.next stream request) := by
  have hget : (await (.get request)).eval (answer stream) record =
      (.ok (stream.response (record.received + 1)), record.next stream request) :=
    Program.eval_perform _ _
  rw [runOn, timedGet, Program.eval_bind_of_ok hget, outcomeOf]
  split <;> rfl

theorem runOn_sleepBeforeRetry (response : Response Body) (attempt : ℕ) (record : Record Body) :
    runOn stream (sleepBeforeRetry response attempt) record =
      match retryDelay? response attempt (stream.jitter record.received) with
      | some delay => (.ok (), record.sleep [delay])
      | none => (.error .overflowError, record) := by
  unfold sleepBeforeRetry retryDelay?
  cases response.retryAfter with
  | absent =>
      cases double (retryBackoffBaseSeconds * 2 ^ (attempt - 1)) with
      | none => rfl
      | some backoff => rfl
  | unreadable => rfl
  | read seconds => rfl

theorem runOn_respectErrorLimit (settings : Settings) (stream : Stream Body)
    (response : Response Body) (record : Record Body) :
    ∃ outcome, runOn stream (respectErrorLimit response settings) record =
        (outcome, record.sleep (limitPauses settings response)) ∧
      (response.WellFormed → outcome = .ok ()) := by
  unfold respectErrorLimit limitPauses Response.WellFormed
  cases hremain : response.errorLimitRemain with
  | absent => exact ⟨.ok (), by rw [Record.sleep_nil]; rfl, fun _ => rfl⟩
  | unreadable =>
      cases hreset : response.errorLimitReset with
      | absent => exact ⟨.ok (), by rw [Record.sleep_nil]; rfl, fun _ => rfl⟩
      | unreadable => exact ⟨.error .valueError, by rw [Record.sleep_nil]; rfl, by simp⟩
      | read reset => exact ⟨.error .valueError, by rw [Record.sleep_nil]; rfl, by simp⟩
  | read remain =>
      cases hreset : response.errorLimitReset with
      | absent => exact ⟨.ok (), by rw [Record.sleep_nil]; rfl, fun _ => rfl⟩
      | unreadable =>
          by_cases hlow : remain ≤ settings.marketOrdersErrorLimitThreshold
          · exact ⟨.error .valueError, by simp [hlow, parse, runOn, Record.sleep_nil], by simp⟩
          · exact ⟨.ok (), by simp [hlow, parse, runOn, Record.sleep_nil], by simp⟩
      | read reset =>
          by_cases hlow : remain ≤ settings.marketOrdersErrorLimitThreshold
          · refine ⟨.ok (), ?_, fun _ => rfl⟩
            simpa [hlow, parse, runOn] using runOn_sleep reset record
          · exact ⟨.ok (), by simp [hlow, parse, runOn, Record.sleep_nil], fun _ => rfl⟩

/-- What is left of a call once its next request has got a response. -/
theorem runOn_getWithRetry {request : Request} {attempt : ℕ} {record : Record Body}
    {response : Response Body} (hresponse : stream.response (record.received + 1) = response) :
    runOn stream (getWithRetry settings request attempt) record =
      if response.isSuccess then
        runOn stream (respectErrorLimit response settings >>= fun _ => return response)
          (record.next stream request)
      else if Final settings response attempt then
        (.error (.httpStatus response), record.next stream request)
      else
        runOn stream (sleepBeforeRetry response attempt >>= fun _ =>
          getWithRetry settings request (attempt + 1)) (record.next stream request) := by
  -- the request has been made, and its response or its error is there
  have hattempt : runOn stream (timedGet request).attempt record =
      (.ok (outcomeOf response), record.next stream request) := by
    rw [runOn, Program.eval_attempt, ← runOn, runOn_timedGet, hresponse]
  rw [getWithRetry, runOn, Program.eval_bind_of_ok hattempt]
  by_cases hsuccess : response.isSuccess
  · rw [if_pos hsuccess, outcomeOf, if_pos hsuccess]
    rfl
  · rw [if_neg hsuccess, outcomeOf, if_neg hsuccess]
    by_cases hlast : response.statusCode ∉ retryableStatusCodes ∨
        settings.marketOrdersPageRetryMaxAttempts ≤ attempt
    · have hfinal : Final settings response attempt := Or.inr hlast
      rw [if_pos hfinal]
      simp only [if_pos hlast]
      rfl
    · have hfinal : ¬ Final settings response attempt := not_or.mpr ⟨hsuccess, hlast⟩
      rw [if_neg hfinal]
      simp only [if_neg hlast]
      rfl

/-- **An attempt that is repeated.** -/
theorem runOn_of_repeated {request : Request} {attempt : ℕ} {record : Record Body}
    {response : Response Body} (hresponse : stream.response (record.received + 1) = response)
    (hrepeated : Repeated settings response attempt) :
    runOn stream (getWithRetry settings request attempt) record =
      runOn stream (getWithRetry settings request (attempt + 1))
        (record.exchange request response
          (pausesAfter settings response attempt (stream.jitter (record.received + 1)))) := by
  obtain ⟨hfinal, delay, hdelay⟩ :=
    (repeated_iff (stream.jitter (record.received + 1))).mp hrepeated
  have hsuccess : ¬ response.isSuccess := fun hsuccess => hfinal (Or.inl hsuccess)
  have hsleep : runOn stream (sleepBeforeRetry response attempt) (record.next stream request) =
      (.ok (), (record.next stream request).sleep [delay]) := by
    rw [runOn_sleepBeforeRetry, show (record.next stream request).received =
      record.received + 1 from rfl, hdelay]
  rw [runOn_getWithRetry hresponse, if_neg hsuccess, if_neg hfinal, pausesAfter, if_neg hsuccess,
    if_neg hfinal, hdelay, runOn, Program.eval_bind_of_ok hsleep, Record.next_sleep, hresponse]
  rfl

/-- **An attempt that ends its call.**  Where it is not the last one that the settings allow,
its delay is too large. -/
theorem runOn_of_not_repeated (request : Request) {attempt : ℕ} (record : Record Body)
    {response : Response Body} (hresponse : stream.response (record.received + 1) = response)
    (hrepeated : ¬ Repeated settings response attempt) :
    ∃ outcome, runOn stream (getWithRetry settings request attempt) record =
        (outcome, record.exchange request response
          (pausesAfter settings response attempt (stream.jitter (record.received + 1)))) ∧
      (Final settings response attempt → response.WellFormed → outcome = outcomeOf response) ∧
      (¬ Final settings response attempt → outcome = .error .overflowError) := by
  have hpauses := record.next_sleep stream request
  rw [hresponse] at hpauses
  rw [runOn_getWithRetry hresponse, pausesAfter, outcomeOf]
  by_cases hsuccess : response.isSuccess
  · -- a success is returned, unless the headers of the error limit are no numbers
    obtain ⟨outcome, hrun, hwell⟩ := runOn_respectErrorLimit settings stream response
      (record.next stream request)
    rw [hpauses] at hrun
    simp only [if_pos hsuccess]
    cases outcome with
    | ok value =>
        refine ⟨.ok response, Program.eval_bind_of_ok hrun, fun _ _ => rfl, fun hfinal => ?_⟩
        exact absurd (Or.inl hsuccess) hfinal
    | error error =>
        refine ⟨.error error, Program.eval_bind_of_error hrun, fun _ hformed => ?_,
          fun hfinal => absurd (Or.inl hsuccess) hfinal⟩
        cases hwell hformed
  simp only [if_neg hsuccess]
  by_cases hfinal : Final settings response attempt
  · simp only [if_pos hfinal]
    refine ⟨_, ?_, fun _ _ => rfl, fun hnot => absurd hfinal hnot⟩
    rw [← hpauses, Record.sleep_nil]
  · simp only [if_neg hfinal]
    -- the delay is too large to be computed, and nothing has been slept
    have hnone : retryDelay? response attempt (stream.jitter (record.received + 1)) = none := by
      rw [← Option.not_isSome_iff_eq_none]
      intro hsome
      obtain ⟨delay, hdelay⟩ := Option.isSome_iff_exists.mp hsome
      exact hrepeated ((repeated_iff _).mpr ⟨hfinal, delay, hdelay⟩)
    have hsleep : runOn stream (sleepBeforeRetry response attempt)
        (record.next stream request) = (.error .overflowError, record.next stream request) := by
      rw [runOn_sleepBeforeRetry, show (record.next stream request).received =
        record.received + 1 from rfl, hnone]
    refine ⟨.error .overflowError, ?_, fun hnot => absurd hnot hfinal, fun _ => rfl⟩
    rw [runOn, Program.eval_bind_of_error hsleep, hnone, ← hpauses, Option.toList,
      Record.sleep_nil]

end EveBuild.Esi
