import EveBuild.Data.Significand
import EveBuild.Effect.Eval

/-!
# Requests that are retried

`_get_with_retry` of `app/services/esi.py`, by which the scraper of market orders sends its
requests: an error that looks transient is waited for, and a success that tells that few errors
are left is followed by a pause.

* A header is what `float` or `int` reads in it, or unreadable.  That `float` also reads `nan`
  and `inf` is left out.
* Seconds are rational; a sum of them is rounded as in double precision.
* `Body` is what the callers read of a response.
* Metrics are left out.
-/

namespace EveBuild.Esi

open Effect Significand

/-- `_RETRYABLE_STATUS_CODES`. -/
def retryableStatusCodes : List ℕ := [420, 429, 500, 502, 503, 504]

/-- `_RETRY_BACKOFF_BASE_SECONDS`. -/
def retryBackoffBaseSeconds : ℚ := 1

/-- `_RETRY_BACKOFF_MAX_SECONDS`. -/
def retryBackoffMaxSeconds : ℚ := 30

/-- The settings that are read here. -/
structure Settings where
  marketOrdersPageRetryMaxAttempts : ℤ
  marketOrdersErrorLimitThreshold : ℤ

/-- A header, as it is read. -/
inductive Header (α : Type)
  | absent
  | unreadable
  | read (value : α)
deriving DecidableEq

/-- `httpx.Response`.  The headers are `Retry-After`, `X-Esi-Error-Limit-Remain` and
`X-Esi-Error-Limit-Reset`. -/
structure Response (Body : Type) where
  statusCode : ℕ
  retryAfter : Header ℚ := .absent
  errorLimitRemain : Header ℤ := .absent
  errorLimitReset : Header ℚ := .absent
  body : Body

/-- `response.is_success`. -/
def Response.isSuccess {Body : Type} (response : Response Body) : Bool :=
  200 ≤ response.statusCode ∧ response.statusCode ≤ 299

/-- What can be raised. -/
inductive EsiError (Body : Type)
  | httpStatus (response : Response Body)
  | transport
  | valueError
  | overflowError

/-- What the scraper asks for: `/universe/regions/`, or a page of
`/markets/{region_id}/orders/`. -/
inductive Request
  | regions
  | orders (regionId page : ℤ)
deriving DecidableEq

/-- What is awaited or drawn. -/
inductive Op
  | get (request : Request)
  | uniform
  | sleep (seconds : ℚ)

/-- What `random.uniform(0, 1)` can draw. -/
abbrev Jitter : Type := { seconds : ℚ // 0 ≤ seconds ∧ seconds ≤ 1 }

section Programs

variable {Body : Type}

variable (Body) in
/-- What each of them answers. -/
abbrev Op.Answer : Op → Type
  | get _ => Response Body
  | uniform => Jitter
  | sleep _ => Unit

variable (Body) in
abbrev signature : Signature := ⟨Op, Op.Answer Body⟩

variable (Body) in
abbrev Code := Program (signature Body) (EsiError Body)

def await (op : Op) : Code Body (op.Answer Body) := Program.perform (S := signature Body) op

/-- `_timed_get`: `raise_for_status` raises whatever is not a success. -/
def timedGet (request : Request) : Code Body (Response Body) := do
  let response ← await (.get request)
  if response.isSuccess then return response else throw (.httpStatus response)

/-- `_sleep_before_retry`. -/
def sleepBeforeRetry (response : Response Body) (attempt : ℕ) : Code Body Unit :=
  match response.retryAfter with
  | .read seconds => await (.sleep seconds)
  | .unreadable => await (.sleep retryBackoffBaseSeconds)
  | .absent =>
      -- the power is an `int`, and the product with a `float` may be too large for one
      match double (retryBackoffBaseSeconds * 2 ^ (attempt - 1)) with
      | none => throw .overflowError
      | some backoff => do
          let jitter ← await .uniform
          await (.sleep (round 53 (min backoff retryBackoffMaxSeconds + jitter)))

/-- A header that has to be readable. -/
def parse {α : Type} : Header α → Code Body α
  | .read value => return value
  | _ => throw .valueError

/-- `_respect_error_limit`. -/
def respectErrorLimit (response : Response Body) (settings : Settings) : Code Body Unit :=
  if response.errorLimitRemain = .absent ∨ response.errorLimitReset = .absent then return
  else do
    let remain ← parse response.errorLimitRemain
    if remain ≤ settings.marketOrdersErrorLimitThreshold then
      let seconds ← parse response.errorLimitReset
      await (.sleep seconds)

/-- `_get_with_retry`, from the attempt with the given number on. -/
def getWithRetry (settings : Settings) (request : Request) (attempt : ℕ) :
    Code Body (Response Body) := do
  match ← (timedGet request).attempt with
  | .ok response =>
      respectErrorLimit response settings
      return response
  | .error (.httpStatus response) =>
      if response.statusCode ∉ retryableStatusCodes ∨
          settings.marketOrdersPageRetryMaxAttempts ≤ attempt then
        throw (.httpStatus response)
      else
        sleepBeforeRetry response attempt
        getWithRetry settings request (attempt + 1)
  | .error error => throw error
termination_by (settings.marketOrdersPageRetryMaxAttempts - attempt).toNat

/-- `get_region_ids`. -/
def getRegionIds (settings : Settings) : Code Body Body := do
  let response ← getWithRetry settings .regions 1
  return response.body

/-- `get_market_orders_page`: a region without a market answers 404. -/
def getMarketOrdersPage (settings : Settings) (regionId page : ℤ) : Code Body (Option Body) :=
  tryCatch
    (do
      let response ← getWithRetry settings (.orders regionId page) 1
      return some response.body)
    fun
      | .httpStatus response =>
          if response.statusCode = 404 then return none else throw (.httpStatus response)
      | error => throw error

/-- What the scraper asks ESI for.  Whatever comes of it, the scraper can go on, after an error
once it is started again. -/
def fetch (settings : Settings) : Request → Code Body Unit
  | .regions => do
      let _ ← (getRegionIds settings).attempt
      return
  | .orders regionId page => do
      let _ ← (getMarketOrdersPage settings regionId page).attempt
      return

/-- One thing after the other. -/
def scrape (settings : Settings) : List Request → Code Body Unit :=
  Program.forEach (fetch settings)

end Programs

/-! ## Runs -/

/-- What ESI responds, one response after the other, and what is drawn after each. -/
structure Stream (Body : Type) where
  response : ℕ → Response Body
  jitter : ℕ → Jitter

/-- What happens: a request gets its response, or some seconds are slept. -/
inductive Event (Body : Type)
  | requested (request : Request) (response : Response Body)
  | slept (seconds : ℚ)

/-- How many responses there were so far, and all that happened. -/
structure Record (Body : Type) where
  received : ℕ
  events : List (Event Body)

section Runs

variable {Body : Type}

/-- Responses are counted from one, as attempts are. -/
def answer (stream : Stream Body) :
    (op : Op) → Record Body → Except (EsiError Body) (op.Answer Body) × Record Body
  | .get request, record =>
      (.ok (stream.response (record.received + 1)),
        ⟨record.received + 1,
          record.events ++ [.requested request (stream.response (record.received + 1))]⟩)
  | .uniform, record => (.ok (stream.jitter record.received), record)
  | .sleep seconds, record =>
      (.ok (), { record with events := record.events ++ [.slept seconds] })

/-- The run of a program on a stream. -/
def runOn (stream : Stream Body) {α : Type} (program : Code Body α) (record : Record Body) :
    Except (EsiError Body) α × Record Body :=
  program.eval (answer stream) record

/-- Nothing has happened yet. -/
def Record.empty : Record Body := ⟨0, []⟩

/-- Each request is answered by this response. -/
def always (response : Response Body) : Stream Body where
  response _ := response
  jitter _ := ⟨0, le_rfl, zero_le_one⟩

end Runs

end EveBuild.Esi
