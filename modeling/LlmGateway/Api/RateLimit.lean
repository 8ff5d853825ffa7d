import LlmGateway.Relational.Transition
import Mathlib.Algebra.Order.Ring.Rat
import Mathlib.Data.Finset.Card

/-!
# The rate limit

`RateLimitMiddleware` (`middleware.py`): the sorted set of a tenant and client has the readings of
the clock at its requests. A request removes the ones outside the window, adds its own, and is
rejected if too many are left. The commands of a request are one step.
-/

namespace LlmGateway.RateLimit

/-- `PUBLIC_PATHS`. -/
def publicPaths : List String :=
  ["/health", "/docs", "/openapi.json", "/redoc", "/metrics", "/api/gateway/events",
    "/api/gateway/v2/monitor", "/api/gateway/v2/monitor/stream", "/gateway"]

/-- `_is_public_path`. -/
def isPublicPath (path : String) : Bool :=
  path ∈ publicPaths || path.startsWith "/gateway/assets/"

structure RateLimitMiddleware where
  maxRequests : ℕ
  window : ℕ
deriving DecidableEq, Repr

/-- A request, with what `time.time()` returns if it is asked. -/
structure Request where
  path : String
  now : ℚ
deriving DecidableEq, Repr

/-- The request is limited. -/
def Request.IsLimited (request : Request) : Prop := isPublicPath request.path = false

instance : DecidablePred Request.IsLimited := fun request ↦
  inferInstanceAs (Decidable (isPublicPath request.path = false))

/-- The sorted set, whose members are their scores, and when it expires. -/
structure SortedSet where
  members : Finset ℚ
  expiresAt : ℚ

/-- No key. -/
def SortedSet.empty : SortedSet := ⟨∅, 0⟩

/-- The members that have not expired by now. -/
def SortedSet.live (key : SortedSet) (now : ℚ) : Finset ℚ :=
  if key.expiresAt ≤ now then ∅ else key.members

/-- The sorted set, and the requests that were handled with whether they were admitted, newest
first. -/
structure Handled where
  key : SortedSet
  log : List (Request × Bool)

namespace RateLimitMiddleware

variable (middleware : RateLimitMiddleware)

/-- `zremrangebyscore(key, 0, window_start)`. -/
def remaining (key : SortedSet) (now : ℚ) : Finset ℚ :=
  (key.live now).filter fun score ↦ ¬(0 ≤ score ∧ score ≤ now - middleware.window)

/-- `dispatch`: the sorted set, and whether the request is passed on. -/
def dispatch (key : SortedSet) (request : Request) : SortedSet × Bool :=
  if isPublicPath request.path then (key, true)
  else
    let members := insert request.now (middleware.remaining key request.now)
    (⟨members, request.now + middleware.window⟩, decide (members.card ≤ middleware.maxRequests))

/-- One more request is handled. -/
def handle (s : Handled) (request : Request) : Handled :=
  let (key, admitted) := middleware.dispatch s.key request
  ⟨key, (request, admitted) :: s.log⟩

end RateLimitMiddleware

/-- No request has been handled. -/
def Handled.start : Handled := ⟨SortedSet.empty, []⟩

end LlmGateway.RateLimit
