import Mathlib

/-!
# The token bucket of the transaction stream

`TokenBucket` of `be2-ops/src/services/xrpl-subscribe-rate.ts`, with exact numbers. The worker makes
one `tryConsume` for each validated message of the stream and drops the message if it fails.
-/

namespace Bluesafe.Ops

/-- `TokenBucket`; the clock is in milliseconds. -/
structure TokenBucket where
  capacity : ℚ
  refillPerSec : ℚ
  tokens : ℚ
  lastRefillMs : ℚ
  deriving DecidableEq, Repr

namespace TokenBucket

/-- The constructor, at the time `now`. -/
def new (capacity refillPerSec now : ℚ) : TokenBucket := ⟨capacity, refillPerSec, capacity, now⟩

/-- The first part of `tryConsume`. -/
def refill (b : TokenBucket) (now : ℚ) : TokenBucket :=
  let elapsed := (now - b.lastRefillMs) / 1000
  if 0 < elapsed ∧ 0 < b.refillPerSec then
    { b with tokens := min b.capacity (b.tokens + elapsed * b.refillPerSec), lastRefillMs := now }
  else b

/-- `tryConsume`, at the time `now`. -/
def tryConsume (b : TokenBucket) (now : ℚ) : Bool × TokenBucket :=
  let b := b.refill now
  if 1 ≤ b.tokens then (true, { b with tokens := b.tokens - 1 }) else (false, b)

/-- The bucket after calls at these times. -/
def after (b : TokenBucket) (times : List ℚ) : TokenBucket :=
  times.foldl (fun b now => (b.tryConsume now).2) b

/-- The successes of calls at these times. -/
def successes : TokenBucket → List ℚ → Nat
  | _, [] => 0
  | b, now :: times => (b.tryConsume now).1.toNat + (b.tryConsume now).2.successes times

end TokenBucket

end Bluesafe.Ops
