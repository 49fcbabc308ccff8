import ModMirror.Fs.Error
import ModMirror.Json.Shape

/-!
# Retrying transient failures

A retry policy allows a number of retries after the first attempt, each
preceded by a pause: always the same, or doubling from an initial pause up to
a cap. Running an operation under a policy returns its first success or its
first permanent failure; when the retries run out on an I/O failure, that
failure is reported as exhausted, with the number of attempts allowed.

    delayFor (exponential i m) r = min (i · 2^min (r-1) 20, 2^64-1) m
-/

namespace ModMirror

/-- How long to wait before a retry. -/
inductive Delay where
  /-- The same pause before every retry. -/
  | fixed (millis : Nat)
  /-- A doubling pause from `initial`, capped at `cap`. -/
  | exponential (initial cap : Nat)
  deriving DecidableEq, Repr

/-- A bounded retry policy: `maxRetries` retries after the first attempt. -/
structure RetryPolicy where
  maxRetries : Nat
  delay : Delay
  deriving DecidableEq, Repr

namespace RetryPolicy

/-- Five retries with a fixed pause of 500 ms. -/
def standard : RetryPolicy := ⟨5, .fixed 500⟩

def never : RetryPolicy := ⟨0, .fixed 0⟩

/-- The largest 32-bit and 64-bit unsigned values. -/
def u32Max : Nat := Nat.pow 2 32 - 1
def u64Max : Nat := Nat.pow 2 64 - 1

/-- Attempts including the first, as a 32-bit count (wrapping past the largest). -/
def maxAttempts (p : RetryPolicy) : Nat := (p.maxRetries + 1) % Nat.pow 2 32

/-- The pause before retry number `retry` (counted from 1). -/
def delayFor (p : RetryPolicy) (retry : Nat) : Nat :=
  match p.delay with
  | .fixed m => m
  | .exponential initial cap => min (min (initial * Nat.pow 2 (min (retry - 1) 20)) u64Max) cap

/-- Runs an operation whose `k`-th call (from 0) gives `op k`, retrying while it
fails transiently and retries remain; the result and the number of calls. -/
def run {α : Type} (p : RetryPolicy) (op : Nat → Except FsError α) : Except FsError α × Nat :=
  go 0 (p.maxRetries + 1)
where
  go (k : Nat) : Nat → Except FsError α × Nat
    | 0 => (op k, k + 1)
    | fuel + 1 =>
      match op k with
      | .ok a => (.ok a, k + 1)
      | .error e =>
        if !e.transient then (.error e, k + 1)
        else if k < p.maxRetries then go (k + 1) fuel
        else match e with
          | .io path cause => (.error (.retriesExhausted path p.maxAttempts cause), k + 1)
          | other => (.error other, k + 1)

/-- The JSON form of a policy. -/
def toJson (p : RetryPolicy) : Json :=
  let delay : Json := match p.delay with
    | .fixed m => .obj [("kind", .str "fixed"), ("millis", Json.ofNat m)]
    | .exponential i c => .obj [("kind", .str "exponential"), ("initial_millis", Json.ofNat i), ("max_millis", Json.ofNat c)]
  .obj [("max_retries", Json.ofNat p.maxRetries), ("delay", delay)]

/-- What a policy must look like. -/
def shape : Json.Shape :=
  .record "RetryPolicy" [.req "max_retries" (.unsigned 32 "u32"),
    .req "delay" (.tagged "Delay" "kind" [.mk "fixed" [.req "millis" (.unsigned 64 "u64")],
      .mk "exponential" [.req "initial_millis" (.unsigned 64 "u64"), .req "max_millis" (.unsigned 64 "u64")]])]

/-- A policy from its decoded form. -/
def ofJson (j : Json) : RetryPolicy :=
  let n (o : Json) (k : String) := ((o.field? k).bind Json.nat?).getD 0
  let d := (j.field? "delay").getD .null
  let delay : Delay := match (d.field? "kind").bind Json.str? with
    | some "exponential" => .exponential (n d "initial_millis") (n d "max_millis")
    | _ => .fixed (n d "millis")
  ⟨n j "max_retries", delay⟩

end RetryPolicy

/-! ## The retry loop over a policy's pauses -/

/-- The pause source a policy hands the retry loop: the retries granted so far. -/
structure PolicyBackoff where
  policy : RetryPolicy
  retries : Nat
  deriving DecidableEq, Repr

namespace PolicyBackoff

def reset (b : PolicyBackoff) : PolicyBackoff := { b with retries := 0 }

/-- The pause before the next retry and the source after it, or none once the
policy's retries are spent. -/
def next (b : PolicyBackoff) : Option Nat × PolicyBackoff :=
  if b.policy.maxRetries ≤ b.retries then (none, b)
  else (some (b.policy.delayFor (b.retries + 1)), { b with retries := b.retries + 1 })

theorem next_eq_some {b b' : PolicyBackoff} {d : Nat} (h : b.next = (some d, b')) :
    b.retries < b.policy.maxRetries ∧ b' = { b with retries := b.retries + 1 } := by
  unfold next at h
  split at h
  · cases h
  · cases h
    exact ⟨by omega, rfl⟩

end PolicyBackoff

/-- A failed call as the retry loop sees it: worth another call, or final. -/
inductive BackoffError (ε : Type) where
  | permanent (e : ε)
  | transient (e : ε)
  deriving DecidableEq, Repr

/-- What a retry loop reports: the outcome, the calls made and the pauses taken, in order. -/
structure Retried (ε α : Type) where
  outcome : Except ε α
  calls : Nat
  pauses : List Nat

/-- The retry loop of the backoff library over a policy's pause source: after resetting the
source it calls the operation (the `k`-th call gives `op k`) until the call succeeds, fails
for good, or fails transiently with no pause left; after any other failure it takes the
next pause and calls again. -/
def retryNotify {ε α : Type} (b : PolicyBackoff) (op : Nat → Except (BackoffError ε) α) :
    Retried (BackoffError ε) α :=
  loop b.reset 0
where
  loop (b : PolicyBackoff) (k : Nat) : Retried (BackoffError ε) α :=
    match op k with
    | .ok v => ⟨.ok v, k + 1, []⟩
    | .error (.permanent e) => ⟨.error (.permanent e), k + 1, []⟩
    | .error (.transient e) =>
      match h : b.next with
      | (none, _) => ⟨.error (.transient e), k + 1, []⟩
      | (some d, b') =>
        have : b'.policy.maxRetries - b'.retries < b.policy.maxRetries - b.retries := by
          obtain ⟨hlt, rfl⟩ := PolicyBackoff.next_eq_some h
          dsimp only
          omega
        let r := loop b' (k + 1)
        { r with pauses := d :: r.pauses }
  termination_by b.policy.maxRetries - b.retries

namespace RetryPolicy

/-- A fresh pause source for the policy. -/
def backoff (p : RetryPolicy) : PolicyBackoff := ⟨p, 0⟩

/-- How the retry loop sees a file failure. -/
def classify (e : FsError) : BackoffError FsError :=
  if e.transient then .transient e else .permanent e

/-- The result once the loop has stopped: a permanent failure as it is, and a transient
one that outlasted the retries reported as exhausted, with `attempts`, when it is an I/O
failure. -/
def settle {α : Type} (attempts : Nat) : Except (BackoffError FsError) α → Except FsError α
  | .ok v => .ok v
  | .error (.permanent e) => .error e
  | .error (.transient (.io path cause)) => .error (.retriesExhausted path attempts cause)
  | .error (.transient other) => .error other

/-- Runs a blocking operation under the policy, retrying while it fails transiently. -/
def retryBlocking {α : Type} (p : RetryPolicy) (op : Nat → Except FsError α) : Retried FsError α :=
  let attempts := p.maxAttempts
  let r := retryNotify p.backoff fun k => (op k).mapError classify
  { r with outcome := settle attempts r.outcome }

end RetryPolicy

end ModMirror
