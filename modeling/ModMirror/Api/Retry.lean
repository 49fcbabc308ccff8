import ModMirror.Api.Catalogs
import ModMirror.Fs.Retry

/-!
# Requests about retrying

`retry` shows a policy's attempts and pauses; `retry_blocking` runs a
scripted operation under a policy; `transient` classifies an I/O failure.
-/

namespace ModMirror.Api

/-- The policy of a request field: the standard one when absent or `null`. -/
def policyField (req : Json) (k : String) (fallback : RetryPolicy) : Except Json RetryPolicy :=
  match req.present? k with
  | some j => decodeBy RetryPolicy.shape RetryPolicy.ofJson j
  | none => .ok fallback

/-- A policy with its attempts and the pause before each given retry. -/
def retryAnswer (req : Json) : Json :=
  match policyField req "policy" RetryPolicy.standard with
  | .error e => e
  | .ok p =>
    let retries := (((req.field? "retries").bind Json.arr?).getD []).filterMap Json.nat?
    .obj [("policy", p.toJson), ("max_attempts", Json.ofNat p.maxAttempts),
      ("delays_ms", .arr (retries.map fun r => Json.ofNat (p.delayFor r)))]

/-- The failure a scripted call gives, or none for success. -/
def scriptedFailure (outcome : String) : Option FsError :=
  match outcome with
  | "ok" => none
  | "lock_failed" => some (.lockFailed "locked.dll")
  | "traversal" => some (.pathTraversal "../x")
  | name =>
    let kind := match name with
      | "WouldBlock" => IoKind.wouldBlock
      | "Interrupted" => .interrupted
      | "TimedOut" => .timedOut
      | "ResourceBusy" => .resourceBusy
      | "NotFound" => .notFound
      | _ => .other
    some (.io "locked.dll" (.simple kind))

/-- Runs a scripted operation under a policy. -/
def retryBlockingAnswer (req : Json) : Json :=
  match policyField req "policy" RetryPolicy.standard with
  | .error e => e
  | .ok p =>
    let outcomes := strListField req "outcomes"
    let op (k : Nat) : Except FsError Nat :=
      match (outcomes[k]?).bind scriptedFailure with
      | some e => .error e
      | none => .ok (k + 1)
    let r := p.retryBlocking op
    .obj [("result", answerOf fsFailure Json.ofNat r.outcome), ("calls", Json.ofNat r.calls)]

/-- Whether an I/O failure is worth retrying, as a file failure and as sync failures. -/
def transientAnswer (req : Json) : Json :=
  let cause : IoError := match (req.field? "os_error").bind Json.nat? with
    | some n => .os n
    | none => .simple ((IoKind.ofName? (strField req "kind")).getD .other)
  let e := FsError.io "x" cause
  .obj [("fs", .bool e.transient), ("core", .bool (SyncError.fs e).transient),
    ("core_io", .bool (SyncError.io cause).transient)]

end ModMirror.Api
