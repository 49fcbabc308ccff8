import ModMirror.Json.Value
import ModMirror.Fs.Error
import ModMirror.Server.Error

/-!
# Answers of the request interface

Every request is one JSON object naming an operation in `op`; every answer is
one JSON object. A failure is answered as an object with the kind of failure
(`fs::…`, `core::…`, `server::…`, or `json` for a value of a request that does
not have the type asked for) and its message.
-/

namespace ModMirror.Api

def failure (kind message : String) : Json :=
  .obj [("error", .str kind), ("message", .str message)]

def fsFailure (e : FsError) : Json := failure ("fs::" ++ e.kindName) e.message

def syncFailure (e : SyncError) : Json := failure e.kind e.message

/-- A failure of the server, with its HTTP status. -/
def serverFailure (e : ServerError) : Json :=
  .obj [("error", .str e.kind), ("message", .str e.message), ("status", Json.ofNat e.status)]

/-- A value of a request that does not have the type asked for. -/
def typeFailure (message : String) : Json := failure "json" message

/-- A request that cannot be served at all. -/
def requestFailure (message : String) : Json := failure "driver" message

/-- The answer of a step that may fail. -/
def answerOf {ε α : Type} (onError : ε → Json) (onOk : α → Json) : Except ε α → Json
  | .ok a => onOk a
  | .error e => onError e

/-- A string field of a request, empty when absent. -/
def strField (req : Json) (k : String) : String := ((req.field? k).bind Json.str?).getD ""

/-- An optional string field of a request. -/
def optStrField (req : Json) (k : String) : Option String := (req.field? k).bind Json.str?

/-- A list of strings of a request, empty when absent; other items are skipped. -/
def strListField (req : Json) (k : String) : List String :=
  (((req.field? k).bind Json.arr?).getD []).filterMap Json.str?

/-- A boolean field of a request, with a default. -/
def boolField (req : Json) (k : String) (default : Bool) : Bool :=
  ((req.present? k).bind Json.bool?).getD default

end ModMirror.Api
