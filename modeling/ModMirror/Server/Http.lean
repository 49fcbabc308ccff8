import ModMirror.Server.Service
import ModMirror.Net.Url
import ModMirror.Net.Range
import ModMirror.Net.MediaType
import ModMirror.Json.Print

/-!
# The HTTP interface of the catalog service

Five routes, all read with `GET` (or `HEAD`, which answers the same without
a body):

* `/sync/version`: the server version, as JSON;
* `/sync/paths`: the sync paths, or the paths of the fallback payload that
  the client's version header asks for;
* `/sync/exclusions`: the exclusion patterns;
* `/sync/hashes`: the catalogs of the `path` query values (all when there
  are none), or the fallback payload's catalogs;
* `/sync/fetch/<path>`: the bytes of a file, whole or one range of them.

A failure of the service is answered with its status and its text. Any
other path is not found, and any other method is not allowed, both with an
empty body. Header values must be visible ASCII and are trimmed; an empty
identity is no identity.
-/

namespace ModMirror

/-- A request: its method, its target (path and query) and its headers,
names in lower case. -/
structure HttpRequest where
  method : String
  target : String
  headers : List (String × ByteArray)

/-- A response: its status, content type, content range and body. -/
structure HttpResponse where
  status : Nat
  contentType : Option String := none
  contentRange : Option String := none
  body : ByteArray := ByteArray.empty

namespace Http

/-- The header naming the client's version. -/
def versionHeader : String := "modsync-version"

/-- The header naming the client's identity. -/
def identityHeader : String := "modsync-identity"

def plainText : String := "text/plain; charset=utf-8"

/-- The answer to a failure of the service. -/
def failure (e : ServerError) : HttpResponse :=
  { status := e.status, contentType := some plainText, body := e.message.toUTF8 }

def json (j : Json) : HttpResponse :=
  { status := 200, contentType := some "application/json", body := (Json.render j).toUTF8 }

/-- Whether a header value is visible ASCII (tabs allowed). -/
def visibleAscii (b : ByteArray) : Bool :=
  b.toList.all fun c => c = 9 || (32 ≤ c && c ≤ 126)

/-- The trimmed text of a header, if present; a value that is not visible
ASCII is refused as a bad version or identity. -/
def headerText (req : HttpRequest) (name : String) : Except ServerError (Option String) :=
  match req.headers.lookup name with
  | none => .ok none
  | some raw =>
    let text := Text.decodeLossy raw.toList
    if visibleAscii raw then
      .ok (some (String.ofList ((text.toList.dropWhile Text.isWhitespace).reverse.dropWhile Text.isWhitespace).reverse))
    else if name = versionHeader then .error (.invalidVersion text "header is not valid ASCII")
    else .error (.invalidIdentity text "header is not valid ASCII")

/-- The identity a request names; a blank one names none. -/
def identity (req : HttpRequest) : Except ServerError (Option String) := do
  let id ← headerText req identityHeader
  pure (id.filter (· ≠ ""))

/-- The routes of the service. -/
inductive Route where
  | version
  | paths
  | exclusions
  | hashes
  /-- A file, by its path as written in the target. -/
  | fetch (raw : String)
  deriving DecidableEq, Repr

/-- The route of a request path. -/
def Route.ofPath (path : String) : Option Route :=
  match path with
  | "/sync/version" => some .version
  | "/sync/paths" => some .paths
  | "/sync/exclusions" => some .exclusions
  | "/sync/hashes" => some .hashes
  | _ =>
    match Text.stripPrefix? "/sync/fetch/".toList path.toList with
    | some [] | none => none
    | some rest => some (.fetch (String.ofList rest))

/-- A file, whole or the range asked for. -/
def serveFile (t : FileTree) (path : String) (req : HttpRequest) : HttpResponse :=
  match t.readFile path with
  | .error e => if e = .os ENOENT then { status := 404 } else { status := 500 }
  | .ok data =>
    let kind := some (Net.mediaTypeOf path)
    let size := data.size
    let unsatisfiable (body : ByteArray) : HttpResponse :=
      { status := 416, contentType := kind, contentRange := some ("bytes */" ++ toString size), body }
    match (req.headers.lookup "range").filter visibleAscii with
    | none => { status := 200, contentType := kind, body := data }
    | some value =>
      match Net.satisfiable (Text.decodeLossy value.toList) size with
      | some [(a, b)] =>
        { status := 206, contentType := kind,
          contentRange := some ("bytes " ++ toString a ++ "-" ++ toString b ++ "/" ++ toString size),
          body := data.extract a (b + 1) }
      | some (_ :: _ :: _) => unsatisfiable "Cannot serve multipart range requests".toUTF8
      | _ => unsatisfiable ByteArray.empty

/-- The catalogs or fallback payload a hashes request asks for. -/
def hashes (s : CatalogService) (req : HttpRequest) (query : Option String) (t : FileTree) :
    HttpResponse × FileTree :=
  match (do s.fallbacks.resolve (← headerText req versionHeader)) with
  | .error e => (failure e, t)
  | .ok (some payload) => (json payload.hashes, t)
  | .ok none =>
    let requested := ((Net.queryPairs (query.getD "")).filter (·.1 == "path")).map fun (_, v) =>
      String.ofList (Text.unifySlashes v.toList)
    match identity req with
    | .error e => (failure e, t)
    | .ok id =>
      match s.catalog (if requested.isEmpty then none else some requested) id t with
      | (.ok set, t) => (json set.toJson, t)
      | (.error e, t) => (failure e, t)

/-- A file request. -/
def fetch (s : CatalogService) (req : HttpRequest) (raw : String) (t : FileTree) :
    HttpResponse × FileTree :=
  match String.fromUTF8? (ByteArray.mk (Net.percentDecode raw.toUTF8.toList).toArray) with
  | none => ({ status := 400, contentType := some plainText, body := "Invalid URL: Invalid UTF-8 in `path`".toUTF8 }, t)
  | some path =>
    match identity req with
    | .error e => (failure e, t)
    | .ok id =>
      match s.resolveFile path id t with
      | (.ok file, t) => (serveFile t file req, t)
      | (.error e, t) => (failure e, t)

/-- Answers a routed request. -/
def answer (s : CatalogService) (req : HttpRequest) (query : Option String) (t : FileTree) :
    Route → HttpResponse × FileTree
  | .version => (json (.str s.version), t)
  | .paths =>
    match (do s.fallbacks.resolve (← headerText req versionHeader)) with
    | .ok (some payload) => (json payload.syncPaths, t)
    | .ok none => (json (.arr (s.specs.map SyncPathSpec.toJson)), t)
    | .error e => (failure e, t)
  | .exclusions => (json (Json.ofStrings s.exclusionPatterns), t)
  | .hashes => hashes s req query t
  | .fetch raw => fetch s req raw t

/-- Serves a request (see the module comment). -/
def serve (s : CatalogService) (req : HttpRequest) (t : FileTree) : HttpResponse × FileTree :=
  let (path, query) := Net.splitTarget req.target
  match Route.ofPath path with
  | none => ({ status := 404 }, t)
  | some route =>
    if req.method = "GET" then answer s req query t route
    else if req.method = "HEAD" then
      let (r, t) := answer s req query t route
      ({ r with body := ByteArray.empty }, t)
    else ({ status := 405 }, t)

end Http

end ModMirror
