import ModMirror.Api.Server

/-!
# Decoding documents

`decode` reads a document as one of the library's types and writes the
value back out, or answers the reading failure with its place.
-/

namespace ModMirror.Api

/-- The shape of a type name and how its decoded form is written back. -/
def decodeTarget : String → Option (Json.Shape × (Json → Json))
  | "record" => some (FileRecord.shape, fun j => (FileRecord.ofJson j).toJson)
  | "catalog" => some (PathCatalog.shape, fun j => (PathCatalog.ofJson j).toJson)
  | "catalog_set" => some (CatalogSet.shape, fun j => (CatalogSet.ofJson j).toJson)
  | "spec" => some (SyncPathSpec.shape, fun j => (SyncPathSpec.ofJson j).toJson)
  | "settings" => some (ClientSettings.shape, fun j => (ClientSettings.ofJson j).toJson)
  | "retry" => some (RetryPolicy.shape, fun j => (RetryPolicy.ofJson j).toJson)
  | "fallback" => some (FallbackPayload.shape, fun j => (FallbackPayload.ofJson j).toJson)
  | "server_config" => some (ServerConfig.shape, fun j => (ServerConfig.ofJson j).toJson)
  | _ => none

/-- A document read as a type and written back. -/
def decodeAnswer (req : Json) : Json :=
  match decodeTarget (strField req "type") with
  | none => requestFailure "unknown type"
  | some (shape, write) =>
    match Json.readText shape (strField req "json") with
    | .ok j => .obj [("value", write j)]
    | .error e => typeFailure e.text

end ModMirror.Api
