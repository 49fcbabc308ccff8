import ModMirror.Api.State
import ModMirror.Api.Server
import ModMirror.Fs.Store

/-!
# Requests about configuration files

`config_store` writes a file if asked, then loads or saves a value of one
type through the configuration store; `server_config_load` loads a server
configuration, writing the default one when the file is missing.
-/

namespace ModMirror.Api

/-- Values of any shape, kept as they are. -/
def valueCodec : Codec Json := ⟨.value, id, id, false⟩

def settingsCodec : Codec ClientSettings := ⟨ClientSettings.shape, ClientSettings.ofJson, ClientSettings.toJson, true⟩
def serverConfigCodec : Codec ServerConfig := ⟨ServerConfig.shape, ServerConfig.ofJson, ServerConfig.toJson, true⟩

/-- Runs a store action for values of one type. -/
def storeAction {α : Type} (c : Codec α) (default : α) (req : Json) (t : FileTree) (p : NormalPath) :
    Except Json (Json × FileTree) :=
  let given : Except Json α := decodeBy c.shape c.ofJson ((req.field? "value").getD .null)
  let fs {β : Type} (r : Except FsError β) : Except Json β := r.mapError fsFailure
  match (optStrField req "action").getD "load" with
  | "load_if_exists" => do
    let v ← fs (c.loadIfExists t p)
    pure (match v with
      | some v => c.toJson v
      | none => .null, t)
  | "load_or_default" => do
    let v ← fs (c.loadIfExists t p)
    pure (c.toJson (v.getD default), t)
  | "load_or_init" => do
    let init ← given
    let (v, t) ← fs (c.loadOrInit t p init)
    pure (c.toJson v, t)
  | "save" => do
    let v ← given
    let t ← fs (c.save t p v)
    pure (.null, t)
  | _ => do
    let v ← fs (c.load t p)
    pure (c.toJson v, t)

/-- Loads or saves a configuration file. -/
def configStoreAnswer (req : Json) : Json :=
  let file := strField req "file"
  let start : Except Json FileTree := match (req.field? "content").bind contentOf with
    | some content => (writeBelow {} treeRoot file content).mapError fsFailure
    | none => .ok {}
  match start with
  | .error e => e
  | .ok t =>
    let p := NormalPath.ofString (treeRoot ++ "/" ++ file)
    let r := match (optStrField req "type").getD "value" with
      | "settings" => storeAction settingsCodec {} req t p
      | "catalog_set" => storeAction catalogSetCodec {} req t p
      | "string_list" => storeAction stringListCodec [] req t p
      | "server_config" => storeAction serverConfigCodec {} req t p
      | _ => storeAction valueCodec .null req t p
    match r with
    | .ok (v, t) => .obj [("value", v), ("tree", listing t treeRoot)]
    | .error e => e

/-- The root of a loaded configuration resolved against the file's directory. -/
def resolveRoot (c : ServerConfig) (file : String) : ServerConfig :=
  if c.root.startsWith "/" then c
  else match FileTree.parentText file with
    | some dir => { c with root := if c.root.isEmpty then dir ++ "/" else dir ++ "/" ++ c.root }
    | none => c

/-- Loads a server configuration, writing the default one when the file is missing. -/
def serverConfigLoadAnswer (req : Json) : Json :=
  let file := strField req "file"
  let start : Except Json FileTree := match (req.field? "content").bind contentOf with
    | some content => (writeBelow {} treeRoot file content).mapError fsFailure
    | none => .ok {}
  match start with
  | .error e => e
  | .ok t =>
    let p := NormalPath.ofString (treeRoot ++ "/" ++ file)
    match serverConfigCodec.loadOrInit t p {} with
    | .error e => serverFailure (.fs e)
    | .ok (c, t) =>
      let c := resolveRoot c p.text
      .obj [("config", c.toJson), ("resolved", .arr (c.resolvedSyncPaths.map SyncPathSpec.toJson)),
        ("validate", validationJson c), ("tree", listing t treeRoot)]

end ModMirror.Api
