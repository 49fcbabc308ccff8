import ModMirror.Text.Chars
import ModMirror.Text.Lower
import ModMirror.Text.Quote
import ModMirror.Text.Shortest
import ModMirror.Path.Normal
import ModMirror.Path.Relative
import ModMirror.Path.Key
import ModMirror.Fs.Error
import ModMirror.Json.Value
import ModMirror.Json.Print
import ModMirror.Json.Read
import ModMirror.Json.Shape
import ModMirror.Version
import ModMirror.Config.Format
import ModMirror.Digest.Sha256
import ModMirror.Fingerprint
import ModMirror.Glob.Syntax
import ModMirror.Glob.Match
import ModMirror.Sync.Phase
import ModMirror.Sync.Error
import ModMirror.Sync.Exclusion
import ModMirror.Data.KeyMap
import ModMirror.Catalog.Basic
import ModMirror.Sync.Spec
import ModMirror.Sync.Plan
import ModMirror.Fs.Retry
import ModMirror.Sync.Settings
import ModMirror.Server.Error
import ModMirror.Server.Fallback
import ModMirror.Net.SocketAddr
import ModMirror.Server.Config
import ModMirror.Fs.Tree
import ModMirror.Fs.Hash
import ModMirror.Catalog.Builder
import ModMirror.Toml.Syntax
import ModMirror.Toml.Build
import ModMirror.Toml.Parse
import ModMirror.Toml.Decode
import ModMirror.Toml.Print
import ModMirror.Fs.Store
import ModMirror.Sync.State
import ModMirror.Api.Basic
import ModMirror.Api.Content
import ModMirror.Api.Exclusions
import ModMirror.Api.Catalogs
import ModMirror.Api.Plans
import ModMirror.Api.Specs
import ModMirror.Api.Retry
import ModMirror.Api.Server
import ModMirror.Api.Decode
import ModMirror.Api.Trees
import ModMirror.Api.Files
import ModMirror.Api.Build
import ModMirror.Api.State
import ModMirror.Api.Config
import ModMirror.Api.Paths
import ModMirror.Fs.Copy
import ModMirror.Server.Overlay
import ModMirror.Server.Service
import ModMirror.Text.Utf8
import ModMirror.Net.Url
import ModMirror.Net.Range
import ModMirror.Net.MediaType
import ModMirror.Server.Http
import ModMirror.Sync.Transfer
import ModMirror.Sync.Session
import ModMirror.Api.Remote
import ModMirror.Api.Transfer
import ModMirror.Api.Session
import ModMirror.Api.Service
import ModMirror.Api.Respond
import ModMirror.Proofs.KeyMap
import ModMirror.Proofs.Names
import ModMirror.Proofs.Exclusion
import ModMirror.Proofs.Tree
import ModMirror.Proofs.Scan
import ModMirror.Proofs.Catalog
import ModMirror.Proofs.Plan
import ModMirror.Proofs.Write
import ModMirror.Proofs.Build
import ModMirror.Proofs.Session
import ModMirror.Proofs.FixedPoint
import ModMirror.Proofs.Phases
import ModMirror.Proofs.Commit
import ModMirror.Proofs.Transfer
import ModMirror.Proofs.Landing
import ModMirror.Proofs.Served
import ModMirror.Proofs.Resolve
import ModMirror.Proofs.Overlay
import ModMirror.Proofs.Fingerprint
import ModMirror.Proofs.Fetchable
import ModMirror.Proofs.Frame
import ModMirror.Proofs.Containment
import ModMirror.Proofs.CatalogMap
import ModMirror.Proofs.Wire
import ModMirror.Proofs.Partition
import ModMirror.Proofs.PrettyText
import ModMirror.Proofs.SaveLoad
import ModMirror.Proofs.CommitEffect
import ModMirror.Proofs.SyncPaths
import ModMirror.Proofs.WalkBuild
import ModMirror.Proofs.ApplyProgress
import ModMirror.Proofs.Decline
import ModMirror.Proofs.StateFiles
import ModMirror.Proofs.NormalForm
import ModMirror.Proofs.Sanitize
import ModMirror.Proofs.Retry
import ModMirror.Proofs.Fallback
