import ModMirror.Api.Files
import ModMirror.Catalog.Builder

/-!
# Requests that catalogue a tree

`catalog_build` builds a tree, then builds, scans or walks its targets.
-/

namespace ModMirror.Api

/-- The directory a request names relative to the root. -/
def underRoot (rel : String) : NormalPath := NormalPath.ofString (treeRoot ++ "/" ++ rel)

/-- A catalog target of a request. -/
def targetOf (j : Json) : Except SyncError CatalogTarget := do
  let set ← ExclusionSet.compile (strListField j "patterns")
  let extra ← match j.field? "extra_patterns" with
    | some _ => (ExclusionSet.compile (strListField j "extra_patterns")).map some
    | none => pure none
  let base := (optStrField j "base").map underRoot
  let matcherBase := match optStrField j "matcher_base" with
    | some rel => underRoot rel
    | none => base.getD (NormalPath.ofString treeRoot)
  let m : ExclusionMatcher := { base := matcherBase, sets := [set] }
  let m := match extra with
    | some e => m.withSet e
    | none => m
  pure { syncPath := strField j "sync_path", matcher := m, base }

/-- The scanned entries as sorted pairs of relative path and directory flag. -/
def scannedJson (entries : List ScannedEntry) : Json :=
  let pairs := (entries.map fun e => (e.relative, e.isDirectory)).mergeSort fun a b =>
    decide (a.1 < b.1) || (a.1 == b.1 && (!a.2 || b.2))
  .arr (pairs.map fun (p, d) => .arr [.str p, .bool d])

/-- Builds, scans or walks the targets of a request. -/
def catalogBuildAnswer (req : Json) : Json :=
  match treeField req "tree" treeRoot {} with
  | .error e => e
  | .ok t =>
    match ((((req.field? "targets").bind Json.arr?).getD []).mapM targetOf) with
    | .error e => syncFailure e
    | .ok targets =>
      let b : CatalogBuilder := { base := NormalPath.ofString treeRoot, hasher := { sampling := samplingOf req } }
      match (optStrField req "mode").getD "build" with
      | "scan" => .obj [("results", .arr (targets.map fun tg =>
          answerOf syncFailure scannedJson ((b.forTarget tg).scan t tg.syncPath tg.matcher)))]
      | "walk" => .obj [("results", .arr (targets.map fun tg =>
          answerOf syncFailure PathCatalog.iterJson ((b.forTarget tg).walk t tg.syncPath tg.matcher)))]
      | _ => answerOf syncFailure (fun s => .obj [("set", s.toJson), ("iter", s.iterJson),
          ("entry_count", Json.ofNat s.entryCount)]) (b.build t targets)

end ModMirror.Api
