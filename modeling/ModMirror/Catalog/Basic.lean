import ModMirror.Data.KeyMap
import ModMirror.Path.Key
import ModMirror.Json.Shape

/-!
# Path catalogs

A catalog maps root-relative paths to records: a content fingerprint, or the
empty fingerprint for an empty-directory marker. Paths are cleaned on the way
in (`\` becomes `/`, outer slashes are trimmed) and compared through their
folded key, so one entry stands for every spelling of a path; a re-insert
keeps the newest spelling. Entries iterate in the byte order of their keys.

A catalog set holds one catalog per sync path, keyed the same way.

    (c.insert p r).get p = some r                       (get_insert_self)
-/

namespace ModMirror

/-- One file, or one empty-directory marker. -/
structure FileRecord where
  /-- The content fingerprint; empty for a directory. -/
  hash : String
  isDirectory : Bool
  deriving DecidableEq, Repr, Inhabited

namespace FileRecord

def directory : FileRecord := ⟨"", true⟩

/-- The record of a file with a fingerprint. -/
def file (hash : String) : FileRecord := ⟨hash, false⟩

def toJson (r : FileRecord) : Json := .obj [("hash", .str r.hash), ("isDirectory", .bool r.isDirectory)]

/-- What a record must look like; `directory` is another name of `isDirectory`. -/
def shape : Json.Shape :=
  .record "ModFileRecord" [.req "hash" (.text "a string"), .mk "isDirectory" ["directory"] .bool none]

def ofJson (j : Json) : FileRecord :=
  ⟨((j.field? "hash").bind Json.str?).getD "", ((j.field? "isDirectory").bind Json.bool?).getD false⟩

end FileRecord

/-- A path as a catalog keeps it: forward slashes, no outer slashes. -/
def cleanKeyPath (path : String) : String :=
  String.ofList (Text.trimBoth '/' (Text.unifySlashes path.toList))

/-- The key a path is stored under. -/
def catalogKey (path : String) : String := Path.foldKey (cleanKeyPath path)

/-- A record with the spelling its path was stored with. -/
structure CatalogEntry where
  path : String
  record : FileRecord
  deriving DecidableEq, Repr

/-- The catalog of one sync path. -/
structure PathCatalog where
  entries : KeyMap CatalogEntry := []
  deriving DecidableEq, Repr, Inhabited

namespace PathCatalog

def empty : PathCatalog := {}

/-- Inserts or replaces a record; the replaced record, if any. -/
def insert (c : PathCatalog) (path : String) (r : FileRecord) : PathCatalog × Option FileRecord :=
  let p := cleanKeyPath path
  let k := Path.foldKey p
  ({ entries := c.entries.insert k ⟨p, r⟩ }, (c.entries.find? k).map (·.record))

def add (c : PathCatalog) (path : String) (r : FileRecord) : PathCatalog := (c.insert path r).1

/-- The stored spelling and record of a path. -/
def entry (c : PathCatalog) (path : String) : Option CatalogEntry := c.entries.find? (catalogKey path)

def get (c : PathCatalog) (path : String) : Option FileRecord := (c.entry path).map (·.record)

def contains (c : PathCatalog) (path : String) : Bool := (c.get path).isSome

/-- Removes a path; its record, if it had one. -/
def remove (c : PathCatalog) (path : String) : PathCatalog × Option FileRecord :=
  let k := catalogKey path
  ({ entries := c.entries.erase k }, (c.entries.find? k).map (·.record))

/-- Whether some entry lies strictly below the directory `dir`. Only the first
key at or after `key(dir) ++ "/"` is looked at: the keys that start with it
follow it directly in key order. -/
def hasDescendant (c : PathCatalog) (dir : String) : Bool :=
  let pre := catalogKey dir ++ "/"
  (c.entries.firstFrom? pre).any fun e => pre.toList.isPrefixOf e.1.toList

/-- Keeps the entries whose stored path and record pass `keep`. -/
def retain (c : PathCatalog) (keep : String → FileRecord → Bool) : PathCatalog :=
  { entries := c.entries.filter fun (_, e) => keep e.path e.record }

def len (c : PathCatalog) : Nat := c.entries.length

def isEmpty (c : PathCatalog) : Bool := c.entries.isEmpty

def fileCount (c : PathCatalog) : Nat := (c.entries.filter fun (_, e) => !e.record.isDirectory).length

/-- Stored paths and records in key order. -/
def toList (c : PathCatalog) : List (String × FileRecord) := c.entries.map fun (_, e) => (e.path, e.record)

/-- A catalog of pairs inserted in order. -/
def ofList (xs : List (String × FileRecord)) : PathCatalog :=
  xs.foldl (fun c (p, r) => c.add p r) empty

/-- The plain map form: stored path to record, in the byte order of the paths. -/
def toMap (c : PathCatalog) : KeyMap FileRecord := KeyMap.collect c.toList

/-- The iteration form: `[[path, record], ...]` in key order. -/
def iterJson (c : PathCatalog) : Json :=
  .arr (c.toList.map fun (p, r) => .arr [.str p, r.toJson])

/-- The stored form: an object from stored path to record. -/
def toJson (c : PathCatalog) : Json :=
  .obj (Json.sortFields (c.toList.map fun (p, r) => (p, r.toJson)))

/-- What a stored catalog must look like. -/
def shape : Json.Shape := .dict FileRecord.shape

/-- A catalog from its decoded form, entries inserted in key order of the object. -/
def ofJson (j : Json) : PathCatalog :=
  ofList (((j.obj?).getD []).map fun (p, v) => (p, FileRecord.ofJson v))

end PathCatalog

/-- A catalog with the spelling of its sync path. -/
structure CatalogSlot where
  syncPath : String
  catalog : PathCatalog
  deriving DecidableEq, Repr

/-- Catalogs of several sync paths, keyed by folded sync path. -/
structure CatalogSet where
  slots : KeyMap CatalogSlot := []
  deriving DecidableEq, Repr, Inhabited

namespace CatalogSet

def empty : CatalogSet := {}

/-- Inserts or replaces the catalog of a sync path; the replaced one, if any. -/
def insert (s : CatalogSet) (syncPath : String) (c : PathCatalog) : CatalogSet × Option PathCatalog :=
  let p := cleanKeyPath syncPath
  let k := Path.foldKey p
  ({ slots := s.slots.insert k ⟨p, c⟩ }, (s.slots.find? k).map (·.catalog))

/-- Inserts or replaces the catalog of a sync path. -/
def add (s : CatalogSet) (syncPath : String) (c : PathCatalog) : CatalogSet := (s.insert syncPath c).1

def get (s : CatalogSet) (syncPath : String) : Option PathCatalog :=
  (s.slots.find? (catalogKey syncPath)).map (·.catalog)

/-- The catalog of a sync path, empty when there is none. -/
def getOrEmpty (s : CatalogSet) (syncPath : String) : PathCatalog := (s.get syncPath).getD {}

/-- Removes a sync path; its catalog, if it had one. -/
def remove (s : CatalogSet) (syncPath : String) : CatalogSet × Option PathCatalog :=
  let k := catalogKey syncPath
  ({ slots := s.slots.erase k }, (s.slots.find? k).map (·.catalog))

/-- Sync paths and catalogs in key order. -/
def toList (s : CatalogSet) : List (String × PathCatalog) := s.slots.map fun (_, e) => (e.syncPath, e.catalog)

/-- The set of a plain map, sync paths inserted in key order. -/
def ofMap (m : KeyMap PathCatalog) : CatalogSet := m.foldl (fun s e => s.add e.1 e.2) empty

/-- The plain map form: stored sync path to catalog, in the byte order of the paths. -/
def toMap (s : CatalogSet) : KeyMap PathCatalog := KeyMap.collect s.toList

/-- Replaces the catalogs of every sync path present in `other`. -/
def merge (s other : CatalogSet) : CatalogSet :=
  other.toList.foldl (fun acc (p, c) => acc.add p c) s

def len (s : CatalogSet) : Nat := s.slots.length

def isEmpty (s : CatalogSet) : Bool := s.slots.isEmpty

/-- Number of records over all sync paths. -/
def entryCount (s : CatalogSet) : Nat := (s.toList.map fun (_, c) => c.len).foldr (· + ·) 0

/-- The iteration form: `[[sync_path, catalog_iter], ...]`. -/
def iterJson (s : CatalogSet) : Json := .arr (s.toList.map fun (p, c) => .arr [.str p, c.iterJson])

/-- The stored form: an object from sync path to stored catalog. -/
def toJson (s : CatalogSet) : Json := .obj (Json.sortFields (s.toList.map fun (p, c) => (p, c.toJson)))

/-- What a stored set must look like. -/
def shape : Json.Shape := .dict PathCatalog.shape

/-- A set from its decoded form, sync paths inserted in key order of the object. -/
def ofJson (j : Json) : CatalogSet :=
  ((j.obj?).getD []).foldl (fun s (p, v) => s.add p (PathCatalog.ofJson v)) empty

end CatalogSet

theorem PathCatalog.get_insert_self (c : PathCatalog) (p : String) (r : FileRecord) :
    (c.add p r).get p = some r := by
  simp [PathCatalog.add, PathCatalog.insert, PathCatalog.get, PathCatalog.entry, catalogKey,
    KeyMap.find?_insert_self]

end ModMirror
