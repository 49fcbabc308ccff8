import ModMirror.Toml.Syntax

/-!
# Assembling a document from its lines

Key-value lines and headers are placed into the table tree one at a time.
Each header opens a table that receives the lines after it; the table joins
the tree when the next header comes or the text ends, so a header can still
take over a table that an earlier header made only as a parent.

The rules that decide what may be placed where:

* a key may be defined once in its table;
* a header may not open a table defined before, unless that table was made
  only as the parent of another header;
* a dotted key extends tables made by dotted keys, never a header's table,
  and no key runs through a value that is not a table;
* an array-of-tables header adds a table to its array each time.

A line placed wrongly is a `Clash`, whose message names the key.
-/

namespace ModMirror.Toml

/-- A key as written: its name, its text in the document and its span. -/
structure Key where
  name : String
  raw : String
  span : Span
  deriving Inhabited

/-- Why a line cannot be placed. -/
inductive Clash where
  /-- A key defined twice; `table` is the path it was defined under, when known. -/
  | duplicate (key : String) (table : Option (List String))
  /-- A key path running through a value that is not a table. -/
  | extendsValue (path : List String) (actual : String)
  deriving Repr

/-- The message of a clash. -/
def Clash.message : Clash → String
  | .duplicate k none => "duplicate key `" ++ k ++ "`"
  | .duplicate k (some []) => "duplicate key `" ++ k ++ "` in document root"
  | .duplicate k (some p) => "duplicate key `" ++ k ++ "` in table `" ++ ".".intercalate p ++ "`"
  | .extendsValue p a =>
    "dotted key `" ++ ".".intercalate p ++ "` attempted to extend non-table type (" ++ a ++ ")"

/-- The entries of a table: name, span of the key that made it, value. -/
abbrev Entries := List (String × Span × Node)

namespace TableKind

/-- Tables made on the way to something else, which later lines may still extend. -/
def isImplicit : TableKind → Bool
  | .implicit | .dotted => true
  | _ => false

end TableKind

/-- A header clash on the key at position `i` of a header path: the key as
written, under the names before it. -/
def headerClash (path : List Key) (i : Nat) : Clash :=
  .duplicate ((path[i]?.map Key.raw).getD "") (some ((path.take i).map Key.name))

/-- Replaces the value of an entry, keeping its key span. -/
def setEntry (name : String) (v : Node) (es : Entries) : Entries :=
  es.map fun e => if e.1 == name then (name, e.2.1, v) else e

/-- Runs `step` on the table a key path leads to below a table, creating the
tables that are missing: dotted ones when `dotted`, implicit ones otherwise.
An array of tables is entered at its last table. Inside an inline table
(`inline`), inline tables are tables; elsewhere they are values. -/
def alterAt {β : Type} (inline dotted : Bool) (step : Node → Except Clash (Node × β)) :
    List String → List Key → Node → Except Clash (Node × β)
  | _, [], node => step node
  | seen, k :: ks, .table entries kind span => do
    let path := seen ++ [k.name]
    match entries.find? (·.1 == k.name) with
    | none =>
      let fresh := Node.emptyTable (if dotted then .dotted else .implicit)
      let (child, b) ← alterAt inline dotted step path ks fresh
      pure (.table (entries ++ [(k.name, k.span, child)]) kind span, b)
    | some (_, _, child) =>
      match child with
      | .tables items =>
        match items.getLast? with
        | some last =>
          let (last', b) ← alterAt inline dotted step path ks last
          pure (.table (setEntry k.name (.tables (items.dropLast ++ [last'])) entries) kind span, b)
        | none => .error (.duplicate k.name none)
      | .table childEntries childKind childSpan =>
        if childKind == .inline && !inline then .error (.extendsValue path child.typeName)
        else if dotted && !(childKind.isImplicit) then .error (.duplicate k.name none)
        else do
          let (child', b) ← alterAt inline dotted step path ks (.table childEntries childKind childSpan)
          pure (.table (setEntry k.name child' entries) kind span, b)
      | other => .error (.extendsValue path other.typeName)
  | _, k :: _, _ => .error (.duplicate k.name none)

/-- Adds `key = v` under a key path of a table: the table the path leads to
must be a dotted one exactly when the path is not empty, and must not hold
the key yet. `scope` is how a repeated key names its table. -/
def placeValue (inline : Bool) (scope : Option (List String)) (path : List Key) (key : Key) (v : Node)
    (t : Node) : Except Clash Node := do
  let (t', _) ← alterAt inline true (fun
    | .table entries kind span =>
      if (kind == .dotted) == path.isEmpty then .error (.duplicate key.name none)
      else if (entries.find? (·.1 == key.name)).isSome then .error (.duplicate key.name scope)
      else .ok (.table (entries ++ [(key.name, key.span, v)]) kind span, ())
    | _ => .error (.duplicate key.name none)) [] path t
  pure t'

/-- The entries of an inline table from its key-value pairs, in order. -/
def assembleInline (pairs : List (List Key × Key × Node)) : Except Clash Entries := do
  let t ← pairs.foldlM (fun t (path, key, v) => placeValue true none path key v t) (Node.emptyTable .inline)
  match t with
  | .table entries _ _ => pure entries
  | _ => pure []

/-- A document being read: the tables placed so far, and the table the last
header opened (the document's own table before any header). -/
structure Builder where
  root : Node
  current : Node
  /-- The header path of the current table; empty for the document's own table. -/
  path : List Key
  /-- Whether the current table belongs to an array of tables. -/
  isArray : Bool

namespace Builder

/-- The state before the first line: the document's own table is current. -/
def start : Builder :=
  { root := .emptyTable .explicit, current := .table [] .explicit (some ⟨0, 0⟩), path := [], isArray := false }

/-- Places the current table into the tree. -/
def close (b : Builder) : Except Clash Node :=
  match b.path.getLast? with
  | none => .ok b.current
  | some key => do
    let (root, _) ← alterAt false false (fun
      | .table entries kind span =>
        match entries.find? (·.1 == key.name), b.isArray with
        | none, true => .ok (.table (entries ++ [(key.name, key.span, .tables [b.current])]) kind span, ())
        | some (_, _, .tables items), true =>
          .ok (.table (setEntry key.name (.tables (items ++ [b.current])) entries) kind span, ())
        | none, false => .ok (.table (entries ++ [(key.name, key.span, b.current)]) kind span, ())
        | some (_, _, .table _ k _), false =>
          if k.isImplicit then .ok (.table (setEntry key.name b.current entries) kind span, ())
          else .error (headerClash b.path (b.path.length - 1))
        | some _, _ => .error (headerClash b.path (b.path.length - 1))
      | _ => .error (headerClash b.path (b.path.length - 1))) [] b.path.dropLast b.root
    pure root

/-- Opens the table of a header (`[[path]]` when `isArray`) whose text spans `span`. -/
def openTable (b : Builder) (isArray : Bool) (path : List Key) (span : Span) : Except Clash Builder := do
  let root ← b.close
  let some key := path.getLast? | .error (.duplicate "" none)
  let clash := headerClash path (path.length - 1)
  if isArray then
    let (root, _) ← alterAt false false (fun
      | .table entries kind span' =>
        match entries.find? (·.1 == key.name) with
        | none => .ok (.table (entries ++ [(key.name, key.span, .tables [])]) kind span', ())
        | some (_, _, .tables _) => .ok (.table entries kind span', ())
        | some _ => .error clash
      | _ => .error clash) [] path.dropLast root
    pure { root, current := .table [] .explicit (some span), path, isArray := true }
  else
    let (root, taken) ← alterAt false false (fun
      | .table entries kind span' =>
        .ok (.table (entries.filter (·.1 != key.name)) kind span', (entries.find? (·.1 == key.name)).map (·.2.2))
      | _ => .error clash) [] path.dropLast root
    match taken with
    | none => pure { root, current := .table [] .explicit (some span), path, isArray := false }
    | some (.table entries .implicit _) => pure { root, current := .table entries .explicit (some span), path, isArray := false }
    | some _ => .error clash

/-- Adds a key-value line to the current table, whose span then reaches the value's end. -/
def addKeyval (b : Builder) (path : List Key) (key : Key) (v : Node) : Except Clash Builder := do
  let current := match b.current, v.span? with
    | .table es k (some s), some vs => .table es k (some ⟨s.start, vs.stop⟩)
    | c, _ => c
  let current ← placeValue false (some (path.map Key.name)) path key v current
  pure { b with current }

def finish (b : Builder) : Except Clash Node := b.close

end Builder

end ModMirror.Toml
