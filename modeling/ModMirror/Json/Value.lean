/-!
# JSON values

A JSON document as the library holds it. Numbers keep the three forms a
reader distinguishes: a natural number that fits 64 bits, a negative integer
that fits 64 bits, and a double for everything else. Objects keep their
fields in order; a value read as a free-form document has its keys sorted by
their bytes with the last of equal keys kept (`Json.insertField`).

    (insertField k v fs).lookup k = some v                 (lookup_insertField)
-/

namespace ModMirror

/-- A JSON number. -/
inductive JsonNumber where
  /-- A natural number below `2^64`. -/
  | nat (n : Nat)
  /-- A negative integer not below `-2^63`. -/
  | negInt (n : Int)
  /-- Any other number, as a double. -/
  | float (x : Float)
  deriving Inhabited

/-- A JSON value. -/
inductive Json where
  | null
  | bool (b : Bool)
  | num (n : JsonNumber)
  | str (s : String)
  | arr (items : List Json)
  | obj (fields : List (String × Json))
  deriving Inhabited

namespace Json

/-- A natural number as a JSON value. -/
def ofNat (n : Nat) : Json := .num (.nat n)

/-- A string list as a JSON array. -/
def ofStrings (xs : List String) : Json := .arr (xs.map .str)

/-- An optional string, `null` when absent. -/
def ofOptString : Option String → Json
  | some s => .str s
  | none => .null

/-- Adds a field to fields sorted by key, replacing the value of an equal key. -/
def insertField (k : String) (v : Json) : List (String × Json) → List (String × Json)
  | [] => [(k, v)]
  | (k', v') :: rest =>
    if k < k' then (k, v) :: (k', v') :: rest
    else if k = k' then (k, v) :: rest
    else (k', v') :: insertField k v rest

/-- Fields in the order a sorted map keeps them: by key, the last of equal keys. -/
def sortFields (fs : List (String × Json)) : List (String × Json) :=
  fs.foldl (fun acc (k, v) => insertField k v acc) []

/-- The value of a field of an object. -/
def field? (j : Json) (k : String) : Option Json :=
  match j with
  | .obj fs => fs.lookup k
  | _ => none

/-- A field, where `null` counts as absent. -/
def present? (j : Json) (k : String) : Option Json :=
  match j.field? k with
  | some .null => none
  | r => r

def str? : Json → Option String
  | .str s => some s
  | _ => none

def arr? : Json → Option (List Json)
  | .arr xs => some xs
  | _ => none

def bool? : Json → Option Bool
  | .bool b => some b
  | _ => none

def nat? : Json → Option Nat
  | .num (.nat n) => some n
  | _ => none

/-- An integer value. -/
def int? : Json → Option Int
  | .num (.nat n) => some n
  | .num (.negInt n) => some n
  | _ => none

def obj? : Json → Option (List (String × Json))
  | .obj fs => some fs
  | _ => none

theorem lookup_insertField (k : String) (v : Json) (fs : List (String × Json)) :
    (insertField k v fs).lookup k = some v := by
  induction fs with
  | nil => simp [insertField]
  | cons p rest ih =>
    obtain ⟨k', v'⟩ := p
    unfold insertField
    by_cases h1 : k < k'
    · simp [h1]
    · by_cases h2 : k = k'
      · simp [h2]
      · have : (k == k') = false := by simpa using h2
        simp [h1, h2, List.lookup_cons, this, ih]

end Json

end ModMirror
