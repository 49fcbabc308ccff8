/-!
# Maps with text keys

A `KeyMap` is a list of key–value pairs kept in strictly increasing key
order (the byte order of the keys' UTF-8 forms). Inserting replaces the
value of an equal key in place, so iteration always follows key order.

    find? k (insert k v m) = some v                      (find?_insert_self)
    firstFrom? k m = the pair of the least key at or after k, in a map in key order
-/

namespace ModMirror

abbrev KeyMap (α : Type) := List (String × α)

namespace KeyMap

variable {α : Type}

/-- Inserts or replaces the value of a key. -/
def insert (k : String) (v : α) : KeyMap α → KeyMap α
  | [] => [(k, v)]
  | (k', v') :: rest =>
    if k < k' then (k, v) :: (k', v') :: rest
    else if k = k' then (k, v) :: rest
    else (k', v') :: insert k v rest

def find? (k : String) : KeyMap α → Option α
  | [] => none
  | (k', v) :: rest => if k = k' then some v else find? k rest

/-- The first pair whose key is not below `k`. In a map in key order this is
the pair of the least key at or after `k`, where an ordered range from `k`
starts. -/
def firstFrom? (k : String) : KeyMap α → Option (String × α)
  | [] => none
  | (k', v) :: rest => if k ≤ k' then some (k', v) else firstFrom? k rest

def erase (k : String) : KeyMap α → KeyMap α
  | [] => []
  | (k', v) :: rest => if k = k' then rest else (k', v) :: erase k rest

def values (m : KeyMap α) : List α := m.map Prod.snd

/-- The map of pairs inserted in order: the last of equal keys wins. -/
def collect (l : List (String × α)) : KeyMap α := l.foldl (fun m e => insert e.1 e.2 m) []

theorem find?_insert_self (k : String) (v : α) (m : KeyMap α) : find? k (insert k v m) = some v := by
  induction m with
  | nil => simp [insert, find?]
  | cons p rest ih =>
    obtain ⟨k', v'⟩ := p
    by_cases h1 : k < k'
    · simp [insert, find?, h1]
    · by_cases h2 : k = k'
      · simp [insert, find?, h2]
      · simp [insert, find?, h1, h2, ih]

end KeyMap

end ModMirror
