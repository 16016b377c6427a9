/-!
# Entries

An ordered dictionary with text keys, kept as a list of pairs. Putting a value under a key that is
present replaces the value and keeps the place; a new key goes to the end. Every dictionary of the
library is of this form: object attributes, bound values and alias tables keep the order in which
they were written.
-/

namespace AqlBuilder

/-- Pairs of a key and a value, in order. -/
abbrev Entries (α : Type) := List (String × α)

namespace Entries

variable {α β : Type}

/-- The value under a key. -/
def get? (key : String) : Entries α → Option α
  | [] => none
  | (k, v) :: rest => if k = key then some v else get? key rest

/-- Whether the key is present. -/
def has (key : String) (entries : Entries α) : Bool := (entries.get? key).isSome

/-- The entries with a value under a key. -/
def put (key : String) (value : α) : Entries α → Entries α
  | [] => [(key, value)]
  | (k, v) :: rest => if k = key then (key, value) :: rest else (k, v) :: put key value rest

/-- The entries with all given pairs put one after another. -/
def putAll (entries pairs : Entries α) : Entries α :=
  pairs.foldl (fun acc (k, v) => put k v acc) entries

/-- The dictionary of a list of pairs: a repeated key keeps its first place and its last value. -/
def ofPairs (pairs : Entries α) : Entries α := putAll [] pairs

/-- The keys in order. -/
def keys (entries : Entries α) : List String := entries.map Prod.fst

/-- The pair in its place among pairs sorted by key. -/
def insertSorted (pair : String × α) : Entries α → Entries α
  | [] => [pair]
  | other :: rest => if pair.1 ≤ other.1 then pair :: other :: rest
    else other :: insertSorted pair rest

/-- The entries in the order of their keys. -/
def sorted (entries : Entries α) : Entries α := entries.foldr insertSorted []

end Entries

end AqlBuilder
