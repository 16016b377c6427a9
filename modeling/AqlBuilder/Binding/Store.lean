import AqlBuilder.Binding.Placeholder

/-!
# Binding store

Each query keeps its bound values in a store. A store has the number of its query and counts the
values of each category, so that the names it gives are new: two stores with different numbers
never give the same name. Values are cast when they enter the store.

- `add` files a value under a new name.
- `merge` takes over the values of another store under their names.
- `flatten` lists all values in the order of their categories.
-/

namespace AqlBuilder

/-- The bound values of a query. -/
structure Store where
  /-- The number of the query. -/
  id : Nat
  /-- The bound values of each category. -/
  bound : Category → Bindings
  /-- How many names were given in each category. -/
  given : Category → Nat

namespace Store

-- Sums of numbers are those of core, whatever else is imported.
attribute [local instance (2000)] Zero.ofOfNat0

/-- A store without values. -/
def empty (id : Nat) : Store := ⟨id, fun _ => [], fun _ => 0⟩

/-- The store with the values of one category replaced as given. -/
def withCategory (store : Store) (category : Category) (values : Bindings) : Store :=
  { store with bound := fun c => if c = category then values else store.bound c }

/-- The name that the next value of a category gets. -/
def nextName (store : Store) (category : Category) : String :=
  placeholderName store.id category (store.given category + 1)

/-- File a value under a new name. -/
def add (store : Store) (value : Value) (category : Category) : String × Store :=
  let name := store.nextName category
  let store := store.withCategory category ((store.bound category).put name value.cast)
  (name, { store with given := fun c => if c = category then store.given c + 1 else store.given c })

/-- Replace all values of a category. -/
def set (store : Store) (values : Bindings) (category : Category) : Store :=
  store.withCategory category (Entries.ofPairs (values.map fun (name, value) => (name, value.cast)))

/-- Take over the values of another store, all under one category if it is given and otherwise each
under its own. -/
def merge (store other : Store) (category : Option Category) : Store :=
  Category.all.foldl
    (fun store origin =>
      let target := category.getD origin
      store.withCategory target ((store.bound target).putAll (other.bound origin)))
    store

/-- All values in the order of their categories; a name that occurs in several of them keeps its
first place and its last value. -/
def flatten (store : Store) : Bindings :=
  Entries.ofPairs (Category.all.flatMap store.bound)

/-- The same values under another query number, with names counted from the beginning. -/
def renumber (store : Store) (id : Nat) : Store := { store with id := id, given := fun _ => 0 }

/-- The number of values in all categories. -/
def size (store : Store) : Nat := (Category.all.map fun c => (store.bound c).length).sum

/-- Whether there are no values. -/
def isEmpty (store : Store) : Bool := Category.all.all fun c => (store.bound c).isEmpty

end Store

end AqlBuilder
