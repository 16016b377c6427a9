import AqlBuilder.Proofs.Binding.Ledger

/-!
# The names that a store has

A store only gains names, but for one operation: what is filed under the category of the projection
is forgotten when something else is selected. So the names of a store are told apart by whether they
stay.

- `Store.names` and `Store.kept`: all names of a store, and those that stay.
- `Store.Grows`: filing and merging take no name away.
- `Store.names_subset_merge`: merging brings all names of the other store.
- `Store.mem_keys_add`, `Store.mem_keys_merged`: no other names come in.
-/

namespace AqlBuilder.Store

/-- The names in a store. -/
def names (s : Store) : Set String := { name | s.Named name }

/-- The names in a store that selecting something else does not take away. -/
def kept (s : Store) : Set String := { name | ∃ c ≠ Category.select, name ∈ (s.bound c).keys }

/-- A store that has at least the names of another one, each where it was. -/
def Grows (s t : Store) : Prop := ∀ c, ∀ name ∈ (s.bound c).keys, name ∈ (t.bound c).keys

variable {s t u : Store}

theorem kept_subset_names (s : Store) : s.kept ⊆ s.names :=
  fun _ ⟨c, _, hname⟩ => ⟨c, hname⟩

theorem Grows.refl (s : Store) : s.Grows s := fun _ _ h => h

theorem Grows.trans (h : s.Grows t) (h' : t.Grows u) : s.Grows u :=
  fun c name hname => h' c name (h c name hname)

theorem Grows.kept (h : s.Grows t) : s.kept ⊆ t.kept :=
  fun name ⟨c, hc, hname⟩ => ⟨c, hc, h c name hname⟩

theorem Grows.names (h : s.Grows t) : s.names ⊆ t.names :=
  fun name ⟨c, hname⟩ => ⟨c, h c name hname⟩

/-- The names of a store are those of all its categories together. -/
theorem mem_keys_flatten {s : Store} {name : String} : name ∈ s.flatten.keys ↔ name ∈ s.names := by
  rw [flatten, Entries.mem_keys_ofPairs]
  simp only [Entries.keys, List.map_flatMap, List.mem_flatMap]
  constructor
  · rintro ⟨c, -, hname⟩
    exact ⟨c, hname⟩
  · rintro ⟨c, hname⟩
    exact ⟨c, c.mem_all, hname⟩

/-- Filing a value takes no name away. -/
theorem grows_add (s : Store) (v : Value) (category : Category) :
    s.Grows (s.add v category).2 := by
  intro c name hname
  rw [bound_add]
  by_cases hc : c = category
  · rw [if_pos hc, ← hc]
    exact Entries.mem_keys_put.mpr (Or.inl hname)
  · rw [if_neg hc]
    exact hname

/-- Taking over the values of a category takes no name away. -/
theorem grows_mergeFrom (s other : Store) (category : Option Category) (origin : Category) :
    s.Grows (mergeFrom other category s origin) := by
  intro c name hname
  rw [mergeFrom, bound_withCategory]
  by_cases hc : c = category.getD origin
  · rw [if_pos hc, ← hc]
    exact Entries.mem_keys_putAll.mpr (Or.inl hname)
  · rw [if_neg hc]
    exact hname

/-- Taking over the values of several categories takes no name away. -/
theorem grows_mergeAll (s other : Store) (category : Option Category) (origins : List Category) :
    s.Grows (origins.foldl (mergeFrom other category) s) := by
  induction origins generalizing s with
  | nil => exact .refl s
  | cons origin rest ih => exact (s.grows_mergeFrom other category origin).trans (ih _)

/-- Merging another store takes no name away. -/
theorem grows_merge (s other : Store) (category : Option Category) :
    s.Grows (s.merge other category) :=
  s.grows_mergeAll other category Category.all

/-- The name that is given to a value is under its category afterwards. -/
theorem nextName_mem_add (s : Store) (v : Value) (category : Category) :
    s.nextName category ∈ ((s.add v category).2.bound category).keys := by
  rw [bound_add, if_pos rfl]
  exact Entries.mem_keys_put.mpr (Or.inr rfl)

theorem isName_nextName (s : Store) (category : Category) : IsName (s.nextName category) :=
  isName_placeholderName s.id category (s.given category + 1)

/-- Merging under one category brings all names of the other store there. -/
theorem names_subset_merge (s other : Store) (category : Category) :
    ∀ name ∈ other.names, name ∈ ((s.merge other (some category)).bound category).keys := by
  rintro name ⟨origin, hname⟩
  rw [merge_eq]
  have horigin := origin.mem_all
  generalize Category.all = origins at horigin
  induction origins generalizing s with
  | nil => cases horigin
  | cons first rest ih =>
      rcases List.mem_cons.mp horigin with rfl | hrest
      · have hmerged : name ∈ ((mergeFrom other (some category) s origin).bound category).keys := by
          rw [mergeFrom, bound_withCategory, Option.getD_some, if_pos rfl]
          exact Entries.mem_keys_putAll.mpr (Or.inr hname)
        exact grows_mergeAll _ other (some category) rest category name hmerged
      · exact ih _ hrest

/-- Filing a value adds one name, under its category. -/
theorem mem_keys_add {k c : Category} {v : Value} {name : String}
    (h : name ∈ ((s.add v k).2.bound c).keys) :
    name ∈ (s.bound c).keys ∨ c = k ∧ name = s.nextName k := by
  rw [bound_add] at h
  split at h
  · rename_i hc
    rcases Entries.mem_keys_put.mp h with hold | hnew
    · exact .inl (hc ▸ hold)
    · exact .inr ⟨hc, hnew⟩
  · exact .inl h

/-- Merging under one category adds the names of the other store there. -/
theorem mem_keys_merged {k c : Category} {other : Store} {name : String}
    (h : name ∈ ((s.merge other (some k)).bound c).keys) :
    name ∈ (s.bound c).keys ∨ c = k ∧ ∃ origin, name ∈ (other.bound origin).keys := by
  revert h
  refine merge_induction (motive := fun t => name ∈ (t.bound c).keys →
    name ∈ (s.bound c).keys ∨ c = k ∧ ∃ origin, name ∈ (other.bound origin).keys)
    .inl fun t origin ih h => ?_
  rw [mergeFrom, bound_withCategory, Option.getD_some] at h
  split at h
  · rename_i hc
    rcases Entries.mem_keys_putAll.mp h with hold | hnew
    · exact ih (hc ▸ hold)
    · exact .inr ⟨hc, origin, hnew⟩
  · exact ih h

/-- If all names of a store are names, they are so with one more value. -/
theorem names_add {v : Value} {category : Category} (h : ∀ name ∈ s.names, IsName name) :
    ∀ name ∈ (s.add v category).2.names, IsName name := by
  intro name hname
  obtain ⟨w, hw⟩ := named_iff_holds.mp hname
  rcases holds_add hw with hold | ⟨rfl, -⟩
  · exact h name hold.named
  · exact s.isName_nextName category

/-- If all names of two stores are names, so are those of the two merged. -/
theorem names_merge {other : Store} {category : Option Category}
    (h : ∀ name ∈ s.names, IsName name) (hother : ∀ name ∈ other.names, IsName name) :
    ∀ name ∈ (s.merge other category).names, IsName name := by
  intro name hname
  obtain ⟨v, hv⟩ := named_iff_holds.mp hname
  rcases holds_merge hv with hold | hnew
  · exact h name hold.named
  · exact hother name hnew.named

/-- If all names of a store are names, so are those without a category. -/
theorem names_clear {category : Category} (h : ∀ name ∈ s.names, IsName name) :
    ∀ name ∈ (s.set [] category).names, IsName name := by
  intro name hname
  obtain ⟨v, hv⟩ := named_iff_holds.mp hname
  exact h name (holds_clear hv).named

/-- Forgetting the names of the projection keeps all others. -/
theorem kept_clear (s : Store) : (s.set [] .select).kept = s.kept := by
  ext name
  constructor
  · rintro ⟨c, hc, hname⟩
    rw [bound_set, if_neg hc] at hname
    exact ⟨c, hc, hname⟩
  · rintro ⟨c, hc, hname⟩
    refine ⟨c, hc, ?_⟩
    rw [bound_set, if_neg hc]
    exact hname

end AqlBuilder.Store

/-!
## Values filed one after another

A store gives its names in order. As long as it has none of the names that it is yet to give, a
value that is filed is the only one under its name, and it stays so whatever is filed after it.

- `Store.Unspent`: no name is taken that the store is yet to give. The stores of a sound ledger are
  like that.
- `Store.Fixes`: a name stands for one value.
- `Store.fixes_addAll`: what becomes of values that are filed one after another.
-/

namespace AqlBuilder

namespace Store

/-- A store that has none of the names that it is yet to give. -/
def Unspent (s : Store) : Prop :=
  ∀ category k, s.given category < k → ¬ s.Named (placeholderName s.id category k)

/-- A name of a store that stands for one value, in whatever categories it is. -/
structure Fixes (s : Store) (name : String) (v : Value) : Prop where
  holds : s.Holds name v
  eq : ∀ w, s.Holds name w → w = v

/-- File the values of some attributes one after another. The result is each attribute with the name
of its value, and the store. -/
def addAll (s : Store) (category : Category) : Entries Value → Entries String × Store
  | [] => ([], s)
  | (key, v) :: rest =>
    let named := (s.add v category).2.addAll category rest
    ((key, s.nextName category) :: named.1, named.2)

variable {s : Store} {name : String} {v w : Value} {category : Category} {pairs : Entries Value}

/-- A name with one value is listed with this value. -/
theorem Fixes.get?_flatten (h : s.Fixes name v) : s.flatten.get? name = some v := by
  obtain ⟨w, hw⟩ := Entries.exists_get?.mpr (mem_keys_flatten.mpr h.holds.named)
  obtain ⟨c, -, hc⟩ := List.mem_flatMap.mp (Entries.mem_ofPairs (Entries.mem_of_get? hw))
  rw [hw, h.eq w ⟨c, hc⟩]

theorem unspent_empty (id : Nat) : (empty id).Unspent := by
  rintro category k - ⟨c, hc⟩
  cases hc

/-- A name that is yet to be given is not in the store. -/
theorem Unspent.nextName (h : s.Unspent) (category : Category) :
    ¬ s.Named (s.nextName category) :=
  h category _ (Nat.lt_succ_self _)

/-- Filing a value leaves no name in the store that it is yet to give. -/
theorem Unspent.add (h : s.Unspent) (v : Value) (category : Category) :
    (s.add v category).2.Unspent := by
  intro c k hk hnamed
  rw [given_add] at hk
  rw [id_add] at hnamed
  obtain ⟨w, hw⟩ := named_iff_holds.mp hnamed
  rcases holds_add hw with hold | ⟨hname, -⟩
  · refine h c k ?_ hold.named
    split at hk <;> omega
  · obtain ⟨-, rfl, rfl⟩ := placeholderName_inj hname
    rw [if_pos rfl] at hk
    omega

/-- The value that is filed is the one under the name that it gets. -/
theorem Unspent.fixes_nextName (h : s.Unspent) (v : Value) (category : Category) :
    (s.add v category).2.Fixes (s.nextName category) v.cast := by
  have hnew : ∀ w, (s.add v category).2.Holds (s.nextName category) w → w = v.cast := by
    intro w hw
    rcases holds_add hw with hold | ⟨-, hw⟩
    · exact absurd hold.named (h.nextName category)
    · exact hw
  obtain ⟨w, hw⟩ := named_iff_holds.mp ⟨category, s.nextName_mem_add v category⟩
  exact ⟨hnew w hw ▸ hw, hnew⟩

/-- Filing a value does not touch the others. -/
theorem Fixes.add (h : s.Fixes name w) (hunspent : s.Unspent) (v : Value) (category : Category) :
    (s.add v category).2.Fixes name w := by
  have hold : ∀ x, (s.add v category).2.Holds name x → x = w := by
    intro x hx
    rcases holds_add hx with hx | ⟨rfl, -⟩
    · exact h.eq x hx
    · exact absurd h.holds.named (hunspent.nextName category)
  obtain ⟨x, hx⟩ := named_iff_holds.mp ((s.grows_add v category).names h.holds.named)
  exact ⟨hold x hx ▸ hx, hold⟩

/-- A name that stands for one value still does when more values are filed. -/
theorem Fixes.addAll (h : s.Fixes name w) (hunspent : s.Unspent) (category : Category)
    (pairs : Entries Value) : (s.addAll category pairs).2.Fixes name w := by
  induction pairs generalizing s with
  | nil => exact h
  | cons pair rest ih => exact ih (h.add hunspent pair.2 category) (hunspent.add pair.2 category)

/-- Each of the names that are given stands for its value. -/
theorem fixes_addAll (h : s.Unspent) (category : Category) (pairs : Entries Value) :
    Entries.Related (fun name v => (s.addAll category pairs).2.Fixes name v.cast)
      (s.addAll category pairs).1 pairs := by
  induction pairs generalizing s with
  | nil => exact .nil
  | cons pair rest ih =>
      have hnext := h.add pair.2 category
      exact .cons ⟨rfl, (h.fixes_nextName pair.2 category).addAll hnext category rest⟩ (ih hnext)

/-- The names that attributes get are names. -/
theorem isName_of_mem_addAll {named : String × String} (h : named ∈ (s.addAll category pairs).1) :
    IsName named.2 := by
  induction pairs generalizing s with
  | nil => cases h
  | cons pair rest ih =>
      rcases List.mem_cons.mp h with rfl | hrest
      · exact s.isName_nextName category
      · exact ih hrest

end Store

/-- No store of a sound ledger has a name that it is yet to give. -/
theorem Ledger.Sound.unspent {L : Ledger} (h : L.Sound) {s : Store} (hs : s ∈ L.stores) :
    s.Unspent := by
  intro category k hk hnamed
  obtain ⟨i, c, l, hname, -, hgiven⟩ := h.issued s hs _ hnamed
  obtain ⟨rfl, rfl, rfl⟩ := placeholderName_inj hname
  have hcounted := hgiven s hs rfl
  omega

end AqlBuilder
