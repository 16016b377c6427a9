import AqlBuilder.Binding.Store
import AqlBuilder.Proofs.Entries

/-!
# What the methods of a store do

The fields of a store after each of its methods, and from them where the values of a store can come
from: a value that is there after filing, replacing or merging was there before, was filed, or was
in the store that was merged.

- `Store.Holds` says that a store has a value under a name in some category.
- `Store.holds_add`, `Store.holds_merge` and their neighbours give the values after each method.
- `Store.mem_keys_merge`: merging takes no name away.
- `Store.SameNames` relates two stores with the same names, and `Store.SameNames.add`,
  `Store.SameNames.merge` and `Store.SameNames.set` keep them related.
-/

namespace AqlBuilder

theorem Category.mem_all (category : Category) : category ∈ Category.all := by
  cases category <;> decide

namespace Store

@[simp] theorem bound_withCategory (s : Store) (category c : Category) (values : Bindings) :
    (s.withCategory category values).bound c = if c = category then values else s.bound c := rfl

@[simp] theorem id_add (s : Store) (v : Value) (category : Category) :
    (s.add v category).2.id = s.id := rfl

@[simp] theorem given_add (s : Store) (v : Value) (category c : Category) :
    (s.add v category).2.given c = if c = category then s.given c + 1 else s.given c := rfl

/-- A value is filed under the next name of its category, in native form. -/
@[simp] theorem bound_add (s : Store) (v : Value) (category c : Category) :
    (s.add v category).2.bound c =
      if c = category then (s.bound category).put (s.nextName category) v.cast else s.bound c := rfl

@[simp] theorem id_set (s : Store) (values : Bindings) (category : Category) :
    (s.set values category).id = s.id := rfl

@[simp] theorem given_set (s : Store) (values : Bindings) (category : Category) :
    (s.set values category).given = s.given := rfl

/-- The values of a category are replaced by the given ones in native form. -/
@[simp] theorem bound_set (s : Store) (values : Bindings) (category c : Category) :
    (s.set values category).bound c = if c = category
      then Entries.ofPairs (values.map fun (name, value) => (name, value.cast))
      else s.bound c := rfl

@[simp] theorem bound_renumber (s : Store) (id : Nat) : (s.renumber id).bound = s.bound := rfl

/-- Take over the values of one category. -/
def mergeFrom (other : Store) (category : Option Category) (store : Store) (origin : Category) :
    Store :=
  store.withCategory (category.getD origin)
    ((store.bound (category.getD origin)).putAll (other.bound origin))

/-- Merging takes over the categories one by one. -/
theorem merge_eq (s other : Store) (category : Option Category) :
    s.merge other category = Category.all.foldl (mergeFrom other category) s := rfl

/-- What merging preserves, from what taking over one category preserves. -/
theorem merge_induction {motive : Store → Prop} {s other : Store} {category : Option Category}
    (hs : motive s) (hstep : ∀ t origin, motive t → motive (mergeFrom other category t origin)) :
    motive (s.merge other category) := by
  rw [merge_eq]
  generalize Category.all = origins
  induction origins generalizing s with
  | nil => exact hs
  | cons origin rest ih => exact ih (hstep s origin hs)

/-- Merging leaves the number of the store. -/
@[simp] theorem id_merge (s other : Store) (category : Option Category) :
    (s.merge other category).id = s.id :=
  merge_induction (motive := fun t => t.id = s.id) rfl fun _ _ h => h

/-- Merging leaves the counts of given names. -/
@[simp] theorem given_merge (s other : Store) (category : Option Category) :
    (s.merge other category).given = s.given :=
  merge_induction (motive := fun t => t.given = s.given) rfl fun _ _ h => h

/-- Whether a store has a value under a name, in whatever category. -/
def Holds (s : Store) (name : String) (v : Value) : Prop := ∃ category, (name, v) ∈ s.bound category

/-- Whether a store has a name, in whatever category. -/
def Named (s : Store) (name : String) : Prop := ∃ category, name ∈ (s.bound category).keys

/-- A store that has a value under a name has the name. -/
theorem Holds.named {s : Store} {name : String} {v : Value} (h : s.Holds name v) :
    s.Named name := by
  obtain ⟨category, hv⟩ := h
  exact ⟨category, List.mem_map.mpr ⟨(name, v), hv, rfl⟩⟩

/-- A store has a name just if it has a value under it. -/
theorem named_iff_holds {s : Store} {name : String} : s.Named name ↔ ∃ v, s.Holds name v := by
  constructor
  · rintro ⟨category, hname⟩
    obtain ⟨⟨k, v⟩, hv, rfl⟩ := List.mem_map.mp hname
    exact ⟨v, category, hv⟩
  · rintro ⟨v, hv⟩
    exact hv.named

theorem not_holds_empty {id : Nat} {name : String} {v : Value} : ¬ (empty id).Holds name v := by
  rintro ⟨category, hv⟩
  cases hv

theorem holds_renumber {s : Store} {id : Nat} {name : String} {v : Value} :
    (s.renumber id).Holds name v ↔ s.Holds name v := Iff.rfl

/-- A value in a store after filing one was there, or is the filed one. -/
theorem holds_add {s : Store} {v w : Value} {category : Category} {name : String}
    (h : (s.add v category).2.Holds name w) :
    s.Holds name w ∨ name = s.nextName category ∧ w = v.cast := by
  obtain ⟨c, hc⟩ := h
  rw [bound_add] at hc
  by_cases heq : c = category
  · rw [if_pos heq] at hc
    rcases Entries.mem_put hc with hold | hnew
    · exact Or.inl ⟨category, hold⟩
    · exact Or.inr (Prod.mk.injEq .. ▸ hnew)
  · rw [if_neg heq] at hc
    exact Or.inl ⟨c, hc⟩

/-- Forgetting a category brings no value in. -/
theorem holds_clear {s : Store} {category : Category} {name : String} {v : Value}
    (h : (s.set [] category).Holds name v) : s.Holds name v := by
  obtain ⟨c, hc⟩ := h
  rw [bound_set] at hc
  by_cases heq : c = category
  · rw [if_pos heq] at hc
    cases hc
  · rw [if_neg heq] at hc
    exact ⟨c, hc⟩

/-- A value in a store after merging comes from one of the two stores. -/
theorem holds_merge {s other : Store} {category : Option Category} {name : String} {v : Value}
    (h : (s.merge other category).Holds name v) : s.Holds name v ∨ other.Holds name v := by
  revert h
  refine merge_induction (motive := fun t => t.Holds name v → s.Holds name v ∨ other.Holds name v)
    Or.inl fun t origin ih h => ?_
  obtain ⟨c, hc⟩ := h
  rw [mergeFrom, bound_withCategory] at hc
  by_cases heq : c = category.getD origin
  · rw [if_pos heq] at hc
    rcases Entries.mem_putAll hc with hold | hnew
    · exact ih ⟨_, hold⟩
    · exact Or.inr ⟨origin, hnew⟩
  · rw [if_neg heq] at hc
    exact ih ⟨c, hc⟩

/-- Merging takes no name away. -/
theorem mem_keys_merge {s : Store} (other : Store) (target : Option Category) {c : Category}
    {name : String} (h : name ∈ (s.bound c).keys) :
    name ∈ ((s.merge other target).bound c).keys := by
  refine merge_induction (motive := fun t => name ∈ (t.bound c).keys) h fun t origin ht => ?_
  rw [mergeFrom, bound_withCategory]
  by_cases hc : c = target.getD origin
  · rw [if_pos hc, ← hc]
    exact Entries.mem_keys_putAll.mpr (Or.inl ht)
  · rw [if_neg hc]
    exact ht

end Store

end AqlBuilder

/-!
## Two stores with the same names

Which names a store holds, in which category and in which order, does not depend on the values that
are filed.
-/

namespace AqlBuilder.Store

/-- Two stores that have the same names at the same places and will give the same names. -/
structure SameNames (s s' : Store) : Prop where
  id : s.id = s'.id
  keys : ∀ category, (s.bound category).keys = (s'.bound category).keys
  given : s.given = s'.given

theorem SameNames.refl (s : Store) : s.SameNames s := ⟨rfl, fun _ => rfl, rfl⟩

namespace SameNames

variable {s s' t t' : Store}

/-- Stores with the same names still have them with a category replaced by values under the same
names. -/
theorem withCategory (h : s.SameNames s') (category : Category) {values values' : Bindings}
    (hvalues : values.keys = values'.keys) :
    (s.withCategory category values).SameNames (s'.withCategory category values') where
  id := h.id
  keys c := by
    rw [bound_withCategory, bound_withCategory]
    by_cases hc : c = category
    · rw [if_pos hc, if_pos hc, hvalues]
    · rw [if_neg hc, if_neg hc, h.keys c]
  given := h.given

/-- Stores with the same names give the same next name. -/
theorem nextName (h : s.SameNames s') (category : Category) :
    s.nextName category = s'.nextName category := by
  unfold Store.nextName
  rw [h.id, h.given]

/-- Stores with the same names still have them when each files a value, whichever the values are. -/
theorem add (h : s.SameNames s') (category : Category) (v v' : Value) :
    (s.add v category).2.SameNames (s'.add v' category).2 := by
  have hkeys := Entries.keys_put_congr (h.keys category) (s'.nextName category) v.cast v'.cast
  refine ⟨h.id, fun c => ?_, ?_⟩
  · rw [bound_add, bound_add, h.nextName category]
    by_cases hc : c = category
    · rw [if_pos hc, if_pos hc, hkeys]
    · rw [if_neg hc, if_neg hc, h.keys c]
  · funext c
    rw [given_add, given_add, h.given]

/-- Stores with the same names still have them when a category is set to values under the same
names. -/
theorem set (h : s.SameNames s') (category : Category) {values values' : Bindings}
    (hvalues : values.keys = values'.keys) :
    (s.set values category).SameNames (s'.set values' category) := by
  refine h.withCategory category (Entries.keys_ofPairs_congr ?_)
  unfold Entries.keys at hvalues ⊢
  rw [List.map_map, List.map_map]
  exact hvalues

/-- Stores with the same names still have them when each takes over a category of such stores. -/
theorem mergeFrom (h : s.SameNames s') (ht : t.SameNames t') (category : Option Category)
    (origin : Category) :
    (Store.mergeFrom t category s origin).SameNames (Store.mergeFrom t' category s' origin) :=
  h.withCategory _ (Entries.keys_putAll_congr (h.keys _) (ht.keys origin))

/-- Stores with the same names still have them when such stores are merged into them. -/
theorem merge (h : s.SameNames s') (ht : t.SameNames t') (category : Option Category) :
    (s.merge t category).SameNames (s'.merge t' category) := by
  rw [merge_eq, merge_eq]
  generalize Category.all = origins
  induction origins generalizing s s' with
  | nil => exact h
  | cons origin rest ih => exact ih (h.mergeFrom ht category origin)

theorem renumber (h : s.SameNames s') (id : Nat) :
    (s.renumber id).SameNames (s'.renumber id) := ⟨rfl, h.keys, rfl⟩

/-- The names are listed in the same order. -/
theorem keys_flatten (h : s.SameNames s') : s.flatten.keys = s'.flatten.keys := by
  refine Entries.keys_ofPairs_congr ?_
  have hcategory : ∀ store : Store, Entries.keys (Category.all.flatMap store.bound) =
      Category.all.flatMap fun category => (store.bound category).keys :=
    fun store => List.map_flatMap
  rw [hcategory, hcategory]
  simp only [h.keys]

end SameNames

end AqlBuilder.Store
