import AqlBuilder.Proofs.Binding.Growth

/-!
# Values after merging

All values of a store are listed category by category, and a name that occurs more than once is
listed with its last value. Merging under one category may put a value in front of an older one or
behind it, but it never mixes them: what is listed under a name afterwards was listed in one of the
two stores.

- `Entries.get?_ofPairs_append`: the last value of a key wins.
- `Store.get?_flatten_merge`: where a listed value comes from.
- `Bindings.Joint`: the values of several stores together, and `Store.joint_mergeAll`, how they come
  about.
-/

namespace AqlBuilder

namespace Entries

variable {α : Type} {entries pairs first second : Entries α} {key k : String} {v w : α}

/-- Of entries that are put into others the last one under a key counts. -/
theorem get?_putAll (key : String) (entries pairs : Entries α) :
    get? key (putAll entries pairs) = (get? key (ofPairs pairs)).or (get? key entries) := by
  induction pairs generalizing entries with
  | nil => rfl
  | cons pair rest ih =>
      obtain ⟨k, v⟩ := pair
      change get? key (putAll (put k v entries) rest) = (get? key (putAll (put k v []) rest)).or _
      rw [ih, ih (put k v []), get?_put, get?_put, Option.or_assoc]
      split <;> rfl

/-- The last value of a key wins. -/
theorem get?_ofPairs_append (key : String) (first second : Entries α) :
    get? key (ofPairs (first ++ second)) =
      (get? key (ofPairs second)).or (get? key (ofPairs first)) := by
  have happend : ofPairs (first ++ second) = putAll (ofPairs first) second := List.foldl_append
  rw [happend, get?_putAll]

/-- The first pair counts only if no later one has its key. -/
theorem get?_ofPairs_cons (key k : String) (v : α) (rest : Entries α) :
    get? key (ofPairs ((k, v) :: rest)) =
      (get? key (ofPairs rest)).or (if k = key then some v else none) :=
  get?_ofPairs_append key [(k, v)] rest

theorem get?_ofPairs_eq_none : get? key (ofPairs pairs) = none ↔ key ∉ keys pairs := by
  rw [← mem_keys_ofPairs, ← exists_get?, ← Option.not_isSome_iff_eq_none, Option.isSome_iff_exists]

/-- Putting a value does not make a key occur more than once. -/
theorem count_keys_put_le_one (key k : String) (v : α) (entries : Entries α) :
    (keys (put k v entries)).count key ≤ 1 ↔ (keys entries).count key ≤ 1 := by
  rw [keys_put]
  by_cases hk : k ∈ keys entries
  · rw [if_pos hk]
  · rw [if_neg hk, List.count_append, List.count_singleton]
    by_cases heq : k = key
    · subst heq
      rw [List.count_eq_zero_of_not_mem hk, beq_self_eq_true]
      simp
    · rw [beq_false_of_ne heq]
      simp

/-- A value that is put is the last one of its key, unless the key was there more than once. -/
theorem get?_ofPairs_put (key k : String) (v : α) (entries : Entries α) :
    get? key (ofPairs (put k v entries)) =
      if k = key ∧ (keys entries).count key ≤ 1 then some v else get? key (ofPairs entries) := by
  induction entries with
  | nil => simp [put, ofPairs, putAll, get?]
  | cons pair rest ih =>
      obtain ⟨k', v'⟩ := pair
      rw [keys_cons, get?_ofPairs_cons]
      unfold put
      by_cases hk' : k' = k
      · subst hk'
        rw [if_pos rfl, get?_ofPairs_cons]
        by_cases hkey : k' = key
        · subst hkey
          rw [List.count_cons_self]
          by_cases hrest : k' ∈ keys rest
          · -- A value further back comes last in any case.
            obtain ⟨x, hx⟩ := exists_get?.mpr (mem_keys_ofPairs.mpr hrest)
            have hcount : ¬ (keys rest).count k' + 1 ≤ 1 := by
              have hpos := List.count_pos_iff.mpr hrest
              omega
            simp only [hx, hcount, and_false, if_false, Option.some_or]
          · rw [get?_ofPairs_eq_none.mpr hrest, List.count_eq_zero_of_not_mem hrest,
              if_pos rfl, if_pos ⟨rfl, le_refl 1⟩]
            rfl
        · rw [if_neg hkey, if_neg hkey, if_neg fun h => hkey h.1]
      · rw [if_neg hk', get?_ofPairs_cons, ih]
        by_cases hkey : k = key
        · subst hkey
          rw [List.count_cons_of_ne hk', if_neg hk']
          split <;> simp
        · simp only [hkey, false_and, if_false]

/-- The same for several values. -/
theorem get?_ofPairs_putAll (key : String) (entries pairs : Entries α) :
    get? key (ofPairs (putAll entries pairs)) =
      if (keys entries).count key ≤ 1
        then (get? key (ofPairs pairs)).or (get? key (ofPairs entries))
        else get? key (ofPairs entries) := by
  induction pairs generalizing entries with
  | nil => exact (ite_self _).symm
  | cons pair rest ih =>
      obtain ⟨k, v⟩ := pair
      change get? key (ofPairs (putAll (put k v entries) rest)) = _
      simp only [ih, count_keys_put_le_one, get?_ofPairs_put, get?_ofPairs_cons, Option.or_assoc]
      by_cases hcount : (keys entries).count key ≤ 1
      · simp only [hcount, and_true, if_true]
        split <;> rfl
      · simp only [hcount, and_false, if_false]

/-- What is listed last after putting several values was listed last before or among them. -/
theorem get?_ofPairs_putAll_or (h : get? key (ofPairs (putAll entries pairs)) = some v) :
    get? key (ofPairs entries) = some v ∨ get? key (ofPairs pairs) = some v := by
  rw [get?_ofPairs_putAll] at h
  split at h
  · rcases Option.or_eq_some_iff.mp h with h | ⟨-, h⟩
    · exact Or.inr h
    · exact Or.inl h
  · exact Or.inl h

end Entries

namespace Store

variable {s other : Store} {name : String} {v : Value} {category : Category}

/-- Merging under one category puts all values of the other store there, one after another. -/
theorem bound_merge (s other : Store) (category c : Category) :
    (s.merge other (some category)).bound c =
      if c = category then (s.bound category).putAll (Category.all.flatMap other.bound)
      else s.bound c := by
  rw [merge_eq]
  generalize Category.all = origins
  induction origins generalizing s with
  | nil => by_cases hc : c = category <;> simp [hc, Entries.putAll]
  | cons origin rest ih =>
      have hfrom : ∀ c, (mergeFrom other (some category) s origin).bound c =
          if c = category then (s.bound category).putAll (other.bound origin) else s.bound c :=
        fun _ => rfl
      rw [List.foldl_cons, ih, hfrom, hfrom, if_pos rfl, List.flatMap_cons]
      by_cases hc : c = category
      · rw [if_pos hc, if_pos hc]
        exact List.foldl_append.symm
      · rw [if_neg hc, if_neg hc, if_neg hc]

/-- What is listed after putting several values in one category was listed or is one of them. -/
theorem get?_flatten_of_bound {t : Store} {pairs : Bindings}
    (hbound : ∀ c, t.bound c =
      if c = category then (s.bound category).putAll pairs else s.bound c)
    (h : t.flatten.get? name = some v) :
    s.flatten.get? name = some v ∨ (Entries.ofPairs pairs).get? name = some v := by
  have hkeys : ∀ c, name ∈ (s.bound c).keys → name ∈ (t.bound c).keys := by
    intro c hname
    rw [hbound]
    split
    · rename_i hc
      exact Entries.mem_keys_putAll.mpr (Or.inl (hc ▸ hname))
    · exact hname
  unfold flatten at h ⊢
  generalize Category.all = categories at h ⊢
  induction categories with
  | nil => exact Or.inl h
  | cons c rest ih =>
      rw [List.flatMap_cons, Entries.get?_ofPairs_append, Option.or_eq_some_iff] at h
      rw [List.flatMap_cons, Entries.get?_ofPairs_append]
      rcases h with h | ⟨hnone, h⟩
      · rcases ih h with h | h
        · rw [h]
          exact Or.inl rfl
        · exact Or.inr h
      · have hrest : (Entries.ofPairs (rest.flatMap s.bound)).get? name = none := by
          rw [Entries.get?_ofPairs_eq_none] at hnone ⊢
          refine fun hmem => hnone ?_
          simp only [Entries.keys, List.map_flatMap, List.mem_flatMap] at hmem ⊢
          obtain ⟨c', hc', hname⟩ := hmem
          exact ⟨c', hc', hkeys c' hname⟩
        rw [hrest, Option.none_or]
        rw [hbound] at h
        by_cases hc : c = category
        · rw [if_pos hc] at h
          rw [hc]
          exact Entries.get?_ofPairs_putAll_or h
        · rw [if_neg hc] at h
          exact Or.inl h

/-- What is listed after merging under one category was listed in one of the two stores. -/
theorem get?_flatten_merge (h : (s.merge other (some category)).flatten.get? name = some v) :
    s.flatten.get? name = some v ∨ other.flatten.get? name = some v :=
  get?_flatten_of_bound (bound_merge s other category) h

/-- A value that is listed is one of the store. -/
theorem holds_of_get?_flatten (h : s.flatten.get? name = some v) : s.Holds name v := by
  obtain ⟨c, -, hc⟩ := List.mem_flatMap.mp (Entries.mem_ofPairs (Entries.mem_of_get? h))
  exact ⟨c, hc⟩

/-- Merging under one category lists the names of both stores. -/
theorem mem_keys_flatten_merge : name ∈ (s.merge other (some category)).flatten.keys ↔
    name ∈ s.flatten.keys ∨ name ∈ other.flatten.keys := by
  simp only [mem_keys_flatten]
  constructor
  · intro hname
    obtain ⟨v, hv⟩ := named_iff_holds.mp hname
    exact (holds_merge hv).imp Holds.named Holds.named
  · rintro (hname | hname)
    · exact (s.grows_merge other (some category)).names hname
    · exact ⟨category, s.names_subset_merge other category name hname⟩

end Store

/-- Bindings that are those of several queries together: the names of all of them, each with a value
that one of them has for it. -/
structure Bindings.Joint (total : Bindings) (parts : List Bindings) : Prop where
  keys : ∀ name, name ∈ total.keys ↔ ∃ part ∈ parts, name ∈ part.keys
  values : ∀ name v, total.get? name = some v → ∃ part ∈ parts, part.get? name = some v

/-- Where the parts agree about their names, each of their values is there. -/
theorem Bindings.Joint.get?_iff {total : Bindings} {parts : List Bindings} (h : total.Joint parts)
    (hagree : ∀ part ∈ parts, ∀ part' ∈ parts, ∀ name v w,
      part.get? name = some v → part'.get? name = some w → v = w) {name : String} {v : Value} :
    total.get? name = some v ↔ ∃ part ∈ parts, part.get? name = some v := by
  constructor
  · exact h.values name v
  · rintro ⟨part, hpart, hv⟩
    obtain ⟨w, hw⟩ := Entries.exists_get?.mpr
      ((h.keys name).mpr ⟨part, hpart, Entries.exists_get?.mp ⟨v, hv⟩⟩)
    obtain ⟨part', hpart', hw'⟩ := h.values name w hw
    rw [hw, hagree part hpart part' hpart' name v w hv hw']

/-- Stores that are merged one after another. -/
theorem Store.joint_mergeAll (s : Store) (others : List Store) (category : Category) :
    Bindings.Joint (others.foldl (fun t other => t.merge other (some category)) s).flatten
      ((s :: others).map Store.flatten) := by
  induction others generalizing s with
  | nil =>
      constructor
      · intro name
        simp
      · intro name v hv
        rw [List.foldl_nil] at hv
        exact ⟨s.flatten, List.mem_cons_self, hv⟩
  | cons other rest ih =>
      obtain ⟨hkeys, hvalues⟩ := ih (s.merge other (some category))
      simp only [List.map_cons, List.mem_cons, exists_eq_or_imp] at hkeys hvalues ⊢
      constructor
      · intro name
        rw [List.foldl_cons, hkeys, mem_keys_flatten_merge, or_assoc]
        simp only [List.mem_cons, exists_eq_or_imp]
      · intro name v hv
        rw [List.foldl_cons] at hv
        simp only [List.mem_cons, exists_eq_or_imp]
        rcases hvalues name v hv with h | h
        · exact (get?_flatten_merge h).elim Or.inl fun h => Or.inr (Or.inl h)
        · exact Or.inr (Or.inr h)

end AqlBuilder
