import AqlBuilder.Entries
import Mathlib.Data.List.Forall2

/-!
# Laws of ordered dictionaries

Putting a value under a key changes the keys only if the key is new, and brings in no pair but the
one that is put. The order of the keys does not depend on the values.

- `Entries.mem_keys_put`, `Entries.mem_keys_putAll`, `Entries.mem_keys_ofPairs`: the keys that are
  there afterwards.
- `Entries.mem_put`, `Entries.mem_putAll`, `Entries.mem_ofPairs`: where a pair comes from.
- `Entries.mem_of_get?`, `Entries.exists_get?`: what looking up a key says.
- `Entries.get?_put`: what is under a key afterwards.
- `Entries.keys_put_congr` and its neighbours: equal keys give equal keys.
- `Entries.get?_map`: what is under a key after a change of keys and values.
- `Entries.ofPairs_map`: a map of the values goes through a dictionary.
- `Entries.ofPairs_of_nodup`: distinct keys make a dictionary as they are.
- `Entries.Related`: the same keys with related values, which putting related values preserves.
-/

namespace AqlBuilder.Entries

variable {α β : Type} {entries pairs : Entries α} {entries' pairs' : Entries β}

@[simp] theorem keys_nil : keys ([] : Entries α) = [] := rfl

@[simp] theorem keys_cons (pair : String × α) (entries : Entries α) :
    keys (pair :: entries) = pair.1 :: keys entries := rfl

@[simp] theorem keys_append (first second : Entries α) :
    keys (first ++ second) = keys first ++ keys second := List.map_append

/-- Putting a value under a key adds the key if it is a new one. -/
theorem keys_put (key : String) (value : α) (entries : Entries α) :
    keys (put key value entries) = if key ∈ keys entries then keys entries
      else keys entries ++ [key] := by
  induction entries with
  | nil => rfl
  | cons pair rest ih =>
      obtain ⟨k, v⟩ := pair
      unfold put
      by_cases hk : k = key
      · rw [if_pos hk, hk, if_pos (by simp)]
        rfl
      · rw [if_neg hk, keys_cons, ih, keys_cons]
        by_cases hrest : key ∈ keys rest
        · rw [if_pos hrest, if_pos (List.mem_cons_of_mem k hrest)]
        · rw [if_neg hrest, if_neg (by simp [hrest, Ne.symm hk])]
          rfl

/-- Putting a value under a key adds this key and no other. -/
theorem mem_keys_put {key name : String} {value : α} :
    name ∈ keys (put key value entries) ↔ name ∈ keys entries ∨ name = key := by
  rw [keys_put]
  by_cases hkey : key ∈ keys entries
  · rw [if_pos hkey]
    constructor
    · exact Or.inl
    · rintro (h | rfl)
      · exact h
      · exact hkey
  · rw [if_neg hkey, List.mem_append, List.mem_singleton]

theorem putAll_append (entries first second : Entries α) :
    putAll entries (first ++ second) = putAll (putAll entries first) second := List.foldl_append

/-- Putting entries in adds their keys and no others. -/
theorem mem_keys_putAll {name : String} :
    name ∈ keys (putAll entries pairs) ↔ name ∈ keys entries ∨ name ∈ keys pairs := by
  induction pairs generalizing entries with
  | nil => simp [putAll]
  | cons pair rest ih =>
      change name ∈ keys (putAll (put pair.1 pair.2 entries) rest) ↔ _
      rw [ih, mem_keys_put, keys_cons, List.mem_cons, or_assoc]

/-- A table has the keys of the pairs that it is made of. -/
theorem mem_keys_ofPairs {name : String} : name ∈ keys (ofPairs pairs) ↔ name ∈ keys pairs := by
  rw [ofPairs, mem_keys_putAll, keys_nil]
  simp

/-- An entry after a value was put in was there before or is the new one. -/
theorem mem_put {key : String} {value : α} {pair : String × α}
    (h : pair ∈ put key value entries) : pair ∈ entries ∨ pair = (key, value) := by
  induction entries with
  | nil => exact Or.inr (List.mem_singleton.mp h)
  | cons first rest ih =>
      obtain ⟨k, v⟩ := first
      unfold put at h
      by_cases hk : k = key
      · rw [if_pos hk] at h
        rcases List.mem_cons.mp h with h | h
        · exact Or.inr h
        · exact Or.inl (List.mem_cons_of_mem _ h)
      · rw [if_neg hk] at h
        rcases List.mem_cons.mp h with h | h
        · exact Or.inl (List.mem_cons.mpr (Or.inl h))
        · exact (ih h).imp_left (List.mem_cons_of_mem _)

/-- An entry after others were put in was there before or is one of them. -/
theorem mem_putAll {pair : String × α} (h : pair ∈ putAll entries pairs) :
    pair ∈ entries ∨ pair ∈ pairs := by
  induction pairs generalizing entries with
  | nil => exact Or.inl h
  | cons first rest ih =>
      rcases ih h with h | h
      · rcases mem_put h with h | h
        · exact Or.inl h
        · exact Or.inr (List.mem_cons.mpr (Or.inl h))
      · exact Or.inr (List.mem_cons_of_mem first h)

/-- An entry of a table is one of the pairs that it is made of. -/
theorem mem_ofPairs {pair : String × α} (h : pair ∈ ofPairs pairs) : pair ∈ pairs := by
  rcases mem_putAll h with h | h
  · cases h
  · exact h

/-- A value that is found stands under its key. -/
theorem mem_of_get? {key : String} {value : α} (h : get? key entries = some value) :
    (key, value) ∈ entries := by
  induction entries with
  | nil => cases h
  | cons pair rest ih =>
      obtain ⟨k, v⟩ := pair
      unfold get? at h
      by_cases hk : k = key
      · rw [if_pos hk] at h
        rw [hk, Option.some.inj h]
        exact List.mem_cons_self
      · rw [if_neg hk] at h
        exact List.mem_cons_of_mem _ (ih h)

/-- There is a value for a key just if it is one of the keys. -/
theorem exists_get? {key : String} : (∃ value, get? key entries = some value) ↔
    key ∈ keys entries := by
  constructor
  · rintro ⟨value, h⟩
    exact List.mem_map.mpr ⟨(key, value), mem_of_get? h, rfl⟩
  · intro h
    induction entries with
    | nil => cases h
    | cons pair rest ih =>
        obtain ⟨k, v⟩ := pair
        unfold get?
        by_cases hk : k = key
        · exact ⟨v, if_pos hk⟩
        · obtain ⟨value, hvalue⟩ := ih (List.mem_of_ne_of_mem (Ne.symm hk) h)
          exact ⟨value, (if_neg hk).trans hvalue⟩

/-- Putting a value changes what is under its key, and nothing else. -/
theorem get?_put (key name : String) (value : α) (entries : Entries α) :
    get? name (put key value entries) = if key = name then some value else get? name entries := by
  induction entries with
  | nil => rfl
  | cons pair rest ih =>
      obtain ⟨k, v⟩ := pair
      unfold put
      by_cases hk : k = key
      · rw [if_pos hk, get?, get?, hk]
        split <;> rfl
      · rw [if_neg hk, get?, get?, ih]
        by_cases hname : k = name
        · rw [if_pos hname, if_pos hname, if_neg fun h => hk (hname.trans h.symm)]
        · rw [if_neg hname, if_neg hname]

/-- Changed keys are those of the changed entries. -/
theorem keys_map (f : String → String) (g : α → β) (entries : Entries α) :
    keys (entries.map (Prod.map f g)) = (keys entries).map f := by
  rw [keys, keys, List.map_map, List.map_map]
  rfl

/-- A change of keys and values, as long as no other key is changed to the one that is looked up. -/
theorem get?_map {f : String → String} (g : α → β) {key : String}
    (h : ∀ k ∈ keys entries, f k = f key → k = key) :
    get? (f key) (entries.map (Prod.map f g)) = (get? key entries).map g := by
  induction entries with
  | nil => rfl
  | cons pair rest ih =>
      obtain ⟨k, v⟩ := pair
      change get? (f key) ((f k, g v) :: rest.map (Prod.map f g)) = _
      rw [get?, get?]
      by_cases hk : k = key
      · rw [if_pos hk, if_pos (congrArg f hk)]
        rfl
      · rw [if_neg hk, if_neg fun hf => hk (h k List.mem_cons_self hf)]
        exact ih fun other hother => h other (List.mem_cons_of_mem k hother)

/-- The keys after putting a value depend on the keys before alone. -/
theorem keys_put_congr (h : keys entries = keys entries') (key : String) (v : α) (v' : β) :
    keys (put key v entries) = keys (put key v' entries') := by
  rw [keys_put, keys_put, h]

/-- The keys of a table depend on the keys of what was put in alone. -/
theorem keys_putAll_congr (h : keys entries = keys entries') (hpairs : keys pairs = keys pairs') :
    keys (putAll entries pairs) = keys (putAll entries' pairs') := by
  induction pairs generalizing entries entries' pairs' with
  | nil =>
      cases pairs' with
      | nil => exact h
      | cons pair rest => cases hpairs
  | cons pair rest ih =>
      cases pairs' with
      | nil => cases hpairs
      | cons pair' rest' =>
          obtain ⟨hkey, hrest⟩ : pair.1 = pair'.1 ∧ keys rest = keys rest' := List.cons.inj hpairs
          change keys (putAll (put pair.1 pair.2 entries) rest) =
            keys (putAll (put pair'.1 pair'.2 entries') rest')
          rw [hkey]
          exact ih (keys_put_congr h pair'.1 pair.2 pair'.2) hrest

theorem keys_ofPairs_congr (h : keys pairs = keys pairs') :
    keys (ofPairs pairs) = keys (ofPairs pairs') := keys_putAll_congr rfl h

/-- Values may be changed before one is put in or after it. -/
theorem map_put (f : α → β) (key : String) (value : α) (entries : Entries α) :
    (put key value entries).map (Prod.map id f) =
      put key (f value) (entries.map (Prod.map id f)) := by
  induction entries with
  | nil => rfl
  | cons pair rest ih =>
      obtain ⟨k, v⟩ := pair
      change _ = put key (f value) ((k, f v) :: rest.map (Prod.map id f))
      unfold put
      by_cases hk : k = key
      · rw [if_pos hk, if_pos hk]
        rfl
      · rw [if_neg hk, if_neg hk, ← ih]
        rfl

/-- Values may be changed before some are put in or after it. -/
theorem map_putAll (f : α → β) (entries pairs : Entries α) :
    (putAll entries pairs).map (Prod.map id f) =
      putAll (entries.map (Prod.map id f)) (pairs.map (Prod.map id f)) := by
  induction pairs generalizing entries with
  | nil => rfl
  | cons pair rest ih =>
      change (putAll (put pair.1 pair.2 entries) rest).map (Prod.map id f) =
        putAll (put pair.1 (f pair.2) (entries.map (Prod.map id f))) (rest.map (Prod.map id f))
      rw [ih, map_put]

theorem ofPairs_map (f : α → β) (pairs : Entries α) :
    ofPairs (pairs.map (Prod.map id f)) = (ofPairs pairs).map (Prod.map id f) :=
  (map_putAll f [] pairs).symm

/-- A value under a new key is put at the end. -/
theorem put_of_notMem {key : String} (h : key ∉ keys entries) (value : α) :
    put key value entries = entries ++ [(key, value)] := by
  induction entries with
  | nil => rfl
  | cons pair rest ih =>
      obtain ⟨k, v⟩ := pair
      obtain ⟨hk, hrest⟩ : key ≠ k ∧ key ∉ keys rest := by simpa using h
      rw [put, if_neg hk.symm, ih hrest, List.cons_append]

/-- Values under new keys are put at the end. -/
theorem putAll_of_nodup (h : (keys (entries ++ pairs)).Nodup) :
    putAll entries pairs = entries ++ pairs := by
  induction pairs generalizing entries with
  | nil => exact (List.append_nil entries).symm
  | cons pair rest ih =>
      have hkey : pair.1 ∉ keys entries := by
        rw [keys_append, keys_cons] at h
        exact fun hmem => (List.nodup_append.mp h).2.2 _ hmem _ List.mem_cons_self rfl
      change putAll (put pair.1 pair.2 entries) rest = _
      rw [put_of_notMem hkey, ih (by simpa using h), List.append_assoc]
      rfl

/-- Pairs with distinct keys are the dictionary that is made of them. -/
theorem ofPairs_of_nodup (h : (keys pairs).Nodup) : ofPairs pairs = pairs := putAll_of_nodup h

/-- What is not found in the first table is looked for in the second one. -/
theorem get?_append (key : String) (entries more : Entries α) :
    get? key (entries ++ more) = (get? key entries).or (get? key more) := by
  induction entries with
  | nil => rfl
  | cons pair rest ih =>
      obtain ⟨k, v⟩ := pair
      rw [List.cons_append, get?, get?]
      by_cases hk : k = key
      · rw [if_pos hk, if_pos hk]
        rfl
      · rw [if_neg hk, if_neg hk, ih]

/-- Leaving keys out changes nothing about the others. -/
theorem get?_filter (keep : String → Bool) (key : String) (entries : Entries α) :
    get? key (entries.filter fun entry => keep entry.1) =
      if keep key then get? key entries else none := by
  induction entries with
  | nil => simp [get?]
  | cons pair rest ih =>
      obtain ⟨k, v⟩ := pair
      rw [List.filter_cons, get?]
      by_cases hk : k = key
      · subst hk
        by_cases hkeep : keep k <;> simp [get?, hkeep, ih]
      · by_cases hkeep : keep k <;> simp [get?, hkeep, hk, ih]

section related

/-- Two dictionaries with the same keys in the same order, and related values. -/
def Related (r : α → β → Prop) (entries : Entries α) (entries' : Entries β) : Prop :=
  List.Forall₂ (fun pair pair' => pair.1 = pair'.1 ∧ r pair.2 pair'.2) entries entries'

variable {r : α → β → Prop}

/-- Related tables stay related when related values are put under the same key. -/
theorem Related.put (h : Related r entries entries') (key : String) {v : α} {w : β} (hv : r v w) :
    Related r (entries.put key v) (entries'.put key w) := by
  induction h with
  | nil => exact .cons ⟨rfl, hv⟩ .nil
  | @cons pair pair' rest rest' hpair hrest ih =>
      obtain ⟨k, x⟩ := pair
      obtain ⟨k', x'⟩ := pair'
      obtain ⟨rfl, hx⟩ : k = k' ∧ r x x' := hpair
      unfold Entries.put
      by_cases hk : k = key
      · rw [if_pos hk, if_pos hk]
        exact .cons ⟨rfl, hv⟩ hrest
      · rw [if_neg hk, if_neg hk]
        exact .cons ⟨rfl, hx⟩ ih

/-- Related tables stay related when related entries are put in. -/
theorem Related.putAll (h : Related r entries entries') (hpairs : Related r pairs pairs') :
    Related r (entries.putAll pairs) (entries'.putAll pairs') := by
  induction hpairs generalizing entries entries' with
  | nil => exact h
  | @cons pair pair' rest rest' hpair hrest ih =>
      obtain ⟨k, x⟩ := pair
      obtain ⟨k', x'⟩ := pair'
      obtain ⟨rfl, hx⟩ : k = k' ∧ r x x' := hpair
      exact ih (h.put k hx)

/-- Related pairs make related dictionaries. -/
theorem Related.ofPairs (h : Related r pairs pairs') : Related r (ofPairs pairs) (ofPairs pairs') :=
  Related.putAll .nil h

end related

end AqlBuilder.Entries
