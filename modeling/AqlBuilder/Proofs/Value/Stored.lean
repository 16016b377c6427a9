import AqlBuilder.Proofs.Value.Renaming

/-!
# Where an attribute is stored

A document is stored with `id` renamed to `_key` at every depth. So the attribute at a path is found
in the stored document where each name of the path has been renamed, and no path with an `id`
somewhere leads to anything.

- `Value.at?` follows a path of names through objects.
- `Value.at?_idToKey`: the stored attribute is found along the renamed path.
- `Value.at?_idToKey_eq_none`: nothing is found along a path with `id` in it.
-/

namespace AqlBuilder

open Entries

variable {α β : Type} {source target name : String}

/-- Names that are not the target are renamed differently if they are different. -/
theorem renamed_inj {other : String} (hname : name ≠ target) (hother : other ≠ target) :
    renamed source target other = renamed source target name ↔ other = name := by
  have hback : renamed target source (renamed source target other) = other := renamed_renamed hother
  refine ⟨fun h => ?_, congrArg _⟩
  rw [← hback, h, renamed_renamed hname]

/-- What is under a renamed name if nothing has had the new name. -/
theorem Entries.get?_renamed {entries : Entries α} (g : α → β) (hkeys : (keys entries).Nodup)
    (htarget : target ∉ keys entries) (hname : name ≠ target) :
    get? (renamed source target name)
        (ofPairs (entries.map (Prod.map (renamed source target) g))) =
      (get? name entries).map g := by
  have hdistinct : (keys (entries.map (Prod.map (renamed source target) g))).Nodup := by
    rw [keys_map]
    exact nodup_map_renamed hkeys htarget
  rw [ofPairs_of_nodup hdistinct]
  exact get?_map g fun other hother h =>
    (renamed_inj hname fun htarget' => htarget (htarget' ▸ hother)).mp h

/-- After renaming, what is found has been renamed itself and is not under the old name. -/
theorem Entries.of_get?_renamed {entries : Entries α} {g : α → β} {b : β} (hnames : source ≠ target)
    (h : get? name (ofPairs (entries.map (Prod.map (renamed source target) g))) = some b) :
    name ≠ source ∧ ∃ a, g a = b := by
  obtain ⟨pair, -, hpair⟩ := List.mem_map.mp (mem_ofPairs (mem_of_get? h))
  obtain ⟨hname, hb⟩ : renamed source target pair.1 = name ∧ g pair.2 = b := Prod.ext_iff.mp hpair
  rw [← hname]
  exact ⟨renamed_ne hnames pair.1, pair.2, hb⟩

/-- Members have distinct keys inside just if each value has. -/
theorem Json.keyedMembers_iff {members : List (String × Json)} :
    KeyedMembers members ↔ ∀ pair ∈ members, pair.2.Keyed := by
  induction members with
  | nil => simp [KeyedMembers]
  | cons pair rest ih => simp only [KeyedMembers, ih, List.forall_mem_cons]

namespace Value

variable {v x : Value} {path : List String}

/-- The attribute of an object, embedded or not. -/
def member? (name : String) : Value → Option Value
  | object members => get? name members
  | json (.object members) => (get? name members).map json
  | _ => none

/-- What is found along a path of attributes. -/
def at? : List String → Value → Option Value
  | [], v => some v
  | name :: path, v => (v.member? name).bind (at? path)

/-- Members are renamed one by one. -/
theorem renameMembers_eq_map (members : List (String × Value)) :
    renameMembers source target members =
      members.map (Prod.map (renamed source target) (renameDeep source target)) := by
  induction members with
  | nil => rfl
  | cons pair rest ih =>
      rw [renameMembers, ih]
      rfl

/-- Members of JSON are renamed one by one. -/
theorem renameJsonMembers_eq_map (members : List (String × Json)) :
    renameJsonMembers source target members =
      members.map (Prod.map (renamed source target) (renameJson source target)) := by
  induction members with
  | nil => rfl
  | cons pair rest ih =>
      rw [renameJsonMembers, ih]
      rfl

/-- An attribute is stored under its renamed name, and is a stored value itself. -/
theorem member?_idToKey (hkeyed : v.toJson.Keyed) (hlacks : v.toJson.Lacks keyAttribute)
    (h : v.member? name = some x) :
    v.idToKey.member? (renamed idAttribute keyAttribute name) = some x.idToKey ∧
      x.toJson.Keyed ∧ x.toJson.Lacks keyAttribute := by
  cases v with
  | object members =>
      have hmem : (name, x) ∈ members := mem_of_get? h
      rw [toJson, Json.toJsonMembers_eq_map] at hkeyed hlacks
      have hkeys : keys (members.map (Prod.map id toJson)) = keys members := by
        rw [keys_map, List.map_id]
      have hpair : (name, x.toJson) ∈ members.map (Prod.map id toJson) :=
        List.mem_map.mpr ⟨_, hmem, rfl⟩
      have htarget : keyAttribute ∉ keys members := hkeys ▸ hlacks.1
      have hname : name ≠ keyAttribute :=
        fun hname => htarget (hname ▸ List.mem_map.mpr ⟨_, hmem, rfl⟩)
      refine ⟨?_, Json.keyedMembers_iff.mp hkeyed.2 _ hpair,
        Json.throughoutMembers_iff.mp hlacks.2 _ hpair⟩
      change get? _ (ofPairs (renameMembers idAttribute keyAttribute members)) = _
      rw [renameMembers_eq_map, get?_renamed _ (hkeys ▸ hkeyed.1) htarget hname]
      exact congrArg (Option.map (renameDeep idAttribute keyAttribute)) h
  | json j =>
      cases j with
      | object members =>
          obtain ⟨y, hget, rfl⟩ : ∃ y, get? name members = some y ∧ json y = x :=
            Option.map_eq_some_iff.mp h
          have hmem : (name, y) ∈ members := mem_of_get? hget
          have htarget : keyAttribute ∉ keys members := hlacks.1
          have hname : name ≠ keyAttribute :=
            fun hname => htarget (hname ▸ List.mem_map.mpr ⟨_, hmem, rfl⟩)
          refine ⟨?_, Json.keyedMembers_iff.mp hkeyed.2 _ hmem,
            Json.throughoutMembers_iff.mp hlacks.2 _ hmem⟩
          change get? _ (ofPairs (renameJsonMembers idAttribute keyAttribute members)) = _
          rw [renameJsonMembers_eq_map, get?_renamed _ hkeyed.1 htarget hname, hget]
          rfl
      | _ => cases h
  | _ => cases h

/-- What is found at a path is stored where each name of the path has been renamed. -/
theorem at?_idToKey (hkeyed : v.toJson.Keyed) (hlacks : v.toJson.Lacks keyAttribute)
    (h : v.at? path = some x) :
    v.idToKey.at? (path.map (renamed idAttribute keyAttribute)) = some x.idToKey := by
  induction path generalizing v with
  | nil => exact congrArg (Option.map idToKey) h
  | cons name rest ih =>
      obtain ⟨y, hname, hrest⟩ : ∃ y, v.member? name = some y ∧ y.at? rest = some x :=
        Option.bind_eq_some_iff.mp h
      obtain ⟨hstored, hkeyed', hlacks'⟩ := member?_idToKey hkeyed hlacks hname
      rw [List.map_cons, at?, hstored]
      exact ih hkeyed' hlacks' hrest

/-- An attribute of a stored value is not called `id` and is a stored value itself. -/
theorem exists_of_member?_idToKey (h : v.idToKey.member? name = some x) :
    name ≠ idAttribute ∧ ∃ y : Value, y.idToKey = x := by
  have hnames : idAttribute ≠ keyAttribute := by decide
  cases v with
  | object members =>
      change get? name (ofPairs (renameMembers idAttribute keyAttribute members)) = some x at h
      rw [renameMembers_eq_map] at h
      exact of_get?_renamed hnames h
  | json j =>
      cases j with
      | object members =>
          change get? name
            (ofPairs (renameJsonMembers idAttribute keyAttribute members)) = some x at h
          rw [renameJsonMembers_eq_map] at h
          obtain ⟨hname, j, hj⟩ := of_get?_renamed hnames h
          exact ⟨hname, json j, hj⟩
      | int n =>
          change (ofInt n).member? name = some x at h
          unfold ofInt at h
          split at h <;> cases h
      | _ => cases h
  | _ => cases h

/-- Nothing is stored along a path with `id` in it. -/
theorem at?_idToKey_eq_none (h : idAttribute ∈ path) : v.idToKey.at? path = none := by
  induction path generalizing v with
  | nil => cases h
  | cons name rest ih =>
      rw [at?]
      rcases hmember : v.idToKey.member? name with _ | x
      · rfl
      · obtain ⟨hname, y, rfl⟩ := exists_of_member?_idToKey hmember
        exact ih (List.mem_of_ne_of_mem hname.symm h)

end Value

end AqlBuilder
