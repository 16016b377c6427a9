import AqlBuilder.Proofs.Entries
import AqlBuilder.Value.Keys

/-!
# Renaming there and back

On JSON values whose numbers survive the way through native values, outbound data and returned rows
are renamed by one recursion, `Json.renameDeep`, with the two names the other way round.

Afterwards no attribute has the old name, at any depth, so an attribute that had the new name from
the start cannot get it back. Where nothing has the new name, two attributes never meet under one
key, and the way back restores every name in its place.

- `Json.Throughout`: a property of a value and of everything inside.
- `Json.toJson_renameJson`, `Json.keyToId_eq`: both conversions are `Json.renameDeep`.
- `Json.renameDeep_renameDeep_iff`: what comes back from renaming twice.
- `Json.keys_restored_iff`: what comes back from the server, and what is sent back to it.
-/

namespace AqlBuilder

/-- A name that is not the target is renamed and back. -/
theorem renamed_renamed {source target name : String} (h : name ≠ target) :
    renamed target source (renamed source target name) = name := by
  unfold renamed
  by_cases hname : name = source
  · rw [if_pos hname, if_pos rfl, hname]
  · rw [if_neg hname, if_neg h]

/-- Nothing has the old name after it was renamed. -/
theorem renamed_ne {source target : String} (h : source ≠ target) (name : String) :
    renamed source target name ≠ source := by
  unfold renamed
  split
  · exact h.symm
  · assumption

/-- Names stay apart when none of them is the new one. -/
theorem nodup_map_renamed {source target : String} {names : List String} (hnames : names.Nodup)
    (htarget : target ∉ names) : (names.map (renamed source target)).Nodup := by
  have hback : (names.map (renamed source target)).map (renamed target source) = names := by
    rw [List.map_map]
    refine (List.map_congr_left fun name hname => ?_).trans (List.map_id _)
    exact renamed_renamed fun hname' => htarget (hname' ▸ hname)
  refine List.Pairwise.of_map (renamed target source) (fun a b hne hab => ?_) (hback.symm ▸ hnames)
  exact hne (congrArg _ hab)

namespace Json

open Entries

mutual
/-- Whether a value and every value inside it have a property. -/
def Throughout (p : Json → Prop) : Json → Prop
  | array items => p (array items) ∧ ThroughoutItems p items
  | object members => p (object members) ∧ ThroughoutMembers p members
  | null => p null
  | bool b => p (bool b)
  | int n => p (int n)
  | float x => p (float x)
  | string s => p (string s)

/-- Whether every item has a property throughout. -/
def ThroughoutItems (p : Json → Prop) : List Json → Prop
  | [] => True
  | item :: items => Throughout p item ∧ ThroughoutItems p items

/-- Whether every member has a property throughout. -/
def ThroughoutMembers (p : Json → Prop) : List (String × Json) → Prop
  | [] => True
  | (_, value) :: members => Throughout p value ∧ ThroughoutMembers p members
end

/-- The names of the attributes of an object. -/
def attributeNames : Json → List String
  | object members => keys members
  | _ => []

/-- No object inside has an attribute of this name. -/
def Lacks (name : String) : Json → Prop := Throughout fun inner => name ∉ inner.attributeNames

/-- A number is one that a native value holds exactly: an integer fits in 64 signed bits, and a
floating point number is finite, as every number of a JSON text is. -/
def HeldExactly : Json → Prop
  | int n => Int64.minValue.toInt ≤ n ∧ n ≤ Int64.maxValue.toInt
  | float x => x.isFinite = true
  | _ => True

/-- Every number inside is held exactly. -/
def Exact : Json → Prop := Throughout HeldExactly

mutual
/-- Nothing in particular holds of everything inside. -/
theorem throughout_true : (j : Json) → Throughout (fun _ => True) j
  | object members => ⟨trivial, throughoutMembers_true members⟩
  | array items => ⟨trivial, throughoutItems_true items⟩
  | null => trivial
  | bool _ => trivial
  | int _ => trivial
  | float _ => trivial
  | string _ => trivial

/-- Nothing in particular holds of every item. -/
theorem throughoutItems_true : (items : List Json) → ThroughoutItems (fun _ => True) items
  | [] => trivial
  | item :: items => ⟨throughout_true item, throughoutItems_true items⟩

/-- Nothing in particular holds of every member. -/
theorem throughoutMembers_true :
    (members : List (String × Json)) → ThroughoutMembers (fun _ => True) members
  | [] => trivial
  | (_, value) :: members => ⟨throughout_true value, throughoutMembers_true members⟩
end

/-- What holds of every member throughout holds of each value throughout. -/
theorem throughoutMembers_iff {p : Json → Prop} {members : List (String × Json)} :
    ThroughoutMembers p members ↔ ∀ pair ∈ members, Throughout p pair.2 := by
  induction members with
  | nil => simp [ThroughoutMembers]
  | cons pair rest ih => simp only [ThroughoutMembers, ih, List.forall_mem_cons]

mutual
/-- The value with an attribute renamed in it and in everything inside. -/
def renameDeep (source target : String) : Json → Json
  | object members => object (ofPairs (renameMembers source target members))
  | array items => array (renameItems source target items)
  | null => null
  | bool b => bool b
  | int n => int n
  | float x => float x
  | string s => string s

/-- The items with an attribute renamed. -/
def renameItems (source target : String) : List Json → List Json
  | [] => []
  | item :: items => renameDeep source target item :: renameItems source target items

/-- The members with an attribute renamed in names and values. -/
def renameMembers (source target : String) : List (String × Json) → List (String × Json)
  | [] => []
  | (key, value) :: members =>
    (renamed source target key, renameDeep source target value)
      :: renameMembers source target members
end

/-- The keys of renamed members are renamed keys. -/
theorem keys_renameMembers (source target : String) (members : List (String × Json)) :
    keys (renameMembers source target members) = (keys members).map (renamed source target) := by
  induction members with
  | nil => rfl
  | cons pair rest ih => rw [renameMembers, keys_cons, ih, keys_cons, List.map_cons]

section conversions

/-! ### Both conversions are one recursion -/

mutual
/-- A returned row is renamed from the server's name to the callers'. -/
theorem keyToId_eq : (j : Json) → j.keyToId = j.renameDeep keyAttribute idAttribute
  | object members => congrArg (object ∘ ofPairs) (keyToIdMembers_eq members)
  | array items => congrArg array (keyToIdItems_eq items)
  | null => rfl
  | bool _ => rfl
  | int _ => rfl
  | float _ => rfl
  | string _ => rfl

/-- The keys of items become callers' names by renaming. -/
theorem keyToIdItems_eq : (items : List Json) →
    keyToIdItems items = renameItems keyAttribute idAttribute items
  | [] => rfl
  | item :: items => by rw [keyToIdItems, renameItems, keyToId_eq item, keyToIdItems_eq items]

/-- The keys of members become callers' names by renaming. -/
theorem keyToIdMembers_eq : (members : List (String × Json)) →
    keyToIdMembers members = renameMembers keyAttribute idAttribute members
  | [] => rfl
  | (key, value) :: members => by
    rw [keyToIdMembers, renameMembers, keyToId_eq value, keyToIdMembers_eq members]
end

/-- An integer that fits is held as it is, -/
theorem ofInt_eq_int64 {n : Int} (h : HeldExactly (int n)) :
    Value.ofInt n = .int64 (Int64.ofInt n) := by
  obtain ⟨hlow, hhigh⟩ : -9223372036854775808 ≤ n ∧ n ≤ 9223372036854775807 := h
  have hfits : (-9223372036854775808 ≤ n && n < 9223372036854775808) = true := by
    simp only [Bool.and_eq_true, decide_eq_true_eq]
    omega
  exact if_pos hfits

/-- and written back. -/
theorem toJson_ofInt {n : Int} (h : HeldExactly (int n)) : (Value.ofInt n).toJson = int n := by
  have hback : (Int64.ofInt n).toInt = n := Int64.toInt_ofInt_of_le h.1 (Int.lt_add_one_of_le h.2)
  rw [ofInt_eq_int64 h, Value.toJson, hback]

/-- Members are written one by one. -/
theorem toJsonMembers_eq_map (members : List (String × Value)) :
    Value.toJsonMembers members = members.map (Prod.map id Value.toJson) := by
  induction members with
  | nil => rfl
  | cons pair rest ih =>
      rw [Value.toJsonMembers, ih]
      rfl

/-- Members may be written before they are put together or after it. -/
theorem toJsonMembers_ofPairs (pairs : List (String × Value)) :
    Value.toJsonMembers (ofPairs pairs) = ofPairs (Value.toJsonMembers pairs) := by
  rw [toJsonMembers_eq_map, toJsonMembers_eq_map, ofPairs_map]

mutual
/-- Renaming on the way to native values is renaming, if these hold the numbers exactly. -/
theorem toJson_renameJson {source target : String} : (j : Json) → j.Exact →
    (Value.renameJson source target j).toJson = j.renameDeep source target
  | object members, h => by
    rw [Value.renameJson, Value.toJson, toJsonMembers_ofPairs, renameDeep,
      toJsonMembers_renameJsonMembers members h.2]
  | array items, h => by
    rw [Value.renameJson, Value.toJson, renameDeep, toJsonItems_renameJsonItems items h.2]
  | null, _ => rfl
  | bool _, _ => rfl
  | int _, h => toJson_ofInt h
  | float _, h => if_pos h
  | string _, _ => rfl

/-- Items of JSON may be renamed before they are read or after it, if their numbers are held
exactly. -/
theorem toJsonItems_renameJsonItems {source target : String} : (items : List Json) →
    ThroughoutItems HeldExactly items →
    Value.toJsonItems (Value.renameJsonItems source target items) = renameItems source target items
  | [], _ => rfl
  | item :: items, h => by
    rw [Value.renameJsonItems, Value.toJsonItems, renameItems, toJson_renameJson item h.1,
      toJsonItems_renameJsonItems items h.2]

/-- Members of JSON may be renamed before they are read or after it, if their numbers are held
exactly. -/
theorem toJsonMembers_renameJsonMembers {source target : String} :
    (members : List (String × Json)) → ThroughoutMembers HeldExactly members →
    Value.toJsonMembers (Value.renameJsonMembers source target members) =
      renameMembers source target members
  | [], _ => rfl
  | (key, value) :: members, h => by
    rw [Value.renameJsonMembers, Value.toJsonMembers, renameMembers, toJson_renameJson value h.1,
      toJsonMembers_renameJsonMembers members h.2]
end

end conversions

section restoring

/-! ### What renaming leaves, and what renaming back restores -/

variable {source target : String}

mutual
/-- What renaming one value makes of a property, renaming makes of it throughout. -/
theorem throughout_renameDeep {p q : Json → Prop}
    (h : ∀ j, p j → q (j.renameDeep source target)) :
    (j : Json) → Throughout p j → Throughout q (j.renameDeep source target)
  | object members, hj => by
    refine ⟨h _ hj.1, throughoutMembers_iff.mpr fun pair hpair => ?_⟩
    exact throughoutMembers_iff.mp (throughout_renameMembers h members hj.2) pair
      (mem_ofPairs hpair)
  | array items, hj => ⟨h _ hj.1, throughout_renameItems h items hj.2⟩
  | null, hj => h _ hj
  | bool _, hj => h _ hj
  | int _, hj => h _ hj
  | float _, hj => h _ hj
  | string _, hj => h _ hj

/-- What renaming brings about of a value it brings about of every item throughout. -/
theorem throughout_renameItems {p q : Json → Prop}
    (h : ∀ j, p j → q (j.renameDeep source target)) : (items : List Json) →
    ThroughoutItems p items → ThroughoutItems q (renameItems source target items)
  | [], _ => trivial
  | item :: items, hitems =>
    ⟨throughout_renameDeep h item hitems.1, throughout_renameItems h items hitems.2⟩

/-- What renaming brings about of a value it brings about of every member throughout. -/
theorem throughout_renameMembers {p q : Json → Prop}
    (h : ∀ j, p j → q (j.renameDeep source target)) : (members : List (String × Json)) →
    ThroughoutMembers p members → ThroughoutMembers q (renameMembers source target members)
  | [], _ => trivial
  | (_, value) :: members, hmembers =>
    ⟨throughout_renameDeep h value hmembers.1, throughout_renameMembers h members hmembers.2⟩
end

/-- Renaming leaves no attribute with the old name. -/
theorem lacks_renameDeep (h : source ≠ target) (j : Json) :
    (j.renameDeep source target).Lacks source := by
  refine throughout_renameDeep (fun inner _ => ?_) j (throughout_true j)
  cases inner with
  | object members =>
      change source ∉ keys (ofPairs (renameMembers source target members))
      rw [mem_keys_ofPairs, keys_renameMembers, List.mem_map]
      rintro ⟨name, -, hname⟩
      exact renamed_ne h name hname
  | _ => exact List.not_mem_nil

/-- Renaming does not touch a number. -/
theorem Exact.renameDeep {j : Json} (h : j.Exact) : (j.renameDeep source target).Exact := by
  refine throughout_renameDeep (fun inner hinner => ?_) j h
  cases inner <;> exact hinner

mutual
/-- Where nothing has the new name, renaming back restores the value. -/
theorem renameDeep_renameDeep : (j : Json) → j.Keyed → j.Lacks target →
    (j.renameDeep source target).renameDeep target source = j
  | object members, hkeyed, hlacks => by
    obtain ⟨hkeys, hmembers⟩ := hkeyed
    have htarget : target ∉ keys members := hlacks.1
    have hforth : ofPairs (renameMembers source target members) =
        renameMembers source target members := by
      refine ofPairs_of_nodup ?_
      rw [keys_renameMembers]
      exact nodup_map_renamed hkeys htarget
    rw [renameDeep, renameDeep, hforth,
      renameMembers_renameMembers members hmembers htarget hlacks.2, ofPairs_of_nodup hkeys]
  | array items, hkeyed, hlacks => by
    rw [renameDeep, renameDeep, renameItems_renameItems items hkeyed hlacks.2]
  | null, _, _ => rfl
  | bool _, _, _ => rfl
  | int _, _, _ => rfl
  | float _, _, _ => rfl
  | string _, _, _ => rfl

/-- Items are renamed and back, if no object inside has the target. -/
theorem renameItems_renameItems : (items : List Json) → KeyedItems items →
    ThroughoutItems (fun inner => target ∉ inner.attributeNames) items →
    renameItems target source (renameItems source target items) = items
  | [], _, _ => rfl
  | item :: items, hkeyed, hlacks => by
    rw [renameItems, renameItems, renameDeep_renameDeep item hkeyed.1 hlacks.1,
      renameItems_renameItems items hkeyed.2 hlacks.2]

/-- Members are renamed and back, if no object has the target. -/
theorem renameMembers_renameMembers : (members : List (String × Json)) → KeyedMembers members →
    target ∉ keys members →
    ThroughoutMembers (fun inner => target ∉ inner.attributeNames) members →
    renameMembers target source (renameMembers source target members) = members
  | [], _, _, _ => rfl
  | (key, value) :: members, hkeyed, htarget, hlacks => by
    obtain ⟨hkey, hmembers⟩ : target ≠ key ∧ target ∉ keys members := by simpa using htarget
    rw [renameMembers, renameMembers, renamed_renamed hkey.symm,
      renameDeep_renameDeep value hkeyed.1 hlacks.1,
      renameMembers_renameMembers members hkeyed.2 hmembers hlacks.2]
end

/-- Renaming there and back restores a value just if nothing inside had the new name. -/
theorem renameDeep_renameDeep_iff (h : source ≠ target) {j : Json} (hkeyed : j.Keyed) :
    (j.renameDeep source target).renameDeep target source = j ↔ j.Lacks target := by
  constructor
  · intro hback
    rw [← hback]
    exact lacks_renameDeep h.symm _
  · exact renameDeep_renameDeep j hkeyed

end restoring

/-- **The key attribute is restored exactly where it can be.** For a JSON value with distinct keys
and numbers that are held exactly, what is sent to the server and comes back is the same value just
if no object inside has an attribute `_key`; a row that came from the server and is sent back is the
same row just if no object inside has an attribute `id`. -/
theorem keys_restored_iff (v : Json) (hkeyed : v.Keyed) (hexact : v.Exact) :
    ((Value.json v).idToKey.toJson.keyToId = v ↔ v.Lacks keyAttribute) ∧
    ((Value.json v.keyToId).idToKey.toJson = v ↔ v.Lacks idAttribute) := by
  have hnames : idAttribute ≠ keyAttribute := by decide
  constructor
  · have hsent : (Value.json v).idToKey.toJson = v.renameDeep idAttribute keyAttribute :=
      toJson_renameJson v hexact
    rw [hsent, keyToId_eq]
    exact renameDeep_renameDeep_iff hnames hkeyed
  · have hsent : (Value.json v.keyToId).idToKey.toJson =
        (v.renameDeep keyAttribute idAttribute).renameDeep idAttribute keyAttribute := by
      rw [keyToId_eq]
      exact toJson_renameJson _ hexact.renameDeep
    rw [hsent]
    exact renameDeep_renameDeep_iff hnames.symm hkeyed

/-- A family as callers write it: every object has an `id`, none has a `_key`. -/
def family : Json :=
  object [("id", string "NedStark"), ("children", array [object [("name", string "Arya"),
    ("id", string "AryaStark"), ("age", int 11)], null])]

/-- A family comes back from the server as it was; sent back as it is, it would be changed. -/
theorem family_restored : (Value.json family).idToKey.toJson.keyToId = family ∧
    (Value.json family.keyToId).idToKey.toJson ≠ family := by
  have hkeyed : family.Keyed := by simp [family, Keyed, KeyedItems, KeyedMembers, Entries.keys]
  have hexact : family.Exact := by
    have hage : Int64.minValue.toInt ≤ 11 ∧ 11 ≤ Int64.maxValue.toInt := by decide
    simp [family, Exact, Throughout, ThroughoutItems, ThroughoutMembers, HeldExactly, hage]
  have hlacks : family.Lacks keyAttribute := by
    simp [family, Lacks, Throughout, ThroughoutItems, ThroughoutMembers, attributeNames,
      keyAttribute]
  have hid : ¬ family.Lacks idAttribute := by
    simp [family, Lacks, Throughout, attributeNames, idAttribute]
  have hrestored := keys_restored_iff family hkeyed hexact
  exact ⟨hrestored.1.mpr hlacks, fun h => hid (hrestored.2.mp h)⟩

end Json

end AqlBuilder
