import AqlBuilder.Proofs.Builder.Alike
import AqlBuilder.Proofs.Statement.Stored

/-!
# Embedded JSON

A value may have JSON embedded in it, and casting replaces that by native values. A store casts what
it files, and the renaming of keys casts what it renames, so neither sees whether a value was cast
before. Two looks at a value do see it: a string that is written like a reference is none as long as
it is embedded, and a number is not taken for one.

- `Value.idToKey_cast`, `Store.add_cast` and `Store.set_cast`: what is stored is the same.
- `Value.embeddedReference?` is the reference that a value becomes by casting, and
  `Value.reference?_cast` says so.
- `Value.isEmbeddedNumber` is the number that a value becomes by casting, and `Value.isNumber_cast`
  says so.
-/

namespace AqlBuilder

namespace Value

section keys

variable (source target : String)

mutual
/-- JSON is renamed as the value that it is read as. -/
theorem renameDeep_ofJson : (j : Json) →
    (ofJson j).renameDeep source target = renameJson source target j
  | .null => rfl
  | .bool _ => rfl
  | .int n => by
      change (ofInt n).renameDeep source target = ofInt n
      unfold ofInt
      split <;> rfl
  | .float _ => rfl
  | .string _ => rfl
  | .array items => congrArg array (renameItems_ofJsonItems items)
  | .object members => congrArg (object ∘ Entries.ofPairs) (renameMembers_ofJsonMembers members)

/-- Items of JSON are renamed as the items that they are read as. -/
theorem renameItems_ofJsonItems : (items : List Json) →
    renameItems source target (ofJsonItems items) = renameJsonItems source target items
  | [] => rfl
  | item :: items => by
      rw [ofJsonItems, renameItems, renameJsonItems, renameDeep_ofJson item,
        renameItems_ofJsonItems items]

/-- Members of JSON are renamed as the members that they are read as. -/
theorem renameMembers_ofJsonMembers : (members : List (String × Json)) →
    renameMembers source target (ofJsonMembers members) = renameJsonMembers source target members
  | [] => rfl
  | (key, value) :: members => by
      rw [ofJsonMembers, renameMembers, renameJsonMembers, renameDeep_ofJson value,
        renameMembers_ofJsonMembers members]
end

mutual
/-- Renaming casts what it renames. -/
theorem renameDeep_cast : (v : Value) →
    v.cast.renameDeep source target = v.renameDeep source target
  | json j => renameDeep_ofJson source target j
  | array items => congrArg array (renameItems_castItems items)
  | object members => congrArg (object ∘ Entries.ofPairs) (renameMembers_castMembers members)
  | null => rfl
  | bool _ => rfl
  | int32 _ => rfl
  | int64 _ => rfl
  | float32 _ => rfl
  | float64 _ => rfl
  | string _ => rfl

/-- Items are renamed alike in native form. -/
theorem renameItems_castItems : (items : List Value) →
    renameItems source target (castItems items) = renameItems source target items
  | [] => rfl
  | item :: items => by
      rw [castItems, renameItems, renameItems, renameDeep_cast item, renameItems_castItems items]

/-- Members are renamed alike in native form. -/
theorem renameMembers_castMembers : (members : List (String × Value)) →
    renameMembers source target (castMembers members) = renameMembers source target members
  | [] => rfl
  | (key, value) :: members => by
      rw [castMembers, renameMembers, renameMembers, renameDeep_cast value,
        renameMembers_castMembers members]
end

end keys

/-- Outbound data is the same, cast or not. -/
theorem idToKey_cast (v : Value) : v.cast.idToKey = v.idToKey :=
  renameDeep_cast idAttribute keyAttribute v

/-- Casting leaves the keys. -/
theorem keys_castMembers (members : Document) :
    Entries.keys (castMembers members) = Entries.keys members := by
  rw [castMembers_eq_map, Entries.keys, List.map_map]
  rfl

/-- The reference that a string in embedded JSON is written like. -/
def embeddedReference? : Value → Option String
  | json (.string text) => if isPlaceholder text then some text else none
  | _ => none

/-- Casting turns such a string into a reference, and keeps all others. -/
theorem reference?_cast (v : Value) : v.cast.reference? = v.reference?.or v.embeddedReference? := by
  cases v with
  | json j =>
      cases j with
      | int n =>
          change (ofInt n).reference? = none
          unfold ofInt
          split <;> rfl
      | _ => rfl
  | string text => exact (Option.or_none).symm
  | _ => rfl

/-- An embedded reference is a JSON string that is recognised as a name. -/
theorem eq_json_of_embeddedReference? {v : Value} {text : String}
    (h : v.embeddedReference? = some text) :
    v = .json (.string text) ∧ isPlaceholder text = true := by
  unfold embeddedReference? at h
  split at h
  · split_ifs at h with htext
    obtain rfl := Option.some.inj h
    exact ⟨rfl, htext⟩
  · cases h

/-- Whether a value is a number in embedded JSON. -/
def isEmbeddedNumber : Value → Bool
  | json (.int _) => true
  | json (.float _) => true
  | _ => false

/-- Casting turns such a value into a number, and keeps all others. -/
theorem isNumber_cast (v : Value) : v.cast.isNumber = (v.isNumber || v.isEmbeddedNumber) := by
  cases v with
  | json j =>
      cases j with
      | int n =>
          change (ofInt n).isNumber = true
          unfold ofInt
          split <;> rfl
      | _ => rfl
  | _ => rfl

end Value

namespace Store

/-- A store casts the value that it files. -/
theorem add_cast (store : Store) (v : Value) (category : Category) :
    store.add v.cast category = store.add v category := by
  unfold add
  rw [Value.cast_cast]

/-- A store casts the values that it takes instead of others. -/
theorem set_cast (store : Store) (values : Bindings) (category : Category) :
    store.set (Value.castMembers values) category = store.set values category := by
  have hset : ∀ values : Bindings, store.set values category =
      store.withCategory category (Entries.ofPairs (Value.castMembers values)) := by
    intro values
    rw [Value.castMembers_eq_map]
    rfl
  rw [hset, hset, Value.castMembers_castMembers]

/-- Two values that are the same when they are cast are filed alike. -/
theorem congruence_cast : Store.Congruence Eq fun v v' : Value => v.cast = v'.cast where
  id h := congrArg Store.id h
  name category h := congrArg (Store.nextName · category) h
  add category h hv := by rw [h, ← add_cast, hv, add_cast]
  merge category h ht := by rw [h, ht]

end Store

namespace Builder

variable (b : Builder) {v : Value} (category : Category)

/-- A value is filed in native form in any case. -/
theorem file_cast (v : Value) : b.file v.cast category = b.file v category := by
  unfold file
  rw [Store.add_cast]

/-- A value without an embedded reference is bound as its cast is. -/
theorem bindValue_cast (h : v.embeddedReference? = none) :
    b.bindValue v.cast category = b.bindValue v category := by
  rw [bindValue_eq, bindValue_eq, file_cast, v.reference?_cast, h, Option.or_none]

/-- An embedded reference is filed like any string; its cast stands for itself. -/
theorem bindValue_embedded {text : String} (h : v.embeddedReference? = some text) :
    b.bindValue v category = (.placeholder (b.bindings.nextName category), b.file v category) ∧
      b.bindValue v.cast category = (.raw text, b) := by
  obtain ⟨rfl, -⟩ := Value.eq_json_of_embeddedReference? h
  have hcast := Value.reference?_cast (.json (.string text))
  rw [h] at hcast
  refine ⟨rfl, ?_⟩
  rw [bindValue_eq, hcast]
  rfl

end Builder

end AqlBuilder
