import AqlBuilder.Alias.Rules
import AqlBuilder.Proofs.Script.World
import AqlBuilder.Proofs.Value.Renaming

/-!
# Native values

Casting a value replaces the JSON that is embedded in it, at every depth, and keeps what the value
means: as long as the numbers of the embedded JSON can be held exactly, the value is written to JSON
as before. Between JSON whose numbers are held exactly and the values that JSON is read as, reading
and writing are inverse to each other.

- `Value.Throughout`: a property of a value and of everything inside.
- `Value.Native`: no embedded JSON; `Value.native_cast`.
- `Value.toJson_cast`: casting does not change the JSON of a value.
- `Value.Plain` are the values that JSON is read as; `Value.toJson_ofJson`, `Value.ofJson_toJson`.
-/

namespace AqlBuilder.Value

mutual
/-- Whether a value and every value inside it have a property. Embedded JSON is one value. -/
def Throughout (p : Value → Prop) : Value → Prop
  | array items => p (array items) ∧ ThroughoutItems p items
  | object members => p (object members) ∧ ThroughoutMembers p members
  | null => p null
  | bool b => p (bool b)
  | int32 n => p (int32 n)
  | int64 n => p (int64 n)
  | float32 x => p (float32 x)
  | float64 x => p (float64 x)
  | string s => p (string s)
  | json j => p (json j)

/-- Whether every item has a property throughout. -/
def ThroughoutItems (p : Value → Prop) : List Value → Prop
  | [] => True
  | item :: items => Throughout p item ∧ ThroughoutItems p items

/-- Whether every member has a property throughout. -/
def ThroughoutMembers (p : Value → Prop) : List (String × Value) → Prop
  | [] => True
  | (_, value) :: members => Throughout p value ∧ ThroughoutMembers p members
end

/-- A value that is not embedded JSON itself. -/
def IsNative : Value → Prop
  | json _ => False
  | _ => True

/-- Nothing inside is embedded JSON. -/
def Native : Value → Prop := Throughout IsNative

/-- If a value is embedded JSON, its numbers are held exactly. -/
def EmbedsExactly : Value → Prop
  | json j => j.Exact
  | _ => True

/-- The numbers of all embedded JSON are held exactly. -/
def Exact : Value → Prop := Throughout EmbedsExactly

/-- A value of a kind that JSON is read as: of the numbers the wide ones, and these finite. -/
def IsPlain : Value → Prop
  | float64 x => x.isFinite = true
  | int32 _ => False
  | float32 _ => False
  | json _ => False
  | _ => True

/-- A value built from `null`, truth values, wide integers, finite wide floating point numbers,
strings, arrays and objects. -/
def Plain : Value → Prop := Throughout IsPlain

section casting

/-- A number is native. -/
theorem native_ofInt (n : Int) : (ofInt n).Native := by
  unfold ofInt
  split <;> trivial

mutual
/-- What JSON is read as has no JSON in it. -/
theorem native_ofJson : (j : Json) → (ofJson j).Native
  | .array items => ⟨trivial, native_ofJsonItems items⟩
  | .object members => ⟨trivial, native_ofJsonMembers members⟩
  | .int n => native_ofInt n
  | .null => trivial
  | .bool _ => trivial
  | .float _ => trivial
  | .string _ => trivial

/-- The items that JSON is read as are native. -/
theorem native_ofJsonItems : (items : List Json) → ThroughoutItems IsNative (ofJsonItems items)
  | [] => trivial
  | item :: items => ⟨native_ofJson item, native_ofJsonItems items⟩

/-- The members that JSON is read as are native. -/
theorem native_ofJsonMembers :
    (members : List (String × Json)) → ThroughoutMembers IsNative (ofJsonMembers members)
  | [] => trivial
  | (_, value) :: members => ⟨native_ofJson value, native_ofJsonMembers members⟩
end

mutual
/-- Casting leaves no embedded JSON. -/
theorem native_cast : (v : Value) → v.cast.Native
  | json j => native_ofJson j
  | array items => ⟨trivial, native_castItems items⟩
  | object members => ⟨trivial, native_castMembers members⟩
  | null => trivial
  | bool _ => trivial
  | int32 _ => trivial
  | int64 _ => trivial
  | float32 _ => trivial
  | float64 _ => trivial
  | string _ => trivial

/-- Items that are cast are native. -/
theorem native_castItems : (items : List Value) → ThroughoutItems IsNative (castItems items)
  | [] => trivial
  | item :: items => ⟨native_cast item, native_castItems items⟩

/-- Members that are cast are native. -/
theorem native_castMembers :
    (members : List (String × Value)) → ThroughoutMembers IsNative (castMembers members)
  | [] => trivial
  | (_, value) :: members => ⟨native_cast value, native_castMembers members⟩
end

mutual
/-- JSON whose numbers are held exactly is written back as it was. -/
theorem toJson_ofJson : (j : Json) → j.Exact → (ofJson j).toJson = j
  | .array items, h => congrArg Json.array (toJsonItems_ofJsonItems items h.2)
  | .object members, h => congrArg Json.object (toJsonMembers_ofJsonMembers members h.2)
  | .int _, h => Json.toJson_ofInt h
  | .float _, h => if_pos h
  | .null, _ => rfl
  | .bool _, _ => rfl
  | .string _, _ => rfl

/-- Items of JSON are written back as they were read, if their numbers are held exactly. -/
theorem toJsonItems_ofJsonItems : (items : List Json) →
    Json.ThroughoutItems Json.HeldExactly items → toJsonItems (ofJsonItems items) = items
  | [], _ => rfl
  | item :: items, h => by
      rw [ofJsonItems, toJsonItems, toJson_ofJson item h.1, toJsonItems_ofJsonItems items h.2]

/-- Members of JSON are written back as they were read, if their numbers are held exactly. -/
theorem toJsonMembers_ofJsonMembers : (members : List (String × Json)) →
    Json.ThroughoutMembers Json.HeldExactly members →
      toJsonMembers (ofJsonMembers members) = members
  | [], _ => rfl
  | (key, value) :: members, h => by
      rw [ofJsonMembers, toJsonMembers, toJson_ofJson value h.1,
        toJsonMembers_ofJsonMembers members h.2]
end

mutual
/-- A value is written to JSON alike, cast or not. -/
theorem toJson_cast : (v : Value) → v.Exact → v.cast.toJson = v.toJson
  | json j, h => toJson_ofJson j h
  | array items, h => congrArg Json.array (toJsonItems_castItems items h.2)
  | object members, h => congrArg Json.object (toJsonMembers_castMembers members h.2)
  | null, _ => rfl
  | bool _, _ => rfl
  | int32 _, _ => rfl
  | int64 _, _ => rfl
  | float32 _, _ => rfl
  | float64 _, _ => rfl
  | string _, _ => rfl

/-- Items are written alike in native form, if embedded numbers are held exactly. -/
theorem toJsonItems_castItems : (items : List Value) → ThroughoutItems EmbedsExactly items →
    toJsonItems (castItems items) = toJsonItems items
  | [], _ => rfl
  | item :: items, h => by
      rw [castItems, toJsonItems, toJsonItems, toJson_cast item h.1,
        toJsonItems_castItems items h.2]

/-- Members are written alike in native form, if embedded numbers are held exactly. -/
theorem toJsonMembers_castMembers : (members : List (String × Value)) →
    ThroughoutMembers EmbedsExactly members →
    toJsonMembers (castMembers members) = toJsonMembers members
  | [], _ => rfl
  | (key, value) :: members, h => by
      rw [castMembers, toJsonMembers, toJsonMembers, toJson_cast value h.1,
        toJsonMembers_castMembers members h.2]
end

end casting

section reading

/-- A wide integer is read back as it was written. -/
theorem ofInt_toInt (n : Int64) : ofInt n.toInt = int64 n := by
  have hlow : Int64.minValue.toInt ≤ n.toInt := Int64.minValue_le_toInt n
  have hhigh : n.toInt ≤ Int64.maxValue.toInt := Int64.toInt_le n
  rw [Json.ofInt_eq_int64 ⟨hlow, hhigh⟩, Int64.ofInt_toInt]

mutual
/-- What is written to JSON is read as it was. -/
theorem ofJson_toJson : (v : Value) → v.Plain → ofJson v.toJson = v
  | array items, h => congrArg array (ofJsonItems_toJsonItems items h.2)
  | object members, h => congrArg object (ofJsonMembers_toJsonMembers members h.2)
  | int64 n, _ => ofInt_toInt n
  | float64 x, h => by
      have hfinite : x.isFinite = true := h
      rw [toJson, jsonOfFloat, if_pos hfinite, ofJson]
  | null, _ => rfl
  | bool _, _ => rfl
  | string _, _ => rfl
  | int32 _, h => h.elim
  | float32 _, h => h.elim
  | json _, h => h.elim

/-- Plain items are read back as they were written. -/
theorem ofJsonItems_toJsonItems : (items : List Value) → ThroughoutItems IsPlain items →
    ofJsonItems (toJsonItems items) = items
  | [], _ => rfl
  | item :: items, h => by
      rw [toJsonItems, ofJsonItems, ofJson_toJson item h.1, ofJsonItems_toJsonItems items h.2]

/-- Plain members are read back as they were written. -/
theorem ofJsonMembers_toJsonMembers : (members : List (String × Value)) →
    ThroughoutMembers IsPlain members → ofJsonMembers (toJsonMembers members) = members
  | [], _ => rfl
  | (key, value) :: members, h => by
      rw [toJsonMembers, ofJsonMembers, ofJson_toJson value h.1,
        ofJsonMembers_toJsonMembers members h.2]
end

mutual
/-- JSON whose numbers are held exactly is read as a plain value, -/
theorem plain_ofJson : (j : Json) → j.Exact → (ofJson j).Plain
  | .array items, h => ⟨trivial, plain_ofJsonItems items h.2⟩
  | .object members, h => ⟨trivial, plain_ofJsonMembers members h.2⟩
  | .int n, h => by
      rw [ofJson, Json.ofInt_eq_int64 h]
      trivial
  | .float _, h => h
  | .null, _ => trivial
  | .bool _, _ => trivial
  | .string _, _ => trivial

/-- The items that JSON is read as are plain, if its numbers are held exactly. -/
theorem plain_ofJsonItems : (items : List Json) → Json.ThroughoutItems Json.HeldExactly items →
    ThroughoutItems IsPlain (ofJsonItems items)
  | [], _ => trivial
  | item :: items, h => ⟨plain_ofJson item h.1, plain_ofJsonItems items h.2⟩

/-- The members that JSON is read as are plain, if its numbers are held exactly. -/
theorem plain_ofJsonMembers : (members : List (String × Json)) →
    Json.ThroughoutMembers Json.HeldExactly members →
    ThroughoutMembers IsPlain (ofJsonMembers members)
  | [], _ => trivial
  | (_, value) :: members, h => ⟨plain_ofJson value h.1, plain_ofJsonMembers members h.2⟩
end

mutual
/-- and a plain value is written to such JSON. -/
theorem exact_toJson : (v : Value) → v.Plain → v.toJson.Exact
  | array items, h => ⟨trivial, exact_toJsonItems items h.2⟩
  | object members, h => ⟨trivial, exact_toJsonMembers members h.2⟩
  | int64 n, _ => ⟨Int64.minValue_le_toInt n, Int64.toInt_le n⟩
  | float64 x, h => by
      have hfinite : x.isFinite = true := h
      rw [toJson, jsonOfFloat, if_pos hfinite]
      exact hfinite
  | null, _ => trivial
  | bool _, _ => trivial
  | string _, _ => trivial
  | int32 _, h => h.elim
  | float32 _, h => h.elim
  | json _, h => h.elim

/-- The numbers in written plain items are held exactly. -/
theorem exact_toJsonItems : (items : List Value) → ThroughoutItems IsPlain items →
    Json.ThroughoutItems Json.HeldExactly (toJsonItems items)
  | [], _ => trivial
  | item :: items, h => ⟨exact_toJson item h.1, exact_toJsonItems items h.2⟩

/-- The numbers in written plain members are held exactly. -/
theorem exact_toJsonMembers : (members : List (String × Value)) →
    ThroughoutMembers IsPlain members →
    Json.ThroughoutMembers Json.HeldExactly (toJsonMembers members)
  | [], _ => trivial
  | (_, value) :: members, h => ⟨exact_toJson value h.1, exact_toJsonMembers members h.2⟩
end

end reading

end AqlBuilder.Value

/-!
## Bound values hold no embedded JSON

A store casts each value that is filed or put in another one's place, and takes over values only
from stores that did the same. So no bound value has JSON embedded in it, wherever it has been
copied, merged or imported to.

- `Store.Native`: a store without embedded JSON, and what each method of stores makes of it.
- `Ledger.Native.run`: the operations on all stores of a program keep it.
- `World.Reached.native`: so it holds of every builder of a program, and of the queries inside.
- `bound_values_are_native` puts this together with what casting does to a value.
-/

namespace AqlBuilder

/-- No value of a store has embedded JSON in it. -/
def Store.Native (s : Store) : Prop := ∀ name v, s.Holds name v → v.Native

namespace Store.Native

variable {s t : Store}

theorem empty (id : Nat) : (Store.empty id).Native := fun _ _ h => absurd h not_holds_empty

theorem renumber (h : s.Native) (id : Nat) : (s.renumber id).Native := h

/-- A native store stays so with one more value, whatever the value is. -/
theorem add (h : s.Native) (v : Value) (category : Category) : (s.add v category).2.Native := by
  intro name w hw
  rcases holds_add hw with hold | ⟨-, rfl⟩
  · exact h name w hold
  · exact v.native_cast

/-- A native store stays so with other values, whatever they are. -/
theorem set (h : s.Native) (values : Bindings) (category : Category) :
    (s.set values category).Native := by
  rintro name w ⟨c, hw⟩
  rw [bound_set] at hw
  by_cases hc : c = category
  · rw [if_pos hc] at hw
    obtain ⟨⟨key, v⟩, -, heq⟩ := List.mem_map.mp (Entries.mem_ofPairs hw)
    cases heq
    exact v.native_cast
  · rw [if_neg hc] at hw
    exact h name w ⟨c, hw⟩

/-- Native stores are native when they are merged. -/
theorem merge (h : s.Native) (ht : t.Native) (category : Option Category) :
    (s.merge t category).Native :=
  fun name v hv => (holds_merge hv).elim (h name v) (ht name v)

end Store.Native

namespace Ledger

/-- No store has embedded JSON in it. -/
def Native (L : Ledger) : Prop := ∀ s ∈ L.stores, s.Native

variable {L L' : Ledger}

/-- Native stores stay so in every operation. -/
theorem Native.step (h : L.Native) (step : L.Step L') : L'.Native := by
  cases step with
  | take => exact h
  | create => exact Multiset.forall_mem_cons.mpr ⟨.empty _, h⟩
  | copy hs => exact Multiset.forall_mem_cons.mpr ⟨(h _ hs).renumber _, h⟩
  | add s v category =>
      obtain ⟨hs, hrest⟩ := Multiset.forall_mem_cons.mp h
      exact Multiset.forall_mem_cons.mpr ⟨hs.add v category, hrest⟩
  | merge s ht category =>
      obtain ⟨hs, hrest⟩ := Multiset.forall_mem_cons.mp h
      exact Multiset.forall_mem_cons.mpr ⟨hs.merge (hrest _ ht) category, hrest⟩
  | clear s category =>
      obtain ⟨hs, hrest⟩ := Multiset.forall_mem_cons.mp h
      exact Multiset.forall_mem_cons.mpr ⟨hs.set [] category, hrest⟩
  | drop s => exact (Multiset.forall_mem_cons.mp h).2

/-- Native stores stay so in every run. -/
theorem Native.run (h : L.Native) (run : L.Run L') : L'.Native := by
  induction run with
  | refl => exact h
  | tail _ step ih => exact ih.step step

end Ledger

namespace World

variable {W W' : World}

/-- Replacing bound values changes the store of one builder. -/
theorem Advance.native [Naming] (next : W.Advance W') (h : W.ledger.Native) : W'.ledger.Native := by
  cases next with
  | step hstep => exact h.run hstep.run
  | @setBindings n L b values category =>
      intro s hs
      change s ∈ ((b.setBindings values category ::ₘ L).map Builder.stores).sum at hs
      rw [stores_cons, Builder.setBindings, Builder.stores_withBindings, add_assoc,
        Multiset.singleton_add, Multiset.mem_cons] at hs
      have hbefore : ∀ s, s = b.bindings ∨ s ∈ b.inner + (L.map Builder.stores).sum →
          s.Native := by
        intro s hs
        refine h s ?_
        change s ∈ ((b ::ₘ L).map Builder.stores).sum
        rwa [stores_cons, Builder.stores, add_assoc, Multiset.singleton_add, Multiset.mem_cons]
      rcases hs with rfl | hs
      · exact (hbefore _ (.inl rfl)).set values category
      · exact hbefore s (.inr hs)

/-- No builder of a program has embedded JSON among its bound values, and no query inside has. -/
theorem Reached.native [Naming] (h : W.Reached) {b : Builder} (hb : b ∈ W.live) {s : Store}
    (hs : s ∈ b.stores) : s.Native := by
  have hall : W.ledger.Native :=
    Reached.induction (motive := fun W => W.ledger.Native) (fun _ s hs => by cases hs)
      (fun next hW => next.native hW) h
  obtain ⟨T, hT⟩ := exists_stores_add hb
  refine hall s ?_
  change s ∈ (W.live.map Builder.stores).sum
  rw [hT]
  exact Multiset.mem_add.mpr (.inl hs)

end World

/-- **Bound values are native, and mean what was bound.** Casting a value leaves no embedded JSON at
any depth and is done once and for all; it keeps the JSON that the value is written as, if the
embedded numbers can be held exactly. Reading and writing JSON are inverse to each other between
JSON with such numbers and the values that it is read as. And no builder that a program can come to
has embedded JSON among its bound values, nor has a query inside of it, whatever was filed,
replaced, merged or imported. -/
theorem bound_values_are_native [Naming] :
    (∀ v : Value, v.cast.Native ∧ v.cast.cast = v.cast ∧ (v.Exact → v.cast.toJson = v.toJson)) ∧
    (∀ j : Json, j.Exact → (Value.ofJson j).Plain ∧ (Value.ofJson j).toJson = j) ∧
    (∀ v : Value, v.Plain → v.toJson.Exact ∧ Value.ofJson v.toJson = v) ∧
    ∀ W : World, W.Reached → ∀ b ∈ W.live, ∀ s ∈ b.stores, ∀ name v, s.Holds name v → v.Native := by
  refine ⟨fun v => ⟨v.native_cast, v.cast_cast, v.toJson_cast⟩, ?_, ?_, ?_⟩
  · exact fun j h => ⟨Value.plain_ofJson j h, Value.toJson_ofJson j h⟩
  · exact fun v h => ⟨v.exact_toJson h, v.ofJson_toJson h⟩
  · exact fun W h b hb s hs name v hv => h.native hb hs name v hv

/-- A value with native and embedded parts. -/
def Value.mixed : Value := .array [.json (.object [("age", .int 41)]), .int32 7]

/-- A program whose only builder has had its bound values replaced. -/
def World.replaced : World :=
  ⟨1, Builder.setBindings (Clauses.empty 0) [("given", .mixed)] .filter ::ₘ 0⟩

/-- A value with JSON in it is written alike before and after, and filed in native form. -/
theorem mixed_value_is_cast :
    Value.mixed.cast.toJson = Value.mixed.toJson ∧
      (Value.ofJson (.object [("age", .int 41)])).toJson = .object [("age", .int 41)] ∧
      Value.ofJson (Value.array [.int64 41, .null]).toJson = .array [.int64 41, .null] ∧
      World.replaced.Reached ∧
      Store.Holds
        (Builder.setBindings (Clauses.empty 0) [("given", .mixed)] .filter).bindings "given"
        (.array [.object [("age", .int64 41)], .int32 7]) ∧
      ∀ b ∈ World.replaced.live, ∀ s ∈ b.stores, ∀ name v, s.Holds name v → v.Native := by
  have hjson : Json.Exact (.object [("age", .int 41)]) :=
    ⟨trivial, ⟨by decide, by decide⟩, trivial⟩
  have hmixed : Value.mixed.Exact := ⟨trivial, hjson, trivial, trivial⟩
  have hplain : Value.Plain (.array [.int64 41, .null]) := ⟨trivial, trivial, trivial, trivial⟩
  have hempty : World.Reached ⟨0, 0⟩ := ⟨0, .refl⟩
  have hreached : World.replaced.Reached :=
    (hempty.advance (.step (.new _))).advance (.setBindings (Clauses.empty 0) _ _)
  obtain ⟨hcast, hofJson, htoJson, hprograms⟩ := bound_values_are_native
  exact ⟨(hcast _).2.2 hmixed, (hofJson _ hjson).2, (htoJson _ hplain).2, hreached,
    ⟨.filter, List.mem_singleton.mpr rfl⟩, hprograms _ hreached⟩

end AqlBuilder
