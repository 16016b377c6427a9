import AqlBuilder.Proofs.Binding.Store
import AqlBuilder.Proofs.Builder.Alike
import Mathlib.Data.List.Forall2

/-!
# Two runs of the same methods

Two runs of the same calls with different values keep their builders side by side: the same clauses,
the same names in the stores at the same places, the same numbers taken. A method looks at a value
only to see whether it is `null`, an array or the reference of a bound value.

- `Builder.Twin` relates the builders of two runs, and `Supply.Twin` computations of two runs.
- `Value.SameShape` and `Value.SameBounds` relate the values.
- `Builder.Twin.adopt` and `Builder.Twin.bind`: sub-queries and operands are taken over side by
  side.
-/

namespace AqlBuilder

open Supply

/-- Two computations that take the same numbers and have related results. -/
def Supply.Twin {α β : Type} (r : α → β → Prop) (x : Supply α) (y : Supply β) : Prop :=
  ∀ next, r (x next).1 (y next).1 ∧ (x next).2 = (y next).2

namespace Supply

variable {α β γ δ ι κ : Type} {r : α → β → Prop} {s : γ → δ → Prop}

theorem twin_pure {a : α} {b : β} (h : r a b) : Twin r (pure a) (pure b) := fun _ => ⟨h, rfl⟩

/-- Twin computations with twin continuations are twins. -/
theorem Twin.bind {x : Supply α} {y : Supply β} {f : α → Supply γ} {g : β → Supply δ}
    (hxy : Twin r x y) (hfg : ∀ a b, r a b → Twin s (f a) (g b)) :
    Twin s (x >>= f) (y >>= g) := by
  intro next
  obtain ⟨hresult, hnext⟩ := hxy next
  have h := hfg _ _ hresult (x next).2
  change s (f (x next).1 (x next).2).1 (g (y next).1 (y next).2).1 ∧
    (f (x next).1 (x next).2).2 = (g (y next).1 (y next).2).2
  rw [← hnext]
  exact h

/-- Twin computations are twins if their results are changed alike. -/
theorem Twin.map {x : Supply α} {y : Supply β} {f : α → γ} {g : β → δ}
    (hxy : Twin r x y) (hfg : ∀ a b, r a b → s (f a) (g b)) :
    Twin s (do pure (f (← x))) (do pure (g (← y))) :=
  hxy.bind fun a b hab => twin_pure (hfg a b hab)

theorem twin_fresh : Twin Eq fresh fresh := fun _ => ⟨rfl, rfl⟩

/-- Computations for two lists, item by item. -/
theorem twin_each {t : ι → κ → Prop} {f : ι → Supply α} {g : κ → Supply β} {items : List ι}
    {items' : List κ} (hitems : List.Forall₂ t items items')
    (hfg : ∀ i k, t i k → Twin r (f i) (g k)) :
    Twin (List.Forall₂ r) (each f items) (each g items') := by
  induction hitems with
  | nil => exact twin_pure .nil
  | @cons i k rest rest' hik _ ih =>
      refine (hfg i k hik).bind fun a b hab => ?_
      exact ih.map fun as bs habs => .cons hab habs

end Supply

/-- Two queries that look alike are copied side by side. -/
theorem Query.twin_copyOf {q q' : Query} (h : q.face = q'.face) :
    Supply.Twin (fun c c' : Query => c.face = c'.face) q.copyOf q'.copyOf := by
  intro next
  have hcount : q.count = q'.count := congrArg Prod.snd h
  have hleft : (q.copyOf next).1.face = q.face := q.face_copyOf next
  have hright : (q'.copyOf next).1.face = q'.face := q'.face_copyOf next
  refine ⟨hleft.trans (h.trans hright.symm), ?_⟩
  rw [q.copyOf_run, q'.copyOf_run, hcount]

/-- What is done to a store does the same to its names, whichever values are filed. -/
theorem Store.congruence_sameNames : Store.Congruence Store.SameNames fun _ _ => True where
  id h := h.id
  name category h := h.nextName category
  add category h _ := h.add category _ _
  merge category h ht := h.merge ht category

/-- Two values that a condition treats alike: of one kind, and both bound as values. -/
structure Value.SameShape (v v' : Value) : Prop where
  kind : v.cast.kind = v'.cast.kind
  plain : v.cast.reference? = none
  plain' : v'.cast.reference? = none

/-- Two pairs of bounds that are treated alike: of one kind, arrays with as many items, and all
items bound as values. -/
structure Value.SameBounds (v v' : Value) : Prop where
  kind : v.cast.kind = v'.cast.kind
  length : v.cast.items?.map List.length = v'.cast.items?.map List.length
  plain : ∀ items ∈ v.cast.items?, ∀ item ∈ items, item.reference? = none
  plain' : ∀ items ∈ v'.cast.items?, ∀ item ∈ items, item.reference? = none

/-- Of two values that are treated alike either both are bounds or none. -/
theorem Value.SameBounds.isSome {v v' : Value} (h : v.SameBounds v') :
    v.bounds?.isSome = v'.bounds?.isSome := by
  rw [bounds?_isSome, bounds?_isSome, h.length]

/-- What is no reference in native form is none as it comes. -/
theorem Value.reference?_of_cast {v : Value} (h : v.cast.reference? = none) :
    v.reference? = none := by
  cases v with
  | string text => exact h
  | _ => rfl

/-- Casting a value once more changes nothing. -/
theorem Value.SameShape.reference {v v' : Value} (h : v.SameShape v') :
    v.reference? = v'.reference? := by
  rw [reference?_of_cast h.plain, reference?_of_cast h.plain']

namespace Builder

/-- The builders of two runs. -/
abbrev Twin (b b' : Builder) : Prop := b.Alike Store.SameNames b'

/-- What two runs do to their builders. -/
abbrev TwinAction (f g : Builder → Supply Builder) : Prop :=
  ∀ b b' : Builder, b.Twin b' → Supply.Twin Twin (f b) (g b')

end Builder

/-- The sub-query arguments of two runs. -/
inductive SubQuery.Twin : SubQuery → SubQuery → Prop
  | finished {q q' : Builder} (h : q.Twin q') : Twin (.finished q) (.finished q')
  | closure {make make' : Builder → Supply Builder} (h : Builder.TwinAction make make') :
      Twin (.closure make) (.closure make')

/-- The operands of two runs. -/
inductive Operand.Twin {Q P : Type} (r : Q → P → Prop) : Operand Q → Operand P → Prop
  | value {v v' : Value} (h : v.SameShape v') : Twin r (.value v) (.value v')
  | expression (aql : String) : Twin r (.expression aql) (.expression aql)
  | column (name : String) : Twin r (.column name) (.column name)
  | query {q : Q} {q' : P} (h : r q q') : Twin r (.query q) (.query q')

namespace Builder

variable {b b' q q' : Builder}

/-- New builders are twins. -/
theorem twin_fresh : Supply.Twin Twin fresh fresh := by
  refine Supply.twin_fresh.map fun id id' hid => ?_
  subst hid
  exact .refl (.refl _)

namespace Twin

/-- Twins have twin copies. -/
theorem copyOf (h : b.Twin b') : Supply.Twin Twin b.copyOf b'.copyOf := by
  intro next
  have hcounts := h.counts
  refine ⟨.of_map ?_ ?_, ?_⟩
  · rw [b.map_copyOf fun q _ => q.face_copyOf, b'.map_copyOf fun q _ => q.face_copyOf, h.map_face,
      copyOf_bindings, hcounts]
    rfl
  · rw [copyOf_bindings, copyOf_bindings, hcounts]
    exact h.bindings.renumber _
  · rw [copyOf_eq, copyOf_eq, hcounts]

/-- Twins are stopped by an error together. -/
theorem unlessFailed (h : b.Twin b') {f g : Builder → Builder} (hfg : (f b).Twin (g b')) :
    (b.unlessFailed f).Twin (b'.unlessFailed g) := by
  unfold Builder.unlessFailed
  rw [← h.error]
  split
  · exact h
  · exact hfg

/-- Twins are stopped together in steps that make new queries. -/
theorem unlessFailedM (h : b.Twin b') {f g : Builder → Supply Builder}
    (hfg : Supply.Twin Twin (f b) (g b')) :
    Supply.Twin Twin (b.unlessFailedM f) (b'.unlessFailedM g) := by
  unfold Builder.unlessFailedM
  rw [← h.error]
  split
  · exact twin_pure h
  · exact hfg

/-- Twins make twin builders for sub-queries. -/
theorem forSubQuery (h : b.Twin b') : Supply.Twin Twin b.forSubQuery b'.forSubQuery := by
  refine twin_fresh.map fun q q' hq => ?_
  exact { hq with
    tablePrefix := h.tablePrefix
    aliases := by rw [hq.aliases, h.aliases] }

/-- Twins have copies of their sources that look alike. -/
theorem runSource (h : b.Twin b') :
    Supply.Twin (fun s s' : Option (Source Query) =>
        s.map (Source.map Query.face) = s'.map (Source.map Query.face))
      (runSource (b.source.map (Source.map Query.copyOf)))
      (runSource (b'.source.map (Source.map Query.copyOf))) := by
  have hsource := h.source
  rcases hs : b.source with _ | ⟨name, v⟩ | ⟨name, v⟩ | ⟨sub, v⟩ <;>
    rcases hs' : b'.source with _ | ⟨name', v'⟩ | ⟨name', v'⟩ | ⟨sub', v'⟩ <;>
    simp only [hs, hs', Option.map_some, Option.map_none, Source.map, Option.some.injEq,
      Source.collection.injEq, Source.view.injEq, Source.derived.injEq, reduceCtorEq] at hsource
  · exact twin_pure rfl
  · obtain ⟨rfl, rfl⟩ := hsource
    exact twin_pure rfl
  · obtain ⟨rfl, rfl⟩ := hsource
    exact twin_pure rfl
  · obtain ⟨hface, rfl⟩ := hsource
    refine Supply.Twin.map (r := fun s s' : Source Query => s.map Query.face = s'.map Query.face)
      ((Query.twin_copyOf hface).map fun c c' hc => ?_) fun s s' hs => congrArg some hs
    simp only [Source.map, hc]

/-- Twins make twin builders for groups of conditions. -/
theorem forNested (h : b.Twin b') : Supply.Twin Twin b.forNested b'.forNested := by
  refine twin_fresh.bind fun q q' hq => h.runSource.map fun s s' hs => ?_
  exact { hq with
    tablePrefix := h.tablePrefix
    source := hs
    aliases := h.aliases }

/-- Twins stay twins when each files a value, whichever the values are. -/
theorem file (h : b.Twin b') (v v' : Value) (category : Category) :
    (b.file v category).Twin (b'.file v' category) :=
  Alike.file Store.congruence_sameNames h trivial category

/-- Twins stay twins when they take over the values of twins. -/
theorem absorb (h : b.Twin b') (hq : q.Twin q') (category : Category) :
    (b.absorb q category).Twin (b'.absorb q' category) :=
  Alike.absorb Store.congruence_sameNames h hq category

/-- Twins stay twins when they bind values that are the same reference, or none. -/
theorem bindValue (h : b.Twin b') {v v' : Value} (href : v.reference? = v'.reference?)
    (category : Category) :
    (b.bindValue v category).1 = (b'.bindValue v' category).1 ∧
      (b.bindValue v category).2.Twin (b'.bindValue v' category).2 :=
  Alike.bindValue Store.congruence_sameNames h trivial href category

/-- Twins bring twin sub-queries into their scopes alike. -/
theorem scopedFor [Naming] (h : b.Twin b') (hq : q.Twin q') (category : Category) :
    (b.scopedFor q category).Twin (b'.scopedFor q' category) :=
  Alike.scopedFor Store.congruence_sameNames h hq category

/-- Twins get twin sub-queries from twin arguments. -/
theorem subBuilder (h : b.Twin b') {sub sub' : SubQuery} (hsub : sub.Twin sub') :
    Supply.Twin Twin (b.subBuilder sub) (b'.subBuilder sub') := by
  cases hsub with
  | finished hq => exact twin_pure { hq with aliases := by rw [hq.aliases, h.aliases] }
  | closure hmake => exact h.forSubQuery.bind hmake

/-- Sub-queries are taken over side by side. -/
theorem adopt [Naming] (h : b.Twin b') {sub sub' : SubQuery} (hsub : sub.Twin sub')
    (category : Category) :
    Supply.Twin (fun p p' : Builder × Builder => p.1.Twin p'.1 ∧ p.2.Twin p'.2)
      (b.adopt sub category) (b'.adopt sub' category) := by
  refine (h.subBuilder hsub).map fun q q' hq => ?_
  have hscoped := h.scopedFor hq category
  exact ⟨hscoped, h.absorb hscoped category⟩

/-- Operands are bound side by side. -/
theorem bind [Naming] (h : b.Twin b') {o o' : Operand Builder} (ho : o.Twin Twin o')
    (category : Category) :
    Supply.Twin (fun p p' : Bound × Builder => p.1 = p'.1 ∧ p.2.Twin p'.2)
      (b.bind o category) (b'.bind o' category) := by
  cases ho with
  | value hv => exact twin_pure (h.bindValue hv.reference category)
  | expression aql => exact twin_pure ⟨rfl, h⟩
  | column name => exact twin_pure ⟨rfl, h⟩
  | @query q q' hq =>
      have hscoped := h.scopedFor hq category
      have hembedded : Supply.Twin Eq (b.scopedFor q category).embedded.run
          (b'.scopedFor q' category).embedded.run := by
        rw [hscoped.embedded]
        exact fun next => ⟨rfl, rfl⟩
      refine hembedded.bind fun result result' hresult => ?_
      subst hresult
      cases result with
      | ok aql => exact twin_pure ⟨rfl, h.absorb hscoped category⟩
      | error e => exact twin_pure ⟨rfl, h.fail e⟩

end Twin

end Builder

end AqlBuilder
