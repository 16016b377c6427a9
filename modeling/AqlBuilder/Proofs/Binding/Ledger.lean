import AqlBuilder.Proofs.Binding.References
import AqlBuilder.Proofs.Binding.Store
import Mathlib.Data.Multiset.MapFold
import Mathlib.Data.Multiset.Dedup
import Mathlib.Logic.Relation

/-!
# All stores of a program

The stores of all queries that exist at one time, with the counter that they got their numbers from.
A copy of a store keeps its names and counts from the beginning, and merging spreads names over
stores in any order, so a store may hold names that were given under many numbers. What keeps the
names apart is the number in them: no two stores have the same number, a name carries a number that
was taken, and where the store with that number still exists, the name's ordinal is one that this
store has counted past.

- `Ledger.Step` is what can happen to the stores.
- `Ledger.Sound` is the invariant, `Ledger.Sound.step` says that each step keeps it.
- `Ledger.Consistent` is what follows for the names, `Ledger.Sound.consistent`.
-/

namespace AqlBuilder

/-- The stores that exist, and the number of the next one. -/
structure Ledger where
  next : Nat
  stores : Multiset Store

namespace Ledger

/-- One operation on the stores. -/
inductive Step : Ledger → Ledger → Prop
  | take {n : Nat} {S : Multiset Store} : Step ⟨n, S⟩ ⟨n + 1, S⟩
  | create {n : Nat} {S : Multiset Store} : Step ⟨n, S⟩ ⟨n + 1, Store.empty n ::ₘ S⟩
  | copy {n : Nat} {S : Multiset Store} {s : Store} (h : s ∈ S) :
      Step ⟨n, S⟩ ⟨n + 1, s.renumber n ::ₘ S⟩
  | add {n : Nat} {S : Multiset Store} (s : Store) (v : Value) (category : Category) :
      Step ⟨n, s ::ₘ S⟩ ⟨n, (s.add v category).2 ::ₘ S⟩
  | merge {n : Nat} {S : Multiset Store} (s : Store) {t : Store} (h : t ∈ S)
      (category : Option Category) : Step ⟨n, s ::ₘ S⟩ ⟨n, s.merge t category ::ₘ S⟩
  | clear {n : Nat} {S : Multiset Store} (s : Store) (category : Category) :
      Step ⟨n, s ::ₘ S⟩ ⟨n, s.set [] category ::ₘ S⟩
  | drop {n : Nat} {S : Multiset Store} (s : Store) : Step ⟨n, s ::ₘ S⟩ ⟨n, S⟩

/-- A name that was given, and that no store will give again. -/
def Issued (L : Ledger) (name : String) : Prop :=
  ∃ i category k, name = placeholderName i category k ∧ i < L.next ∧
    ∀ s ∈ L.stores, s.id = i → k ≤ s.given category

/-- Distinct numbers that were all taken, names that were all given, and one value for each name. -/
structure Sound (L : Ledger) : Prop where
  distinct : (L.stores.map Store.id).Nodup
  below : ∀ s ∈ L.stores, s.id < L.next
  issued : ∀ s ∈ L.stores, ∀ name, s.Named name → L.Issued name
  agree : ∀ s ∈ L.stores, ∀ t ∈ L.stores, ∀ name v w, s.Holds name v → t.Holds name w → v = w

/-- What the stores promise about names: all have different numbers, the name that filing a value
gives is in no store, and stores that share a name agree on its value, so that merging one into
another changes no value. -/
structure Consistent (L : Ledger) : Prop where
  distinct : (L.stores.map Store.id).Nodup
  fresh : ∀ s ∈ L.stores, ∀ v category, ∀ t ∈ L.stores, ¬ t.Named (s.add v category).1
  agree : ∀ s ∈ L.stores, ∀ t ∈ L.stores, ∀ name v w, s.Holds name v → t.Holds name w → v = w
  kept : ∀ s ∈ L.stores, ∀ t ∈ L.stores, ∀ target category name v,
    (s.bound category).get? name = some v →
      ((s.merge t target).bound category).get? name = some v

variable {n m : Nat} {S : Multiset Store} {s s' t : Store} {name : String}

/-- The next name of a store is in no store. -/
theorem Sound.fresh {L : Ledger} (h : L.Sound) (hs : s ∈ L.stores) (ht : t ∈ L.stores)
    (category : Category) : ¬ t.Named (s.nextName category) := by
  intro hnamed
  obtain ⟨i, c, k, hname, -, hgiven⟩ := h.issued t ht _ hnamed
  obtain ⟨rfl, rfl, rfl⟩ := placeholderName_inj hname
  have hcounted := hgiven s hs rfl
  omega

/-- Without stores there is nothing that could go wrong. -/
theorem Sound.empty : Sound ⟨n, 0⟩ where
  distinct := Multiset.nodup_zero
  below := by simp
  issued := by simp
  agree := by simp

/-- Where the stores hold nothing new, the names keep what was known about them. -/
theorem Sound.of_holds {L L' : Ledger} (h : L.Sound) (hdistinct : (L'.stores.map Store.id).Nodup)
    (hbelow : ∀ s ∈ L'.stores, s.id < L'.next) (hissued : ∀ name, L.Issued name → L'.Issued name)
    (hholds : ∀ s ∈ L'.stores, ∀ name v, s.Holds name v → ∃ t ∈ L.stores, t.Holds name v) :
    L'.Sound := by
  refine ⟨hdistinct, hbelow, ?_, ?_⟩
  · intro s hs name hnamed
    obtain ⟨v, hv⟩ := Store.named_iff_holds.mp hnamed
    obtain ⟨t, ht, htv⟩ := hholds s hs name v hv
    exact hissued name (h.issued t ht name htv.named)
  · intro s hs t ht name v w hv hw
    obtain ⟨s', hs', hv'⟩ := hholds s hs name v hv
    obtain ⟨t', ht', hw'⟩ := hholds t ht name w hw
    exact h.agree s' hs' t' ht' name v w hv' hw'

/-- Taking a number keeps a ledger sound. -/
theorem Sound.take (h : Sound ⟨n, S⟩) : Sound ⟨n + 1, S⟩ := by
  refine h.of_holds h.distinct (fun s hs => Nat.lt_succ_of_lt (h.below s hs)) ?_
    fun s hs name v hv => ⟨s, hs, hv⟩
  rintro name ⟨i, c, k, hname, hi, hgiven⟩
  exact ⟨i, c, k, hname, Nat.lt_succ_of_lt hi, hgiven⟩

/-- Dropping a store keeps a ledger sound. -/
theorem Sound.drop (h : Sound ⟨n, s ::ₘ S⟩) : Sound ⟨n, S⟩ := by
  have hdistinct := h.distinct
  rw [Multiset.map_cons] at hdistinct
  refine h.of_holds (Multiset.nodup_cons.mp hdistinct).2
    (fun t ht => h.below t (Multiset.mem_cons_of_mem ht)) ?_
    fun t ht name v hv => ⟨t, Multiset.mem_cons_of_mem ht, hv⟩
  rintro name ⟨i, c, k, hname, hi, hgiven⟩
  exact ⟨i, c, k, hname, hi, fun t ht => hgiven t (Multiset.mem_cons_of_mem ht)⟩

/-- A store comes in under the next number if all it holds is held already. -/
theorem Sound.cons (h : Sound ⟨n, S⟩) (hid : s.id = n)
    (hholds : ∀ name v, s.Holds name v → ∃ t ∈ S, t.Holds name v) : Sound ⟨n + 1, s ::ₘ S⟩ := by
  refine h.of_holds ?_ ?_ ?_ ?_
  · rw [Multiset.map_cons, Multiset.nodup_cons]
    refine ⟨fun hmem => ?_, h.distinct⟩
    obtain ⟨t, ht, htid⟩ := Multiset.mem_map.mp hmem
    have hbelow : t.id < n := h.below t ht
    omega
  · intro t ht
    rcases Multiset.mem_cons.mp ht with rfl | ht
    · exact hid ▸ Nat.lt_succ_self n
    · exact Nat.lt_succ_of_lt (h.below t ht)
  · rintro name ⟨i, c, k, hname, hi, hgiven⟩
    refine ⟨i, c, k, hname, Nat.lt_succ_of_lt hi, fun t ht htid => ?_⟩
    rcases Multiset.mem_cons.mp ht with rfl | ht
    · -- the new store has a number that no name was given under
      dsimp only at hi
      omega
    · exact hgiven t ht htid
  · intro t ht name v hv
    rcases Multiset.mem_cons.mp ht with rfl | ht
    · exact hholds name v hv
    · exact ⟨t, ht, hv⟩

section replacement

variable (hid : s'.id = s.id)

include hid

/-- If one store changes and keeps its number, the numbers stay distinct. -/
theorem distinct_replace (h : ((s ::ₘ S).map Store.id).Nodup) :
    ((s' ::ₘ S).map Store.id).Nodup := by
  rw [Multiset.map_cons] at h ⊢
  rw [hid]
  exact h

/-- If one store changes and keeps its number, all numbers stay taken. -/
theorem below_replace (h : ∀ t ∈ s ::ₘ S, t.id < n) : ∀ t ∈ s' ::ₘ S, t.id < n := by
  intro t ht
  rcases Multiset.mem_cons.mp ht with rfl | ht
  · exact hid ▸ h s (Multiset.mem_cons_self s S)
  · exact h t (Multiset.mem_cons_of_mem ht)

/-- A store that has counted further gives none of the names that were given. -/
theorem Issued.replace (h : Issued ⟨n, s ::ₘ S⟩ name)
    (hgiven : ∀ category, s.given category ≤ s'.given category) : Issued ⟨n, s' ::ₘ S⟩ name := by
  obtain ⟨i, c, k, hname, hi, hcounted⟩ := h
  refine ⟨i, c, k, hname, hi, fun t ht htid => ?_⟩
  rcases Multiset.mem_cons.mp ht with rfl | ht
  · have hs := hcounted s (Multiset.mem_cons_self s S) (hid.symm.trans htid)
    exact Nat.le_trans hs (hgiven c)
  · exact hcounted t (Multiset.mem_cons_of_mem ht) htid

/-- A store may change as long as it keeps its number and its counters and holds nothing new. -/
theorem Sound.replace (h : Sound ⟨n, s ::ₘ S⟩) (hgiven : s'.given = s.given)
    (hholds : ∀ name v, s'.Holds name v → ∃ t ∈ s ::ₘ S, t.Holds name v) :
    Sound ⟨n, s' ::ₘ S⟩ := by
  refine h.of_holds (distinct_replace hid h.distinct) (below_replace hid h.below) ?_ ?_
  · exact fun name hname => hname.replace hid fun category => (congrFun hgiven category).ge
  · intro t ht name v hv
    rcases Multiset.mem_cons.mp ht with rfl | ht
    · exact hholds name v hv
    · exact ⟨t, Multiset.mem_cons_of_mem ht, hv⟩

end replacement

/-- Filing a value keeps the stores apart: its name is new, so no other store has to agree on it. -/
theorem Sound.add (h : Sound ⟨n, s ::ₘ S⟩) (v : Value) (category : Category) :
    Sound ⟨n, (s.add v category).2 ::ₘ S⟩ := by
  have hself := Multiset.mem_cons_self s S
  have hid : (s.add v category).2.id = s.id := Store.id_add s v category
  have hgiven : ∀ c, s.given c ≤ (s.add v category).2.given c := by
    intro c
    rw [Store.given_add]
    split <;> omega
  -- what is held now was held before, or is the new value under the new name
  have hholds : ∀ t ∈ (s.add v category).2 ::ₘ S, ∀ name w, t.Holds name w →
      (∃ u ∈ s ::ₘ S, u.Holds name w) ∨ name = s.nextName category ∧ w = v.cast := by
    intro t ht name w hw
    rcases Multiset.mem_cons.mp ht with rfl | ht
    · rcases Store.holds_add hw with hold | hnew
      · exact Or.inl ⟨s, hself, hold⟩
      · exact Or.inr hnew
    · exact Or.inl ⟨t, Multiset.mem_cons_of_mem ht, hw⟩
  refine ⟨distinct_replace hid h.distinct, below_replace hid h.below, ?_, ?_⟩
  · intro t ht name hnamed
    obtain ⟨w, hw⟩ := Store.named_iff_holds.mp hnamed
    rcases hholds t ht name w hw with ⟨u, hu, huw⟩ | ⟨rfl, -⟩
    · exact (h.issued u hu name huw.named).replace hid hgiven
    · refine ⟨s.id, category, s.given category + 1, rfl, h.below s hself, fun t ht htid => ?_⟩
      rcases Multiset.mem_cons.mp ht with rfl | ht
      · rw [Store.given_add, if_pos rfl]
      · exfalso
        have hdistinct := h.distinct
        rw [Multiset.map_cons, Multiset.nodup_cons] at hdistinct
        exact hdistinct.1 (Multiset.mem_map.mpr ⟨t, ht, htid⟩)
  · intro t ht u hu name w x hw hx
    rcases hholds t ht name w hw with ⟨t', ht', hw'⟩ | ⟨rfl, rfl⟩ <;>
      rcases hholds u hu _ x hx with ⟨u', hu', hx'⟩ | ⟨hname, rfl⟩
    · exact h.agree t' ht' u' hu' name w x hw' hx'
    · exact absurd (hname ▸ hw'.named) (h.fresh hself ht' category)
    · exact absurd hx'.named (h.fresh hself hu' category)
    · rfl

/-- The names of sound stores never collide. -/
theorem Sound.consistent {L : Ledger} (h : L.Sound) : L.Consistent where
  distinct := h.distinct
  fresh s hs v category t ht := h.fresh hs ht category
  agree := h.agree
  kept s hs t ht target category name v hv := by
    have hname : name ∈ (s.bound category).keys := Entries.exists_get?.mp ⟨v, hv⟩
    have hold : s.Holds name v := ⟨category, Entries.mem_of_get? hv⟩
    obtain ⟨w, hw⟩ := Entries.exists_get?.mpr (Store.mem_keys_merge t target hname)
    have hmerged : (s.merge t target).Holds name w := ⟨category, Entries.mem_of_get? hw⟩
    rcases Store.holds_merge hmerged with hs' | ht'
    · rw [hw, h.agree s hs s hs name w v hs' hold]
    · rw [hw, h.agree t ht s hs name w v ht' hold]

/-- Every operation keeps the stores sound. -/
theorem Sound.step {L L' : Ledger} (h : L.Sound) (step : L.Step L') : L'.Sound := by
  cases step with
  | take => exact h.take
  | create => exact h.cons rfl fun name v hv => absurd hv Store.not_holds_empty
  | copy hs => exact h.cons rfl fun name v hv => ⟨_, hs, Store.holds_renumber.mp hv⟩
  | add s v category => exact h.add v category
  | merge s ht category =>
      refine h.replace (Store.id_merge s _ category) (Store.given_merge s _ category) ?_
      intro name v hv
      rcases Store.holds_merge hv with hs | ht'
      · exact ⟨s, Multiset.mem_cons_self s _, hs⟩
      · exact ⟨_, Multiset.mem_cons_of_mem ht, ht'⟩
  | clear s category =>
      refine h.replace (Store.id_set s [] category) (Store.given_set s [] category) ?_
      exact fun name v hv => ⟨s, Multiset.mem_cons_self s _, Store.holds_clear hv⟩
  | drop s => exact h.drop

/-- One operation among stores whose names do not collide. -/
def SafeStep (L L' : Ledger) : Prop := L.Step L' ∧ L.Consistent ∧ L'.Consistent

abbrev Run : Ledger → Ledger → Prop := Relation.ReflTransGen Step

/-- A run of a ledger never sets its counter back. -/
theorem Run.next_le {L L' : Ledger} (run : L.Run L') : L.next ≤ L'.next := by
  induction run with
  | refl => exact Nat.le_refl _
  | tail _ step ih =>
      refine Nat.le_trans ih ?_
      cases step <;> simp

/-- In a run from sound stores the names never collide on the way. -/
theorem Sound.run {L L' : Ledger} (h : L.Sound) (run : L.Run L') :
    L'.Sound ∧ Relation.ReflTransGen SafeStep L L' := by
  induction run with
  | refl => exact ⟨h, .refl⟩
  | tail _ step ih =>
      have hnext := ih.1.step step
      exact ⟨hnext, ih.2.tail ⟨step, ih.1.consistent, hnext.consistent⟩⟩

end Ledger

end AqlBuilder
